/-! Collections by text key, in the order of their keys. The order is that of code points, which is
also the order of the bytes of their UTF-8 form. An entry goes only before entries with keys above
its own, so no collection is out of order. -/

namespace Storyworld

/-- Entries in the order of their keys, each key once, and all keys above a bound if there is one. -/
inductive Entries (α : Type) : Option String → Type where
  | nil {bound : Option String} : Entries α bound
  | cons {bound : Option String} (key : String) (a : α) (above : ∀ b ∈ bound, b < key)
      (rest : Entries α (some key)) : Entries α bound

abbrev Keyed (α : Type) := Entries α none

namespace Entries

variable {α : Type} {bound : Option String} {key : String}

def toList {bound : Option String} : Entries α bound → List (String × α)
  | nil => []
  | cons key a _ rest => (key, a) :: rest.toList

instance : Membership (String × α) (Entries α bound) := ⟨fun entries e => e ∈ entries.toList⟩

instance [BEq α] : BEq (Entries α bound) := ⟨fun as bs => as.toList == bs.toList⟩

def lookup (key : String) {bound : Option String} : Entries α bound → Option α
  | nil => none
  | cons k a _ rest => if key = k then some a else rest.lookup key

/-- Puts a value under a key, in order, in place of any that is there. -/
def insert (key : String) (a : α) {bound : Option String} (above : ∀ b ∈ bound, b < key) :
    Entries α bound → Entries α bound
  | nil => cons key a above nil
  | cons k b hk rest =>
    if heq : key = k then cons k a hk rest
    else if hlt : key < k then cons key a above (cons k b (by simpa using hlt) rest)
    else
      have hgt : k < key := Std.lt_of_le_of_ne (String.not_lt.mp hlt) (Ne.symm heq)
      cons k b hk (rest.insert key a (by simpa using hgt))

/-- Puts a value in the place of the one that is found under a key. -/
def replace (key : String) (a : α) {bound : Option String} : Entries α bound → Entries α bound
  | nil => nil
  | cons k b above rest =>
    if key = k then cons k a above rest else cons k b above (rest.replace key a)

/-- The same entries above a lower bound. -/
def lower (below : ∀ b ∈ bound, b < key) : Entries α (some key) → Entries α bound
  | nil => nil
  | cons k a above rest => cons k a (fun b hb => String.lt_trans (below b hb) (above key rfl)) rest

def filter (p : String × α → Bool) {bound : Option String} : Entries α bound → Entries α bound
  | nil => nil
  | cons key a above rest =>
    if p (key, a) then cons key a above (rest.filter p) else (rest.filter p).lower above

def erase (key : String) (entries : Entries α bound) : Entries α bound :=
  entries.filter fun e => e.1 ≠ key

@[simp] theorem lookup_nil (k : String) : (nil : Entries α bound).lookup k = none :=
  rfl

theorem lookup_cons (k : String) (a : α) (above : ∀ b ∈ bound, b < key)
    (rest : Entries α (some key)) :
    (cons key a above rest).lookup k = if k = key then some a else rest.lookup k :=
  rfl

theorem lookup_insert (k : String) (a : α) (above : ∀ b ∈ bound, b < key)
    (entries : Entries α bound) :
    (entries.insert key a above).lookup k = if k = key then some a else entries.lookup k := by
  induction entries with
  | nil => rfl
  | cons l b hl rest ih => grind [insert, lookup_cons]

theorem lookup_replace {b : α} {entries : Entries α bound} (h : entries.lookup key = some b)
    (k : String) (a : α) :
    (entries.replace key a).lookup k = if k = key then some a else entries.lookup k := by
  induction entries with
  | nil => cases h
  | cons l c above rest ih => grind [replace, lookup_cons]

theorem replace_of_lookup {a : α} {entries : Entries α bound}
    (h : entries.lookup key = some a) : entries.replace key a = entries := by
  induction entries with
  | nil => rfl
  | cons l b above rest ih => grind [replace, lookup_cons]

@[simp] theorem lookup_lower (k : String) (below : ∀ b ∈ bound, b < key)
    (entries : Entries α (some key)) : (entries.lower below).lookup k = entries.lookup k := by
  cases entries <;> rfl

theorem lookup_erase (key k : String) (entries : Entries α bound) :
    (entries.erase key).lookup k = if k = key then none else entries.lookup k := by
  induction entries with
  | nil => simp [erase, filter]
  | cons l a above rest ih => grind [erase, filter, lookup_cons, lookup_lower]

theorem lookup_erase_self (key : String) (entries : Entries α bound) :
    (entries.erase key).lookup key = none := by
  rw [lookup_erase, if_pos rfl]

end Entries

namespace Keyed

variable {α : Type}

def put (key : String) (a : α) (entries : Keyed α) : Keyed α :=
  entries.insert key a nofun

/-- The collection of entries in any order; of two with one key the later one stays. -/
def ofList (entries : List (String × α)) : Keyed α :=
  entries.foldl (fun sorted e => put e.1 e.2 sorted) .nil

theorem lookup_put (key k : String) (a : α) (entries : Keyed α) :
    (put key a entries).lookup k = if k = key then some a else entries.lookup k :=
  Entries.lookup_insert k a _ entries

end Keyed

end Storyworld
