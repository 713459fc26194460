import Storyworld.Attribute

/-! # Changes of attribute trees

`Rewrite` lists what a change may do to a tree, whether it succeeds or fails. A change that goes down
a path fails only where it has made nothing yet, for nothing bars the way below a container that it
has made: `Clean.atEnd`. What was put at the end of a path is read there, and what is read along
other branches stays as it was: `read_atEnd_put`, `read_atEnd_of_not_prefix`.
-/

namespace Storyworld

namespace Attributes

/-- One container turned into another by writes to it or below it. -/
inductive Rewrite : Attributes → Attributes → Prop
  | same (as : Attributes) : Rewrite as as
  | put (key : String) (v : Value) (as : Attributes) : Rewrite as (as.put key (.value v))
  | create {as inner : Attributes} (key : String) (h : Rewrite .nil inner) :
      Rewrite as (as.put key (.map inner))
  | descend {as inner inner' : Attributes} {key : String}
      (found : as.lookup key = some (.map inner)) (h : Rewrite inner inner') :
      Rewrite as (as.replace key (.map inner'))

namespace Change

variable {α : Type} {change : Change α} {key : String} {as : Attributes}
variable {result : Except AccessFault α} {inner inner' : Attributes}

theorem below_of_absent (h : as.lookup key = none) (hrun : change .nil = (result, inner)) :
    below key change as = (result, as.put key (.map inner)) := by
  simp only [below, h, hrun]

theorem below_of_map (h : as.lookup key = some (.map inner))
    (hrun : change inner = (result, inner')) :
    below key change as = (result, as.replace key (.map inner')) := by
  simp only [below, h, hrun]

theorem below_of_value {v : Value} (h : as.lookup key = some (.value v)) :
    below key change as = (.error .belowScalar, as) := by
  simp only [below, h]

/-! ## What a change may do -/

/-- Whether it succeeds or fails, the change only writes. -/
def Rewrites (change : Change α) : Prop :=
  ∀ as, Rewrite as (change as).2

theorem Rewrites.below (h : change.Rewrites) (key : String) : (below key change).Rewrites := by
  intro as
  cases hlookup : as.lookup key with
  | none =>
    have hinner := h .nil
    rcases hrun : change .nil with ⟨result, inner⟩
    rw [hrun] at hinner
    rw [below_of_absent hlookup hrun]
    exact .create key hinner
  | some node =>
    cases node with
    | value v =>
      rw [below_of_value hlookup]
      exact .same as
    | map inner =>
      have hinner := h inner
      rcases hrun : change inner with ⟨result, inner'⟩
      rw [hrun] at hinner
      rw [below_of_map hlookup hrun]
      exact .descend hlookup hinner

theorem Rewrites.atEnd {change : String → Change α} (h : ∀ key, (change key).Rewrites)
    (key : String) (rest : List String) : (atEnd change key rest).Rewrites := by
  induction rest generalizing key with
  | nil => exact h key
  | cons next rest ih => exact (ih next).below key

theorem put_rewrites (v : Value) (key : String) : (put v key).Rewrites :=
  fun as => .put key v as

theorem getOrPut_rewrites (default : Value) (key : String) : (getOrPut default key).Rewrites := by
  intro as
  unfold getOrPut
  split
  · exact .put key default as
  · exact .same as
  · exact .same as

/-! ## Changes that fail -/

/-- A change that touches nothing where it fails, and that cannot fail in an empty container. -/
structure Clean (change : Change α) : Prop where
  untouched : ∀ {as bs : Attributes} {fault : AccessFault},
    change as = (.error fault, bs) → bs = as
  opens : ∀ {bs : Attributes} {fault : AccessFault}, change .nil ≠ (.error fault, bs)

/-- **No failure leaves a new container behind.** A container that comes into being on the way is
empty, so what goes on in it cannot fail. -/
theorem Clean.below (h : change.Clean) (key : String) : (below key change).Clean := by
  constructor
  · intro as bs fault hfails
    cases hlookup : as.lookup key with
    | none =>
      rcases hrun : change .nil with ⟨result, inner⟩
      rw [below_of_absent hlookup hrun] at hfails
      cases hfails
      exact absurd hrun h.opens
    | some node =>
      cases node with
      | value v =>
        rw [below_of_value hlookup] at hfails
        cases hfails
        rfl
      | map inner =>
        rcases hrun : change inner with ⟨result, inner'⟩
        rw [below_of_map hlookup hrun] at hfails
        cases hfails
        rw [h.untouched hrun]
        exact Entries.replace_of_lookup hlookup
  · intro bs fault hfails
    rcases hrun : change .nil with ⟨result, inner⟩
    rw [below_of_absent rfl hrun] at hfails
    cases hfails
    exact h.opens hrun

theorem Clean.atEnd {change : String → Change α} (h : ∀ key, (change key).Clean) (key : String)
    (rest : List String) : (atEnd change key rest).Clean := by
  induction rest generalizing key with
  | nil => exact h key
  | cons next rest ih => exact (ih next).below key

theorem put_clean (v : Value) (key : String) : (put v key).Clean :=
  ⟨fun hfails => (nomatch hfails), fun hfails => nomatch hfails⟩

theorem getOrPut_clean (default : Value) (key : String) : (getOrPut default key).Clean := by
  constructor
  · intro as bs fault hfails
    unfold getOrPut at hfails
    split at hfails
    · cases hfails
    · cases hfails
    · cases hfails
      rfl
  · exact fun hfails => nomatch hfails

end Change

end Attributes

/-! ## Reading what was put -/

namespace Attribute

theorem read_map_cons (key : String) (rest : List String) (entries : Attributes) :
    (Attribute.map entries).read (key :: rest) = match entries.lookup key with
      | none => .error .absent
      | some node => node.read rest := by
  cases hlookup : entries.lookup key <;> simp only [read, hlookup]

/-- There is nothing below a scalar. -/
theorem read_append_of_ok {node : Attribute} {keys : List String} {v : Value}
    (h : node.read keys = .ok v) (key : String) (rest : List String) :
    node.read (keys ++ key :: rest) = .error .belowScalar := by
  induction keys generalizing node with
  | nil =>
    cases node with
    | value u => rfl
    | map entries => cases h
  | cons k keys ih =>
    cases node with
    | value u => cases h
    | map entries =>
      rw [read_map_cons] at h
      rw [List.cons_append, read_map_cons]
      cases hlookup : entries.lookup k with
      | none =>
        rw [hlookup] at h
        cases h
      | some node =>
        rw [hlookup] at h
        exact ih h

/-- There is nothing in an empty container. -/
theorem read_map_nil {keys : List String} (h : keys ≠ []) :
    (Attribute.map .nil).read keys = .error .absent := by
  cases keys with
  | nil => exact absurd rfl h
  | cons key rest => rfl

/-- What is read below a key that holds nothing, or a container, is read in that container. -/
theorem read_map_of_lookup {entries inner : Attributes} {key : String} {keys : List String}
    (h : entries.lookup key = none ∧ inner = .nil ∨ entries.lookup key = some (.map inner))
    (hkeys : keys ≠ []) :
    (Attribute.map entries).read (key :: keys) = (Attribute.map inner).read keys := by
  rcases h with ⟨hlookup, rfl⟩ | hlookup
  · rw [read_map_cons, hlookup, read_map_nil hkeys]
  · rw [read_map_cons, hlookup]

end Attribute

namespace Attributes.Change

open Attribute

variable {v : Value} {as bs : Attributes}

/-- What a change below a key has done if it succeeds: it was carried out in the container that is
there, or in an empty one, and all else is as it was. -/
theorem below_eq_ok {α : Type} {change : Change α} {key : String} {a : α}
    (h : below key change as = (.ok a, bs)) :
    ∃ inner inner', (as.lookup key = none ∧ inner = .nil ∨ as.lookup key = some (.map inner)) ∧
      change inner = (.ok a, inner') ∧
      ∀ k, bs.lookup k = if k = key then some (.map inner') else as.lookup k := by
  cases hlookup : as.lookup key with
  | none =>
    rcases hrun : change .nil with ⟨result, inner'⟩
    rw [below_of_absent hlookup hrun] at h
    cases h
    exact ⟨.nil, inner', .inl ⟨rfl, rfl⟩, hrun, fun k => Keyed.lookup_put key k _ as⟩
  | some node =>
    cases node with
    | value w =>
      rw [below_of_value hlookup] at h
      cases h
    | map inner =>
      rcases hrun : change inner with ⟨result, inner'⟩
      rw [below_of_map hlookup hrun] at h
      cases h
      exact ⟨inner, inner', .inr rfl, hrun, fun k => Entries.lookup_replace hlookup k _⟩

/-- **What was put is read.** -/
theorem read_atEnd_put {key : String} {rest : List String}
    (h : atEnd (put v) key rest as = (.ok (), bs)) :
    (Attribute.map bs).read (key :: rest) = .ok v := by
  induction rest generalizing key as bs with
  | nil =>
    cases h
    rw [read_map_cons, Keyed.lookup_put, if_pos rfl]
    rfl
  | cons next rest ih =>
    obtain ⟨inner, inner', -, hinner, hbs⟩ := below_eq_ok h
    rw [read_map_cons, hbs, if_pos rfl]
    exact ih hinner

/-- Under its key, a change does what it does; under all others, nothing if it succeeds. -/
def Local {α : Type} (change : String → Change α) : Prop :=
  ∀ {key : String} {as bs : Attributes} {a : α}, change key as = (.ok a, bs) →
    ∀ k, k ≠ key → bs.lookup k = as.lookup k

theorem put_local (v : Value) : Local (put v) := by
  intro key as bs a h k hne
  cases h
  rw [Keyed.lookup_put, if_neg hne]

theorem getOrPut_local (default : Value) : Local (getOrPut default) := by
  intro key as bs a h k hne
  unfold getOrPut at h
  split at h
  · cases h
    rw [Keyed.lookup_put, if_neg hne]
  · cases h
    rfl
  · cases h

/-- **Reads along other branches come to the same**, whether they succeed or fail. -/
theorem read_atEnd_of_not_prefix {α : Type} {change : String → Change α} (hlocal : Local change)
    {a : α} {key : String} {rest keys : List String} (h : atEnd change key rest as = (.ok a, bs))
    (hbelow : ¬key :: rest <+: keys) (habove : ¬keys <+: key :: rest) :
    (Attribute.map bs).read keys = (Attribute.map as).read keys := by
  induction rest generalizing key keys as bs with
  | nil =>
    cases keys with
    | nil => exact absurd List.nil_prefix habove
    | cons other keys =>
      have hne : other ≠ key := by
        rintro rfl
        exact hbelow (List.prefix_append [other] keys)
      rw [read_map_cons, read_map_cons, hlocal h other hne]
  | cons next rest ih =>
    cases keys with
    | nil => exact absurd List.nil_prefix habove
    | cons other keys =>
      obtain ⟨inner, inner', hcontainer, hinner, hbs⟩ := below_eq_ok h
      by_cases hother : other = key
      · -- the paths part further down
        subst hother
        rw [List.cons_prefix_cons, not_and] at hbelow habove
        have hkeys : keys ≠ [] := by
          rintro rfl
          exact habove rfl List.nil_prefix
        rw [read_map_of_lookup hcontainer hkeys, read_map_cons, hbs, if_pos rfl]
        exact ih hinner (hbelow rfl) (habove rfl)
      · rw [read_map_cons, read_map_cons, hbs, if_neg hother]

/-- Nothing changes below a scalar, so where a change succeeds there is no scalar on the way. -/
theorem read_ne_ok_of_atEnd {α : Type} {change : String → Change α} {a : α} {key : String}
    {rest keys : List String} (h : atEnd change key rest as = (.ok a, bs))
    (habove : keys <+: key :: rest) (hne : keys ≠ key :: rest) (u : Value) :
    (Attribute.map as).read keys ≠ .ok u := by
  induction rest generalizing key keys as bs with
  | nil =>
    cases keys with
    | nil => exact nofun
    | cons other keys =>
      obtain ⟨rfl, hkeys⟩ := List.cons_prefix_cons.mp habove
      exact absurd (List.prefix_nil.mp hkeys ▸ rfl) hne
  | cons next rest ih =>
    cases keys with
    | nil => exact nofun
    | cons other keys =>
      obtain ⟨rfl, hkeys⟩ := List.cons_prefix_cons.mp habove
      obtain ⟨inner, inner', hcontainer, hinner, -⟩ := below_eq_ok h
      have hnothing := ih hinner hkeys fun heq => hne (heq ▸ rfl)
      cases keys with
      | nil =>
        rw [read_map_cons]
        obtain ⟨hlookup, -⟩ | hlookup := hcontainer <;> rw [hlookup] <;> exact nofun
      | cons k keys =>
        rw [read_map_of_lookup hcontainer (List.cons_ne_nil k keys)]
        exact hnothing

/-- What a read with a default comes to is what was there, or the default where nothing was. -/
theorem read_of_atEnd_getOrPut {default w : Value} {key : String} {rest : List String}
    (h : atEnd (getOrPut default) key rest as = (.ok w, bs)) :
    (Attribute.map as).read (key :: rest) = .ok w ∨
      (Attribute.map as).read (key :: rest) = .error .absent ∧ w = default := by
  induction rest generalizing key as bs with
  | nil =>
    rw [read_map_cons]
    simp only [atEnd, getOrPut] at h
    split at h
    · rename_i hlookup
      cases h
      rw [hlookup]
      exact .inr ⟨rfl, rfl⟩
    · rename_i hlookup
      cases h
      rw [hlookup]
      exact .inl rfl
    · cases h
  | cons next rest ih =>
    obtain ⟨inner, inner', hcontainer, hinner, -⟩ := below_eq_ok h
    rw [read_map_of_lookup hcontainer (List.cons_ne_nil next rest)]
    exact ih hinner

/-- Where a default was read or put, a value can be put. -/
theorem atEnd_put_of_getOrPut {default w : Value} {key : String} {rest : List String}
    (h : atEnd (getOrPut default) key rest as = (.ok w, bs)) (v : Value) :
    ∃ cs, atEnd (put v) key rest bs = (.ok (), cs) := by
  induction rest generalizing key as bs with
  | nil => exact ⟨_, rfl⟩
  | cons next rest ih =>
    obtain ⟨inner, inner', -, hinner, hbs⟩ := below_eq_ok h
    obtain ⟨inner'', hput⟩ := ih hinner
    exact ⟨_, below_of_map (by rw [hbs, if_pos rfl]) hput⟩

/-- A default can be neither read nor put where reading finds something that is no scalar. -/
theorem read_of_atEnd_getOrPut_error {default : Value} {fault : AccessFault} {key : String}
    {rest : List String} (h : atEnd (getOrPut default) key rest as = (.error fault, bs)) :
    (Attribute.map as).read (key :: rest) = .error fault ∧ fault ≠ .absent := by
  induction rest generalizing key as bs with
  | nil =>
    rw [read_map_cons]
    simp only [atEnd, getOrPut] at h
    split at h
    · cases h
    · cases h
    · rename_i entries hlookup
      cases h
      rw [hlookup]
      exact ⟨rfl, nofun⟩
  | cons next rest ih =>
    rw [read_map_cons]
    cases hlookup : as.lookup key with
    | none =>
      rcases hrun : atEnd (getOrPut default) next rest .nil with ⟨result, inner⟩
      rw [atEnd, below_of_absent hlookup hrun] at h
      cases h
      exact absurd hrun (Clean.atEnd (getOrPut_clean default) next rest).opens
    | some node =>
      cases node with
      | value w =>
        rw [atEnd, below_of_value hlookup] at h
        cases h
        exact ⟨rfl, nofun⟩
      | map inner =>
        rcases hrun : atEnd (getOrPut default) next rest inner with ⟨result, inner'⟩
        rw [atEnd, below_of_map hlookup hrun] at h
        cases h
        exact ih hrun

end Attributes.Change

end Storyworld
