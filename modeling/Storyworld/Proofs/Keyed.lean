import Storyworld.Keyed

/-! # Collections by key

A collection is determined by what is found in it (`Entries.ext`), for its order leaves no choice. So
what happens to it is told by lookups alone: putting or erasing twice is putting or erasing once, and
entries that are gathered again make the collection that they came from, `Keyed.ofList_toList`.
-/

namespace Storyworld

namespace Entries

variable {α : Type} {bound : Option String} {key : String}

@[simp] theorem not_mem_nil (e : String × α) : e ∉ (nil : Entries α bound) :=
  List.not_mem_nil

@[simp] theorem mem_cons {a : α} {above : ∀ b ∈ bound, b < key} {rest : Entries α (some key)}
    {e : String × α} : e ∈ cons key a above rest ↔ e = (key, a) ∨ e ∈ rest :=
  List.mem_cons

theorem beq_eq [BEq α] (as bs : Entries α bound) : (as == bs) = (as.toList == bs.toList) :=
  rfl

instance [BEq α] [ReflBEq α] : ReflBEq (Entries α bound) :=
  ⟨fun {as} => BEq.refl as.toList⟩

theorem above_of_mem {entries : Entries α bound} {e : String × α} (he : e ∈ entries) :
    ∀ b ∈ bound, b < e.1 := by
  induction entries with
  | nil => cases he
  | cons k a above rest ih =>
    rcases mem_cons.mp he with rfl | he
    · exact above
    · exact fun b hb => String.lt_trans (above b hb) (ih he k rfl)

theorem sorted_toList (entries : Entries α bound) :
    (entries.toList.map Prod.fst).Pairwise (· < ·) := by
  induction entries with
  | nil => exact .nil
  | cons k a above rest ih =>
    exact .cons (List.forall_mem_map.mpr fun e he => above_of_mem he k rfl) ih

theorem exists_toList_eq {entries : List (String × α)}
    (sorted : (entries.map Prod.fst).Pairwise (· < ·))
    (above : ∀ e ∈ entries, ∀ b ∈ bound, b < e.1) :
    ∃ gathered : Entries α bound, gathered.toList = entries := by
  induction entries generalizing bound with
  | nil => exact ⟨.nil, rfl⟩
  | cons e rest ih =>
    obtain ⟨hfirst, hrest⟩ := List.pairwise_cons.mp sorted
    obtain ⟨gathered, rfl⟩ : ∃ gathered : Entries α (some e.1), gathered.toList = rest :=
      ih hrest fun x hx b hb => Option.mem_some.mp hb ▸ hfirst x.1 (List.mem_map_of_mem hx)
    exact ⟨.cons e.1 e.2 (above e List.mem_cons_self) gathered, rfl⟩

theorem nodup_keys (entries : Entries α bound) : (entries.toList.map Prod.fst).Nodup := by
  refine entries.sorted_toList.imp ?_
  rintro k _ hlt rfl
  exact String.lt_irrefl k hlt

/-! ## Lookups -/

theorem mem_of_lookup {a : α} {entries : Entries α bound} (h : entries.lookup key = some a) :
    (key, a) ∈ entries := by
  induction entries with
  | nil => cases h
  | cons k b above rest ih =>
    rw [lookup_cons] at h
    by_cases hk : key = k
    · rw [if_pos hk] at h
      cases h
      exact mem_cons.mpr (.inl (by rw [hk]))
    · rw [if_neg hk] at h
      exact mem_cons.mpr (.inr (ih h))

theorem lookup_eq_none_of_le {k l : String} (hle : k ≤ l) (entries : Entries α (some l)) :
    entries.lookup k = none := by
  refine Option.eq_none_iff_forall_ne_some.mpr fun a ha => ?_
  exact String.not_lt.mpr hle (above_of_mem (mem_of_lookup ha) l rfl)

theorem mem_iff_lookup {a : α} {entries : Entries α bound} :
    (key, a) ∈ entries ↔ entries.lookup key = some a := by
  refine ⟨fun h => ?_, mem_of_lookup⟩
  induction entries with
  | nil => cases h
  | cons k b above rest ih =>
    rw [lookup_cons]
    rcases mem_cons.mp h with heq | h
    · cases heq
      rw [if_pos rfl]
    · have hne : key ≠ k := fun heq => String.lt_irrefl k (heq ▸ above_of_mem h k rfl)
      rw [if_neg hne, ih h]

/-- **A collection is determined by what is found in it.** -/
theorem ext {as bs : Entries α bound} (h : ∀ k, as.lookup k = bs.lookup k) : as = bs := by
  induction as with
  | nil =>
    cases bs with
    | nil => rfl
    | cons l b _ _ => simpa [lookup_cons] using h l
  | cons k a above rest ih =>
    cases bs with
    | nil => simpa [lookup_cons] using h k
    | cons l b above' rest' =>
      -- of two first keys, the lower one would not be found on the other side
      have hkl : k = l := by
        refine Decidable.byContradiction fun hne => ?_
        have hk := h k
        have hl := h l
        rw [lookup_cons, lookup_cons, if_pos rfl, if_neg hne] at hk
        rw [lookup_cons, lookup_cons, if_pos rfl, if_neg (Ne.symm hne)] at hl
        rcases String.le_total k l with hle | hle
        · rw [lookup_eq_none_of_le hle] at hk
          cases hk
        · rw [lookup_eq_none_of_le hle] at hl
          cases hl
      subst hkl
      obtain rfl : a = b := by simpa [lookup_cons] using h k
      obtain rfl : rest = rest' := by
        refine ih fun j => ?_
        by_cases hj : j = k
        · rw [hj, lookup_eq_none_of_le (String.le_refl k), lookup_eq_none_of_le (String.le_refl k)]
        · simpa [lookup_cons, hj] using h j
      rfl

theorem erase_erase (key : String) (entries : Entries α bound) :
    (entries.erase key).erase key = entries.erase key := by
  refine ext fun k => ?_
  simp only [lookup_erase]
  split <;> rfl

/-! ## Entries -/

@[simp] theorem toList_lower (below : ∀ b ∈ bound, b < key) (entries : Entries α (some key)) :
    (entries.lower below).toList = entries.toList := by
  cases entries <;> rfl

@[simp] theorem toList_filter (p : String × α → Bool) (entries : Entries α bound) :
    (entries.filter p).toList = entries.toList.filter p := by
  induction entries with
  | nil => rfl
  | cons k a above rest ih =>
    by_cases hp : p (k, a) <;> simp [filter, toList, hp, ih]

theorem mem_filter {p : String × α → Bool} {entries : Entries α bound} {e : String × α} :
    e ∈ entries.filter p ↔ e ∈ entries ∧ p e = true := by
  change e ∈ (entries.filter p).toList ↔ _
  rw [toList_filter]
  exact List.mem_filter

theorem filter_eq_self {p : String × α → Bool} {entries : Entries α bound}
    (h : ∀ e ∈ entries, p e = true) : entries.filter p = entries := by
  induction entries with
  | nil => rfl
  | cons k a above rest ih =>
    rw [filter, if_pos (h _ (mem_cons.mpr (.inl rfl))),
      ih fun e he => h e (mem_cons.mpr (.inr he))]

end Entries

namespace Keyed

variable {α : Type}

theorem mem_put {key : String} {a : α} {entries : Keyed α} {x : String × α}
    (h : x ∈ put key a entries) : x = (key, a) ∨ x ∈ entries := by
  obtain ⟨k, b⟩ := x
  simp only [Entries.mem_iff_lookup, lookup_put] at h ⊢
  by_cases hk : k = key <;> simp_all

theorem put_put (key : String) (a : α) (entries : Keyed α) :
    put key a (put key a entries) = put key a entries := by
  refine Entries.ext fun k => ?_
  simp only [lookup_put]
  split <;> rfl

/-! ## Gathering entries -/

theorem lookup_foldl_put {entries : List (String × α)} (h : (entries.map Prod.fst).Nodup)
    (sorted : Keyed α) {key : String} {a : α} :
    (entries.foldl (fun sorted e => put e.1 e.2 sorted) sorted).lookup key = some a ↔
      (key, a) ∈ entries ∨ key ∉ entries.map Prod.fst ∧ sorted.lookup key = some a := by
  induction entries generalizing sorted with
  | nil => simp
  | cons entry rest ih =>
    obtain ⟨k, b⟩ := entry
    rw [List.map_cons, List.nodup_cons] at h
    rw [List.foldl_cons, ih h.2, lookup_put]
    by_cases hk : key = k
    · subst hk
      have habsent : (key, a) ∉ rest := fun hmem => h.1 (List.mem_map.mpr ⟨_, hmem, rfl⟩)
      simp [habsent, h.1, eq_comm]
    · simp [hk]

/-- Among entries of distinct keys, what is found under a key is what was gathered there. -/
theorem lookup_ofList {entries : List (String × α)} (h : (entries.map Prod.fst).Nodup)
    {key : String} {a : α} : (ofList entries).lookup key = some a ↔ (key, a) ∈ entries := by
  rw [ofList, lookup_foldl_put h]
  simp

/-- **Entries of a collection are gathered as they are.** -/
theorem ofList_toList (entries : Keyed α) : ofList entries.toList = entries := by
  refine Entries.ext fun k => Option.ext fun a => ?_
  exact (lookup_ofList entries.nodup_keys).trans Entries.mem_iff_lookup

/-- Entries that are in order stay as they are. -/
theorem toList_ofList {entries : List (String × α)}
    (sorted : (entries.map Prod.fst).Pairwise (· < ·)) : (ofList entries).toList = entries := by
  obtain ⟨gathered, rfl⟩ : ∃ gathered : Keyed α, gathered.toList = entries :=
    Entries.exists_toList_eq sorted fun _ _ _ hb => absurd hb (Option.not_mem_none _)
  rw [ofList_toList]

end Keyed

end Storyworld
