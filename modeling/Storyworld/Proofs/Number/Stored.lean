import Storyworld.Number.Notation

/-! # Numerals of documents

A numeral that a document can hold is `Proper`: no zero before its other digits, and nothing but
digits. `stored?_proper` says that every numeral a double is stored as is one. `ReadsBack` is what
there is to ask of a double then: that its numeral reads as an equal double. An infinite one, or one
that is not a number, has no numeral.
-/

namespace Storyworld.Number

/-- Digits that may stand before the point: a zero alone, or digits that do not start with one. -/
def IsWhole (digits : List Char) : Prop :=
  digits = ['0'] ∨
    (∃ c cs, digits = c :: cs ∧ c ≠ '0') ∧ ∀ c ∈ digits, c.isDigit = true

theorem IsWhole.exists_cons {digits : List Char} (h : IsWhole digits) :
    ∃ c cs, digits = c :: cs ∧ c.isDigit = true := by
  rcases h with rfl | ⟨⟨c, cs, rfl, -⟩, hdigits⟩
  · exact ⟨_, _, rfl, rfl⟩
  · exact ⟨c, cs, rfl, hdigits c List.mem_cons_self⟩

/-- A numeral that a document can hold. -/
structure Numeral.Proper (n : Numeral) : Prop where
  whole : IsWhole n.whole
  fraction : ∀ c ∈ n.fraction, c.isDigit = true

theorem wholeFrom_toDigits (n : Nat) : wholeFrom 0 (Nat.toDigits 10 n) = n := by
  have h : Nat.ofDigitChars 10 (Nat.toDigits 10 n) 0 = n := Nat.ofDigitChars_ten_toDigits
  rw [Nat.ofDigitChars_eq_foldl] at h
  simpa only [wholeFrom, digitValue, Nat.mul_comm 10] using h

/-! ## Digits of whole numbers -/

theorem isDigit_toDigits {n : Nat} {c : Char} (h : c ∈ Nat.toDigits 10 n) : c.isDigit = true :=
  Nat.isDigit_of_mem_toDigits (by decide) (by decide) h

/-- The digits of a positive number do not start with a zero. -/
theorem exists_toDigits_cons {n : Nat} (h : n ≠ 0) :
    ∃ c cs, Nat.toDigits 10 n = c :: cs ∧ c ≠ '0' := by
  induction n using Nat.strongRecOn with
  | ind n ih =>
    rcases Nat.lt_or_ge n 10 with hlt | hge
    · refine ⟨n.digitChar, [], Nat.toDigits_of_lt_base hlt, ?_⟩
      have hdigit : ∀ k < 10, k ≠ 0 → k.digitChar ≠ '0' := by decide
      exact hdigit n hlt h
    · obtain ⟨c, cs, hcs, hc⟩ := ih (n / 10) (by omega) (by omega)
      rw [Nat.toDigits_of_base_le (by decide) hge, hcs]
      exact ⟨c, cs ++ [(n % 10).digitChar], by simp, hc⟩

theorem isWhole_toDigits (n : Nat) : IsWhole (Nat.toDigits 10 n) := by
  by_cases h : n = 0
  · exact .inl (by rw [h, Nat.toDigits_zero])
  · exact .inr ⟨exists_toDigits_cons h, fun _ hc => isDigit_toDigits hc⟩

theorem Numeral.ofInt_proper (i : Int) : (Numeral.ofInt i).Proper :=
  ⟨isWhole_toDigits _, fun _ hc => absurd hc List.not_mem_nil⟩

/-! ## Digits of shortest decimals -/

theorem Digits.normal_ne_zero {exponent : Int} {fuel n : Nat} (h : n ≠ 0) :
    (Digits.normal exponent fuel n).digits ≠ 0 := by
  induction fuel generalizing exponent n with
  | zero => exact h
  | succ fuel ih =>
    unfold Digits.normal
    split
    · rename_i hzero
      exact ih (by omega)
    · exact h

theorem Scaled.not_holds_zero {s : Scaled} (h : 0 < s.low) : s.holds 0 = false := by
  unfold holds
  have hlow : s.low ≠ 0 := by omega
  cases s.inclusive <;> simp [hlow]

theorem Scaled.candidate?_ne_zero {s : Scaled} {tie : Tie} {n : Nat} (h : 0 < s.low)
    (hn : s.candidate? tie = some n) : n ≠ 0 := by
  rintro rfl
  unfold candidate? at hn
  dsimp only at hn
  cases hbelow : s.holds (s.value / s.denominator) with
  | false =>
    cases habove : s.holds (s.value / s.denominator + 1) <;> rw [hbelow, habove] at hn <;>
      simp at hn
  | true =>
    have hne : s.value / s.denominator ≠ 0 := by
      intro heq
      rw [heq, Scaled.not_holds_zero h] at hbelow
      cases hbelow
    cases habove : s.holds (s.value / s.denominator + 1) <;> rw [hbelow, habove] at hn
    · exact hne (Option.some.inj hn)
    · have heither : ∀ upper : Bool,
          (if upper then s.value / s.denominator + 1 else s.value / s.denominator) ≠ 0 := by
        intro upper
        cases upper
        · exact hne
        · exact Nat.succ_ne_zero _
      exact heither _ (Option.some.inj hn)

/-- A search that comes to no digits comes to no power of ten either. -/
theorem Scaled.search_exponent {s : Scaled} {tie : Tie} (h : 0 < s.low) {fuel count : Nat}
    (hzero : (s.search tie fuel count).digits = 0) : (s.search tie fuel count).exponent = 0 := by
  induction fuel generalizing count with
  | zero => rfl
  | succ fuel ih =>
    unfold search at hzero ⊢
    dsimp only at hzero ⊢
    cases hc : (s.inUnits (s.magnitude - count + 1)).candidate? tie with
    | none =>
      rw [hc] at hzero
      exact ih hzero
    | some n =>
      rw [hc] at hzero
      have hlow : 0 < (s.inUnits (s.magnitude - count + 1)).low :=
        Nat.mul_pos h (Nat.pow_pos (by decide))
      exact absurd hzero (Digits.normal_ne_zero (Scaled.candidate?_ne_zero hlow hc))

theorem shortest_exponent {tie : Tie} {m : Nat} {q : Int} (hm : m ≠ 0)
    (hzero : (shortest tie m q).digits = 0) : (shortest tie m q).exponent = 0 := by
  refine Scaled.search_exponent ?_ hzero
  refine Nat.mul_pos ?_ (Nat.pow_pos (by decide))
  split <;> omega

/-! ## Numerals of doubles -/

theorem withPoint_proper {pointZero negative : Bool} {n : Nat} {point : Int}
    (hzero : n = 0 → point ≤ 1) :
    (withPoint pointZero negative (Nat.toDigits 10 n) point).Proper := by
  have hdigits : ∀ c ∈ Nat.toDigits 10 n, c.isDigit = true := fun c hc => isDigit_toDigits hc
  unfold withPoint
  split
  · refine ⟨.inl rfl, fun c hc => ?_⟩
    rcases List.mem_append.mp hc with hc | hc
    · rw [List.eq_of_mem_replicate hc]
      rfl
    · exact hdigits c hc
  · rename_i hpoint
    split
    · refine ⟨?_, fun c hc => ?_⟩
      · by_cases hn : n = 0
        · have hone : point = 1 := by have := hzero hn; omega
          subst hone hn
          exact .inl rfl
        · obtain ⟨c, cs, hcs, hc⟩ := exists_toDigits_cons hn
          refine .inr ⟨⟨c, _, by rw [hcs]; rfl, hc⟩, fun d hd => ?_⟩
          rcases List.mem_append.mp hd with hd | hd
          · exact hdigits d hd
          · rw [List.eq_of_mem_replicate hd]
            rfl
      · cases pointZero
        · cases hc
        · rw [List.mem_singleton.mp hc]
          rfl
    · rename_i hlength
      refine ⟨?_, fun c hc => hdigits c (List.mem_of_mem_drop hc)⟩
      obtain ⟨k, hk⟩ : ∃ k, point.toNat = k + 1 := ⟨point.toNat - 1, by omega⟩
      have hn : n ≠ 0 := by
        rintro rfl
        have := hzero rfl
        rw [Nat.toDigits_zero] at hlength
        simp at hlength
        omega
      obtain ⟨c, cs, hcs, hc⟩ := exists_toDigits_cons hn
      refine .inr ⟨⟨c, cs.take k, by rw [hcs, hk]; rfl, hc⟩, fun d hd => ?_⟩
      exact hdigits d (List.mem_of_mem_take hd)

theorem withExponent_proper (negative : Bool) (n : Nat) (magnitude : Int) :
    (withExponent negative (Nat.toDigits 10 n) magnitude).Proper := by
  refine ⟨?_, fun c hc => isDigit_toDigits (List.mem_of_mem_drop hc)⟩
  by_cases hn : n = 0
  · subst hn
    exact .inl rfl
  · obtain ⟨c, cs, hcs, hc⟩ := exists_toDigits_cons hn
    refine .inr ⟨⟨c, [], by simp [withExponent, hcs], hc⟩, fun d hd => ?_⟩
    exact isDigit_toDigits (List.mem_of_mem_take hd)

theorem Layout.finite_proper (l : Layout) (negative : Bool) (m : Nat) (q : Int) :
    (l.finite negative m q).Proper := by
  unfold finite
  split
  · refine ⟨.inl rfl, fun c hc => ?_⟩
    cases hp : l.pointZero <;> simp [hp] at hc
    rw [hc]
    rfl
  · rename_i hm
    dsimp only
    split
    · refine withPoint_proper fun hzero => ?_
      rw [shortest_exponent hm hzero, hzero, Nat.toDigits_zero]
      simp
    · exact withExponent_proper _ _ _

/-- **Every numeral that is stored can be held by a document.** -/
theorem stored?_proper {x : Float} {n : Numeral} (h : stored? x = some n) : n.Proper := by
  unfold stored? at h
  split at h <;> cases h
  · exact Numeral.ofInt_proper _
  · exact Layout.finite_proper _ _ _ _

/-- Whether the numeral that a double is stored as reads as an equal double. -/
def ReadsBack (x : Float) : Prop :=
  ∃ n, stored? x = some n ∧ ∃ y, n.toFloat? = some y ∧ same y x = true

theorem readsBack_iff {x : Float} :
    ((stored? x).bind Numeral.toFloat?).any (same · x) = true ↔ ReadsBack x := by
  rw [Option.any_eq_true]
  constructor
  · intro hread
    obtain ⟨y, hy, hsame⟩ := hread
    obtain ⟨n, hn, hy⟩ := Option.bind_eq_some_iff.mp hy
    exact ⟨n, hn, y, hy, hsame⟩
  · intro hreads
    obtain ⟨n, hn, y, hy, hsame⟩ := hreads
    exact ⟨y, Option.bind_eq_some_iff.mpr ⟨n, hn, hy⟩, hsame⟩

instance (x : Float) : Decidable (ReadsBack x) :=
  decidable_of_iff _ readsBack_iff

theorem stored?_eq_none_iff {x : Float} : stored? x = none ↔ isFinite x = false := by
  unfold stored? isFinite integer?
  cases binary x with
  | nan => simp
  | infinite negative => simp
  | finite negative m q =>
    dsimp only
    split <;> simp_all

theorem ReadsBack.isFinite {x : Float} (h : ReadsBack x) : isFinite x = true := by
  obtain ⟨n, hn, -⟩ := h
  rw [← Bool.not_eq_false, ← stored?_eq_none_iff, hn]
  simp

end Storyworld.Number
