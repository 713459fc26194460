import Storyworld.Proofs.Number.Reading
import Storyworld.Script.Comparison
import Storyworld.Script.Expression

/-! # Six comparisons and one order

Equality and order go by the types of two values, each by itself, but they never disagree. All six
comparisons say what the order alone decides (`Comparison.holds_eq`), and where there is none, one
of the values is a number that is undefined, or a text that writes no number is held against what is
no text (`Value.looseOrder?_eq_none_iff`).
-/

namespace Storyworld

open Script

namespace Value

/-! ## Numbers as they are compared -/

/-- A number that is not a number. -/
def IsUndefined : Value → Prop
  | number x => Number.binary x = .nan
  | _ => False

/-- A text that writes no number. -/
def IsWord : Value → Prop
  | text s => (text s).toNumber? = none
  | _ => False

theorem isWord_iff (v : Value) : v.IsWord ↔ v.toNumber? = none := by
  cases v with
  | bool b | number x => exact iff_of_false id nofun
  | text s => rfl

/-- Only a number that is undefined is read as one. -/
theorem isUndefined_iff {v : Value} {x : Float} (h : v.toNumber? = some x) :
    v.IsUndefined ↔ ¬Number.IsNumber x := by
  cases v with
  | bool b =>
    obtain rfl := Option.some.inj h
    refine iff_of_false id (not_not_intro ?_)
    cases b with
    | false => exact Number.isNumber_ofScientific 0 true 1
    | true => exact Number.isNumber_ofScientific 10 true 1
  | number y =>
    obtain rfl := Option.some.inj h
    rw [Number.isNumber_iff, not_not]
    rfl
  | text s =>
    refine iff_of_false id (not_not_intro ?_)
    simp only [toNumber?] at h
    split at h
    · obtain rfl := Option.some.inj h
      exact Number.isNumber_ofScientific 0 true 1
    · unfold numberOf? at h
      dsimp only at h
      split at h
      · exact Number.isNumber_of_ofText? h
      · cases h

/-- Equality by numbers. -/
def numericEq (v w : Value) : Bool :=
  match v.toNumber?, w.toNumber? with
  | some x, some y => Number.same x y
  | _, _ => false

/-- Order by numbers. -/
def numericOrder? (v w : Value) : Option Ordering :=
  match v.toNumber?, w.toNumber? with
  | some x, some y => Number.order? x y
  | _, _ => none

theorem numericOrder?_swap (v w : Value) :
    w.numericOrder? v = (v.numericOrder? w).map Ordering.swap := by
  unfold numericOrder?
  cases v.toNumber? with
  | none => cases w.toNumber? <;> rfl
  | some x =>
    cases w.toNumber? with
    | none => rfl
    | some y => exact Number.order?_swap x y

theorem numericEq_iff (v w : Value) : v.numericEq w = true ↔ v.numericOrder? w = some .eq := by
  unfold numericEq numericOrder?
  cases v.toNumber? with
  | none => simp
  | some x =>
    cases w.toNumber? with
    | none => simp
    | some y => exact Number.same_iff_order? x y

theorem numericOrder?_eq_none_iff (v w : Value) : v.numericOrder? w = none ↔
    v.IsUndefined ∨ w.IsUndefined ∨ v.IsWord ∨ w.IsWord := by
  rw [isWord_iff, isWord_iff]
  unfold numericOrder?
  cases hv : v.toNumber? with
  | none => simp
  | some x =>
    cases hw : w.toNumber? with
    | none => simp
    | some y => simp [Number.order?_eq_none_iff, isUndefined_iff hv, isUndefined_iff hw]

/-! ## The order of any two values -/

/-- Two values of two types. -/
def Differ : Value → Value → Prop
  | bool _, bool _ | number _, number _ | text _, text _ => False
  | _, _ => True

section

variable {v w : Value} (h : Differ v w)

include h

theorem Differ.symm : Differ w v := by
  cases v <;> cases w <;> exact h

/-- Values of two types are compared as numbers. -/
theorem Differ.looseOrder? : v.looseOrder? w = v.numericOrder? w := by
  unfold Value.looseOrder? numericOrder?
  cases v <;> cases w <;> first | exact h.elim | rfl

theorem Differ.looseEq : v.looseEq w = v.numericEq w := by
  unfold Value.looseEq numericEq
  cases v <;> cases w <;> first | exact h.elim | rfl

theorem Differ.looseOrder?_swap : w.looseOrder? v = (v.looseOrder? w).map Ordering.swap := by
  rw [h.looseOrder?, h.symm.looseOrder?, numericOrder?_swap]

theorem Differ.looseEq_iff : v.looseEq w = true ↔ v.looseOrder? w = some .eq := by
  rw [h.looseOrder?, h.looseEq, numericEq_iff]

/-- Of two types, one at most is that of texts. -/
theorem Differ.looseOrder?_eq_none_iff : v.looseOrder? w = none ↔ v.IsUndefined ∨ w.IsUndefined ∨
    v.IsWord ∧ Expression.isText w = false ∨ w.IsWord ∧ Expression.isText v = false := by
  rw [h.looseOrder?, numericOrder?_eq_none_iff]
  cases v <;> cases w <;> simp_all [Expression.isText, IsWord, Differ]

end

theorem looseOrder?_swap (v w : Value) :
    w.looseOrder? v = (v.looseOrder? w).map Ordering.swap := by
  cases v with
  | bool a =>
    cases w with
    | bool b => exact congrArg some Std.OrientedCmp.eq_swap
    | number | text => exact Differ.looseOrder?_swap trivial
  | number x =>
    cases w with
    | number y => exact Number.order?_swap x y
    | bool | text => exact Differ.looseOrder?_swap trivial
  | text s =>
    cases w with
    | text t => exact congrArg some Std.OrientedCmp.eq_swap
    | bool | number => exact Differ.looseOrder?_swap trivial

theorem looseEq_iff (v w : Value) : v.looseEq w = true ↔ v.looseOrder? w = some .eq := by
  cases v with
  | bool a =>
    cases w with
    | bool b => simp [looseEq, looseOrder?]
    | number | text => exact Differ.looseEq_iff trivial
  | number x =>
    cases w with
    | number y => exact Number.same_iff_order? x y
    | bool | text => exact Differ.looseEq_iff trivial
  | text s =>
    cases w with
    | text t => simp [looseEq, looseOrder?]
    | bool | number => exact Differ.looseEq_iff trivial

theorem looseEq_comm (v w : Value) : v.looseEq w = w.looseEq v := by
  rw [Bool.eq_iff_iff, looseEq_iff, looseEq_iff, looseOrder?_swap v w]
  cases v.looseOrder? w with
  | none => simp
  | some o => cases o <;> decide

theorem looseOrder?_eq_none_iff (v w : Value) : v.looseOrder? w = none ↔
    v.IsUndefined ∨ w.IsUndefined ∨ v.IsWord ∧ Expression.isText w = false ∨
      w.IsWord ∧ Expression.isText v = false := by
  cases v with
  | bool a =>
    cases w with
    | bool b => simp [looseOrder?, IsUndefined, IsWord]
    | number | text => exact Differ.looseOrder?_eq_none_iff trivial
  | number x =>
    cases w with
    | number y =>
      simp [looseOrder?, Number.order?_eq_none_iff, IsWord, isUndefined_iff (v := .number x) rfl,
        isUndefined_iff (v := .number y) rfl]
    | bool | text => exact Differ.looseOrder?_eq_none_iff trivial
  | text s =>
    cases w with
    | text t => simp [looseOrder?, IsUndefined, Expression.isText]
    | bool | number => exact Differ.looseOrder?_eq_none_iff trivial

end Value

namespace Script.Comparison

/-- Whether a comparison holds of two values of an order, if there is any. -/
def admits : Comparison → Option Ordering → Bool
  | equal, o => o == some .eq
  | notEqual, o => o != some .eq
  | greater, o => o == some .gt
  | greaterOrEqual, o => o == some .gt || o == some .eq
  | less, o => o == some .lt
  | lessOrEqual, o => o == some .lt || o == some .eq

/-- **One order decides every comparison.** -/
theorem holds_eq (op : Comparison) (v w : Value) : op.holds v w = op.admits (v.looseOrder? w) := by
  have hequal : v.looseEq w = (v.looseOrder? w == some .eq) := by
    rw [Bool.eq_iff_iff, Value.looseEq_iff, beq_iff_eq]
  cases op with
  | equal => exact hequal
  | notEqual => exact congrArg not hequal
  | greater | greaterOrEqual | less | lessOrEqual => rfl

/-- **Comparisons of any two values are consistent**: equality is symmetric, the order of the values
the other way around is the reverse, and they are equal exactly if the order says so. What includes
equality holds as one of its parts does; of less, equal and greater one holds at most; and none does
only of a number that is not a number, or of a text that writes none and what is no text. -/
theorem holds_consistent (v w : Value) :
    v.looseEq w = w.looseEq v ∧
      w.looseOrder? v = (v.looseOrder? w).map Ordering.swap ∧
      (v.looseEq w = true ↔ v.looseOrder? w = some .eq) ∧
      (greaterOrEqual.holds v w = true ↔ greater.holds v w = true ∨ equal.holds v w = true) ∧
      (lessOrEqual.holds v w = true ↔ less.holds v w = true ∨ equal.holds v w = true) ∧
      (notEqual.holds v w = true ↔ ¬equal.holds v w = true) ∧
      ¬(less.holds v w = true ∧ equal.holds v w = true) ∧
      ¬(equal.holds v w = true ∧ greater.holds v w = true) ∧
      ¬(less.holds v w = true ∧ greater.holds v w = true) ∧
      (less.holds v w = false ∧ equal.holds v w = false ∧ greater.holds v w = false ↔
        v.IsUndefined ∨ w.IsUndefined ∨ v.IsWord ∧ Expression.isText w = false ∨
          w.IsWord ∧ Expression.isText v = false) := by
  refine ⟨v.looseEq_comm w, v.looseOrder?_swap w, v.looseEq_iff w, ?_⟩
  rw [← Value.looseOrder?_eq_none_iff]
  simp only [holds_eq]
  cases v.looseOrder? w with
  | none => decide
  | some o => cases o <;> decide

end Script.Comparison

end Storyworld
