import Storyworld.Proofs.Limits
import Storyworld.Proofs.World.Growth
import Storyworld.Terminal.Check

/-! # How a script fails

A script fails because it cannot be read (`Unread`), or because it can and then some test, some
computation or some write fails (`FailsIn`). Only reading finds fault with the text:
`FailsIn.isText`.
-/

namespace Storyworld.Script

open Terminal

/-- Whether an error is about the text of a script. -/
def ScriptError.isText : ScriptError → Bool
  | text .. => true
  | _ => false

/-! ## Programs -/

section

variable {α ο β ε : Type} {T : OperatorTable ο} {operand : α → Except ε β}
  {apply : ο → List β → Except ε β} {underflow : Except ε β} {P : ε → Prop}

/-- A program fails as its operands, its operators and its stack do. -/
theorem runOn_error {program : List (Postfix α ο)}
    (hoperand : ∀ a ∈ operands program, ∀ e, operand a = .error e → P e)
    (happly : ∀ o vs e, apply o vs = .error e → P e) (hunderflow : ∀ e, underflow = .error e → P e)
    {stack : List β} {e : ε} (h : runOn T operand apply underflow program stack = .error e) :
    P e := by
  induction program generalizing stack with
  | nil =>
    match stack, h with
    | [], h | _ :: _ :: _, h => exact hunderflow e h
  | cons step program ih =>
    cases step with
    | operand a =>
      rw [runOn] at h
      obtain ha | ⟨v, -, h⟩ := Except.bind_eq_error h
      · exact hoperand a List.mem_cons_self e ha
      · exact ih (fun b hb => hoperand b (List.mem_cons_of_mem a hb)) h
    | operator o =>
      rw [runOn] at h
      split at h
      · exact hunderflow e h
      · obtain ho | ⟨v, -, h⟩ := Except.bind_eq_error h
        · exact happly o _ e ho
        · exact ih hoperand h

end

theorem Condition.isText_of_evaluate {w : World} {c : Condition} {e : ScriptError}
    (h : c.evaluate w = .error e) : e.isText = false := by
  refine runOn_error (P := fun e => e.isText = false) ?_ ?_ ?_ h
  · intro a _ e he
    unfold Atom.evaluate at he
    split at he
    · cases he
      rfl
    · split at he <;> cases he
  · intro o vs e he
    unfold combine at he
    split at he <;> cases he
    rfl
  · rintro e ⟨⟩
    rfl

/-! An operator has no place to fail at. -/

theorem Expression.isEvaluation_of_numeric {v : Value} {e : ScriptError}
    (h : numeric v = .error e) : ∃ fault, e = .evaluation fault := by
  unfold numeric at h
  split at h <;> cases h
  exact ⟨_, rfl⟩

theorem Expression.isEvaluation_of_compute {op : Arithmetic} {a b : Float} {e : ScriptError}
    (h : compute op a b = .error e) : ∃ fault, e = .evaluation fault := by
  unfold compute at h
  split at h <;> first | cases h | (split at h <;> cases h; exact ⟨_, rfl⟩)

theorem Expression.isEvaluation_of_combine {op : Arithmetic} {vs : List Value} {e : ScriptError}
    (h : combine op vs = .error e) : ∃ fault, e = .evaluation fault := by
  unfold combine at h
  split at h
  · obtain hv | ⟨x, -, h⟩ := Except.bind_eq_error h
    · exact isEvaluation_of_numeric hv
    · cases h
  · split at h
    · cases h
    · obtain hv | ⟨a, -, h⟩ := Except.bind_eq_error h
      · exact isEvaluation_of_numeric hv
      obtain hw | ⟨b, -, h⟩ := Except.bind_eq_error h
      · exact isEvaluation_of_numeric hw
      obtain hx | ⟨x, -, h⟩ := Except.bind_eq_error h
      · exact isEvaluation_of_compute hx
      · cases h
  · cases h
    exact ⟨_, rfl⟩

/-- An expression fails at a name that it has and that cannot be resolved, or at no place. -/
theorem Expression.reference_or_evaluation {w : World} {x : Expression} {e : ScriptError}
    (h : x.evaluate w = .error e) :
    (∃ path span cause, (path, span) ∈ x.names ∧
      resolve w x.isBareName (.name path span) = .error (.reference path span cause) ∧
      e = .reference path span cause) ∨ ∃ fault, e = .evaluation fault := by
  refine runOn_error (P := fun e => (∃ path span cause, (path, span) ∈ x.names ∧
      resolve w x.isBareName (.name path span) = .error (.reference path span cause) ∧
      e = .reference path span cause) ∨ ∃ fault, e = .evaluation fault) ?_
    (fun _ _ _ he => .inr (isEvaluation_of_combine he)) ?_ h
  · intro o ho e he
    have hresolve := he
    unfold resolve at he
    split at he
    · cases he
    · split at he <;> cases he
      exact .inl ⟨_, _, _, List.mem_filterMap.mpr ⟨_, ho, rfl⟩, hresolve, rfl⟩
  · rintro e ⟨⟩
    exact .inr ⟨_, rfl⟩

theorem Expression.isText_of_evaluate {w : World} {x : Expression} {e : ScriptError}
    (h : x.evaluate w = .error e) : e.isText = false := by
  obtain ⟨path, span, cause, -, -, rfl⟩ | ⟨fault, rfl⟩ := reference_or_evaluation h <;> rfl

/-! ## Clauses -/

theorem rootOf_of_ofText? {source : String} {p : Path} (h : Path.ofText? source = some p) :
    rootOf source = p.root := by
  rw [rootOf, (Path.segments_of_ofText? h).1, List.head?_cons, Option.getD_some]

/-- What clauses may do whose targets are all of a kind: add variables of that kind, and fail, but
with no fault of a text. -/
def clauseLimits (named : String → Prop) : Limits World ScriptError where
  step := World.Grows named
  fault _ e := e.isText = false
  refl := .refl
  trans := .trans
  later _ h := h

variable {named : String → Prop}

theorem Assignment.perform_within {a : Assignment} (h : named (rootOf a.target)) (w : World) :
    Within (clauseLimits named) a.perform w := by
  refine .get_bind (.lift_bind (fun e he => Expression.isText_of_evaluate he) fun v _ => ⟨?_, ?_⟩)
  · exact Store.set_grows (fun p hp _ => rootOf_of_ofText? hp ▸ h) v w
  · intro e he
    rw [run_adapt] at he
    cases hset : (Store.set a.target v w).1 <;> rw [hset] at he <;> cases he
    rfl

theorem Assignment.performAll_within {clauses : List Assignment}
    (h : ∀ a ∈ clauses, named (rootOf a.target)) (w : World) :
    Within (clauseLimits named) (performAll clauses) w := by
  induction clauses generalizing w with
  | nil => exact .pure ()
  | cons a rest ih =>
    obtain ⟨ha, hrest⟩ := List.forall_mem_cons.mp h
    exact (a.perform_within ha w).bind fun _ w' _ _ => ih hrest w'

/-! ## Scripts that are read and fail -/

/-- A script cannot be read. -/
inductive Unread (e : ScriptError) : ScriptKind → String → Prop
  | condition {source : String} (h : Condition.parse source = .error e) : Unread e .condition source
  | assignments {source : String} (h : parseAssignments source = .error e) :
      Unread e .assignments source

/-- A script can be read and fails when it is run in a world. -/
inductive FailsIn (w : World) (e : ScriptError) : ScriptKind → String → Prop
  | condition {source : String} {c : Condition} (read : Condition.parse source = .ok c)
      (h : c.evaluate w = .error e) : FailsIn w e .condition source
  | assignments {source : String} {clauses : List Assignment}
      (read : parseAssignments source = .ok clauses)
      (h : (Assignment.performAll clauses w).1 = .error e) : FailsIn w e .assignments source

/-- **Only reading finds fault with a text.** -/
theorem FailsIn.isText {w : World} {e : ScriptError} {kind : ScriptKind} {source : String}
    (h : FailsIn w e kind source) : e.isText = false := by
  cases h with
  | condition read h => exact Condition.isText_of_evaluate h
  | @assignments _ clauses read h =>
    have hwithin : Within (clauseLimits fun _ => True) (Assignment.performAll clauses) w :=
      Assignment.performAll_within (fun _ _ => trivial) w
    exact hwithin.fault e h

end Storyworld.Script
