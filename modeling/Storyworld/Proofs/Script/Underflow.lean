import Mathlib.Logic.Relation
import Storyworld.Proofs.Script.Assignment
import Storyworld.Script.Postfix

/-! # Programs that never run out of values

Whether a program is well-formed is decided by counting, while a run looks at the stack before every
operator and at the end. `Machine.Step` is one step of a run, with the call that it makes, and
`Machine.Fails` a call that fails. The count and the number of values on the stack move together
(`Machine.Step.depth_eq`), so a machine whose count comes out at one goes on or has a failed call to
blame (`Machine.progress`), and a run that gives a value has never missed one
(`Machine.steps_of_run`).
-/

namespace Storyworld.Script

/-- What operands and operators do. Both may fail, and both may read and change a state. -/
structure Interpretation (α ο β σ ε : Type) where
  operand : α → ExceptT ε (StateM σ) β
  apply : ο → List β → ExceptT ε (StateM σ) β

variable {α ο β σ ε : Type} {T : OperatorTable ο} {I : Interpretation α ο β σ ε}

/-- No operand fails, and no operator on as many values as it takes. -/
structure Interpretation.Total (T : OperatorTable ο) (I : Interpretation α ο β σ ε) : Prop where
  operand : ∀ a s, ∃ v s', I.operand a s = (.ok v, s')
  apply : ∀ o vs s, vs.length = T.arity o → ∃ v s', I.apply o vs s = (.ok v, s')

/-! ## One step -/

/-- The call that a step makes with the values that it takes from a stack, and the values that it
leaves there. The value that was pushed last stands first on the stack and last in the call. -/
inductive Postfix.Calls (T : OperatorTable ο) (I : Interpretation α ο β σ ε) :
    Postfix α ο → List β → ExceptT ε (StateM σ) β → List β → Prop
  | operand (a : α) (stack : List β) : Calls T I (.operand a) stack (I.operand a) stack
  | operator {o : ο} {args : List β} (taken : args.length = T.arity o) (kept : List β) :
      Calls T I (.operator o) (args.reverse ++ kept) (I.apply o args) kept

namespace Postfix

variable {step : Postfix α ο} {stack kept : List β} {call : ExceptT ε (StateM σ) β}

theorem Calls.depth_eq (h : step.Calls T I stack call kept) (program : List (Postfix α ο)) :
    depthAfter T (step :: program) stack.length = depthAfter T program (kept.length + 1) := by
  cases h with
  | operand a => rfl
  | @operator o args taken =>
    have henough : ¬T.arity o + kept.length < T.arity o := by omega
    rw [List.length_append, List.length_reverse, taken, depthAfter, if_neg henough,
      Nat.add_sub_cancel_left]

theorem Calls.runOn_eq (h : step.Calls T I stack call kept) (underflow : ExceptT ε (StateM σ) β)
    (program : List (Postfix α ο)) :
    runOn T I.operand I.apply underflow (step :: program) stack =
      call >>= fun v => runOn T I.operand I.apply underflow program (v :: kept) := by
  cases h with
  | operand a => rfl
  | @operator o args taken =>
    have hlength : args.reverse.length = T.arity o := List.length_reverse.trans taken
    have henough : ¬(args.reverse ++ kept).length < T.arity o := by
      rw [List.length_append]
      omega
    rw [runOn, if_neg henough, List.take_left' hlength, List.drop_left' hlength,
      List.reverse_reverse]

/-- A step makes a call, unless it takes more values than there are. -/
theorem exists_calls_or (T : OperatorTable ο) (I : Interpretation α ο β σ ε) (step : Postfix α ο)
    (stack : List β) : (∃ call kept, step.Calls T I stack call kept) ∨
      ∃ o, step = .operator o ∧ stack.length < T.arity o := by
  cases step with
  | operand a => exact .inl ⟨_, stack, .operand a stack⟩
  | operator o =>
    rcases Nat.lt_or_ge stack.length (T.arity o) with hshort | henough
    · exact .inr ⟨o, rfl, hshort⟩
    · have htaken : (stack.take (T.arity o)).reverse.length = T.arity o := by
        rw [List.length_reverse, List.length_take, Nat.min_eq_left henough]
      have hcalls := Calls.operator (I := I) htaken (stack.drop (T.arity o))
      rw [List.reverse_reverse, List.take_append_drop] at hcalls
      exact .inl ⟨_, _, hcalls⟩

theorem Calls.of_depthAfter {program : List (Postfix α ο)} {depth : Nat}
    (h : depthAfter T (step :: program) stack.length = some depth) :
    ∃ call kept, step.Calls T I stack call kept := by
  obtain hcalls | ⟨o, rfl, hshort⟩ := exists_calls_or T I step stack
  · exact hcalls
  · rw [depthAfter, if_pos hshort] at h
    cases h

theorem Calls.exists_value (hI : I.Total T) (h : step.Calls T I stack call kept) (s : σ) :
    ∃ v s', call s = (.ok v, s') := by
  cases h with
  | operand a => exact hI.operand a s
  | operator taken => exact hI.apply _ _ s taken

end Postfix

/-! ## Runs -/

/-- A run that is under way: the steps that are left, the values with the last one first, and the
state. -/
structure Machine (α ο β σ : Type) where
  program : List (Postfix α ο)
  stack : List β
  state : σ

namespace Machine

variable {M M' : Machine α ο β σ}

/-- The next step makes a call, which gives a value. -/
inductive Step (T : OperatorTable ο) (I : Interpretation α ο β σ ε) :
    Machine α ο β σ → Machine α ο β σ → Prop
  | call {step : Postfix α ο} {program : List (Postfix α ο)} {stack kept : List β}
      {call : ExceptT ε (StateM σ) β} {s s' : σ} {v : β} (calls : step.Calls T I stack call kept)
      (gives : call s = (.ok v, s')) : Step T I ⟨step :: program, stack, s⟩ ⟨program, v :: kept, s'⟩

/-- The next step makes a call, which fails and leaves a state. -/
inductive Fails (T : OperatorTable ο) (I : Interpretation α ο β σ ε) :
    Machine α ο β σ → ε → σ → Prop
  | call {step : Postfix α ο} {program : List (Postfix α ο)} {stack kept : List β}
      {call : ExceptT ε (StateM σ) β} {s s' : σ} {e : ε} (calls : step.Calls T I stack call kept)
      (fails : call s = (.error e, s')) : Fails T I ⟨step :: program, stack, s⟩ e s'

/-- Steps one after the other. -/
abbrev Steps (T : OperatorTable ο) (I : Interpretation α ο β σ ε) :
    Machine α ο β σ → Machine α ο β σ → Prop :=
  Relation.ReflTransGen (Step T I)

/-- The number of values at the end, if there are never too few. -/
def depth? (T : OperatorTable ο) (M : Machine α ο β σ) : Option Nat :=
  depthAfter T M.program M.stack.length

/-- What the rest of the run comes to. -/
def run (T : OperatorTable ο) (I : Interpretation α ο β σ ε) (underflow : ExceptT ε (StateM σ) β)
    (M : Machine α ο β σ) : Except ε β × σ :=
  runOn T I.operand I.apply underflow M.program M.stack M.state

/-- **The count and the stack move in step.** -/
theorem Step.depth_eq (h : Step T I M M') : M.depth? T = M'.depth? T := by
  obtain ⟨calls, -⟩ := h
  exact calls.depth_eq _

/-- What no step changes stays as it is. -/
theorem Steps.keeps {γ : Type} {f : Machine α ο β σ → γ} (h : Steps T I M M')
    (hf : ∀ {M M'}, Step T I M M' → f M = f M') : f M = f M' := by
  induction h with
  | refl => rfl
  | tail _ hstep ih => exact ih.trans (hf hstep)

theorem Steps.depth_eq (h : Steps T I M M') : M.depth? T = M'.depth? T :=
  h.keeps Step.depth_eq

theorem Step.run_eq (h : Step T I M M') (underflow : ExceptT ε (StateM σ) β) :
    M.run T I underflow = M'.run T I underflow := by
  obtain ⟨calls, gives⟩ := h
  unfold run
  rw [calls.runOn_eq, run_bind, gives]

theorem Steps.run_eq (h : Steps T I M M') (underflow : ExceptT ε (StateM σ) β) :
    M.run T I underflow = M'.run T I underflow :=
  h.keeps fun hstep => hstep.run_eq underflow

theorem Fails.run_eq {e : ε} {s' : σ} (h : Fails T I M e s')
    (underflow : ExceptT ε (StateM σ) β) : M.run T I underflow = (.error e, s') := by
  obtain ⟨calls, fails⟩ := h
  unfold run
  rw [calls.runOn_eq, run_bind, fails]

theorem Fails.not_total {e : ε} {s' : σ} (h : Fails T I M e s') : ¬I.Total T := by
  intro hI
  obtain ⟨calls, fails⟩ := h
  obtain ⟨v, s'', hgives⟩ := calls.exists_value hI _
  rw [fails] at hgives
  cases hgives

/-- **A machine is done, or its next call gives a value or fails**, where the count comes out at
one. -/
theorem progress (h : M.depth? T = some 1) :
    (∃ v, M = ⟨[], [v], M.state⟩) ∨ (∃ M', Step T I M M' ∧ M'.program = M.program.tail) ∨
      ∃ e s', Fails T I M e s' := by
  obtain ⟨program, stack, s⟩ := M
  cases program with
  | nil =>
    obtain ⟨v, rfl⟩ := List.length_eq_one_iff.mp (Option.some.inj h)
    exact .inl ⟨v, rfl⟩
  | cons step program =>
    obtain ⟨call, kept, hcalls⟩ := Postfix.Calls.of_depthAfter (I := I) h
    rcases hcall : call s with ⟨e | v, s'⟩
    · exact .inr (.inr ⟨e, s', .call hcalls hcall⟩)
    · exact .inr (.inl ⟨_, .call hcalls hcall, rfl⟩)

/-- The steps lead to one value, or to a call that fails. By induction on the steps that are left:
every call that gives a value leaves one less. -/
theorem ends (h : M.depth? T = some 1) :
    (∃ v s', Steps T I M ⟨[], [v], s'⟩) ∨ ∃ M' e s', Steps T I M M' ∧ Fails T I M' e s' := by
  induction hprogram : M.program generalizing M with
  | nil =>
    obtain ⟨v, hdone⟩ | ⟨M', ⟨-, -⟩, -⟩ | ⟨e, s', ⟨-, -⟩⟩ := progress (I := I) h
    · exact .inl ⟨v, M.state, hdone ▸ .refl⟩
    all_goals cases hprogram
  | cons step program ih =>
    obtain ⟨v, hdone⟩ | ⟨M', hstep, hrest⟩ | ⟨e, s', hfails⟩ := progress (I := I) h
    · rw [hdone] at hprogram
      cases hprogram
    · rw [hprogram] at hrest
      obtain ⟨v, s', hsteps⟩ | ⟨M'', e, s', hsteps, hfails⟩ := ih (hstep.depth_eq ▸ h) hrest
      · exact .inl ⟨v, s', .head hstep hsteps⟩
      · exact .inr ⟨M'', e, s', .head hstep hsteps, hfails⟩
    · exact .inr ⟨M, e, s', .refl, hfails⟩

/-- A run that gives a value has gone through all steps, and has left that value alone. -/
theorem steps_of_run {underflow : ε} {v : β} {s' : σ}
    (h : M.run T I (throw underflow) = (.ok v, s')) : Steps T I M ⟨[], [v], s'⟩ := by
  obtain ⟨program, stack, s⟩ := M
  induction program generalizing stack s with
  | nil =>
    match stack, h with
    | [_], h =>
      cases h
      exact .refl
    | [], h | _ :: _ :: _, h => cases h
  | cons step program ih =>
    obtain ⟨call, kept, hcalls⟩ | ⟨o, rfl, hshort⟩ := Postfix.exists_calls_or T I step stack
    · unfold run at h
      rw [hcalls.runOn_eq] at h
      obtain ⟨w, s₁, hcall, hrest⟩ := run_bind_eq_ok h
      exact .head (.call hcalls hcall) (ih _ _ hrest)
    · unfold run at h
      rw [runOn, if_pos hshort] at h
      cases h

end Machine

/-! ## Programs -/

/-- **The check is exact.** Where no call fails, a program gives a value if and only if it is
well-formed. Whatever calls do, a well-formed program gives the value that its steps leave, or fails
as a call that it makes; what is to happen where values are missing makes no difference. -/
theorem isWellFormed_exact (T : OperatorTable ο) (program : List (Postfix α ο))
    (I : Interpretation α ο β σ ε) (s : σ) :
    (I.Total T → ∀ underflow : ε, isWellFormed T program = true ↔
      ∃ v s', run T I.operand I.apply (throw underflow) program s = (.ok v, s')) ∧
    (isWellFormed T program = true →
      (∃ v s', Machine.Steps T I ⟨program, [], s⟩ ⟨[], [v], s'⟩ ∧
        ∀ underflow, run T I.operand I.apply underflow program s = (.ok v, s')) ∨
      ∃ M e s', Machine.Steps T I ⟨program, [], s⟩ M ∧ M.Fails T I e s' ∧
        ∀ underflow, run T I.operand I.apply underflow program s = (.error e, s')) := by
  have hends (h : isWellFormed T program = true) :=
    Machine.ends (M := ⟨program, [], s⟩) (I := I) (eq_of_beq h)
  refine ⟨fun hI underflow => ⟨fun h => ?_, ?_⟩, fun h => ?_⟩
  · obtain ⟨v, s', hsteps⟩ | ⟨M, e, s', -, hfails⟩ := hends h
    · exact ⟨v, s', hsteps.run_eq (throw underflow)⟩
    · exact absurd hI hfails.not_total
  · rintro ⟨v, s', hrun⟩
    have hsteps : Machine.Steps T I ⟨program, [], s⟩ ⟨[], [v], s'⟩ := Machine.steps_of_run hrun
    exact beq_iff_eq.mpr hsteps.depth_eq
  · obtain ⟨v, s', hsteps⟩ | ⟨M, e, s', hsteps, hfails⟩ := hends h
    · exact .inl ⟨v, s', hsteps, hsteps.run_eq⟩
    · exact .inr ⟨M, e, s', hsteps, hfails, fun underflow =>
        (hsteps.run_eq underflow).trans (hfails.run_eq underflow)⟩

/-- An operator takes as many values as it says and gives their number, while the state counts the
calls. Where the operator of three fails, that is told from a lack of values, though both have the
same text. -/
theorem isWellFormed_exact_counted :
    let T : OperatorTable Nat := ⟨fun _ => 0, id, fun _ => false⟩
    let count : Interpretation Nat Nat Nat Nat String :=
      ⟨fun a calls => (.ok a, calls + 1), fun _ vs calls => (.ok vs.length, calls + 1)⟩
    let broken : Interpretation Nat Nat Nat Nat String :=
      ⟨count.operand, fun o vs => if o = 3 then throw "too few" else count.apply o vs⟩
    let program : List (Postfix Nat Nat) := [.operand 2, .operator 0, .operand 3, .operator 3]
    count.Total T ∧ isWellFormed T program = true ∧
      (∃ v calls, run T count.operand count.apply (throw "too few") program 0 = (.ok v, calls)) ∧
      ∃ M e calls, Machine.Steps T broken ⟨program, [], 0⟩ M ∧ M.Fails T broken e calls ∧
        ∀ underflow, run T broken.operand broken.apply underflow program 0 = (.error e, calls) := by
  intro T count broken program
  have htotal : count.Total T :=
    ⟨fun a calls => ⟨a, calls + 1, rfl⟩, fun _ vs calls _ => ⟨vs.length, calls + 1, rfl⟩⟩
  have hformed : isWellFormed T program = true := rfl
  have hfails : run T broken.operand broken.apply (throw "") program 0 =
      (.error "too few", 3) := rfl
  have hchecked := (isWellFormed_exact T program count 0).1 htotal "too few"
  refine ⟨htotal, hformed, hchecked.mp hformed, ?_⟩
  obtain ⟨v, calls, -, hgives⟩ | hblamed := (isWellFormed_exact T program broken 0).2 hformed
  · rw [hgives (throw "")] at hfails
    cases hfails
  · exact hblamed

end Storyworld.Script
