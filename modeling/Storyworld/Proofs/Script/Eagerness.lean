import Storyworld.Proofs.Script.Fault
import Storyworld.Proofs.Script.Junction

/-! # Every test of a condition is made

Operators that do not fail leave the failures to their operands, and look at all of them from left to
right (`Tree.eval_failsAlike`). So a condition fails exactly if one of its tests does, and as the
first of them (`evaluate_eager`). The first is the first of the source too, for the tests are the
runs of text that the source was cut into, in order (`Condition.mapM_runs`, `Scans.inOrder`).
-/

namespace Storyworld.Script

/-! ## The first failure -/

section

variable {α β γ ε ο : Type} {T : OperatorTable ο}

/-- Both results are values, or both are the same error. -/
inductive FailsAlike : Except ε β → Except ε γ → Prop
  | ok (v : β) (w : γ) : FailsAlike (.ok v) (.ok w)
  | error (e : ε) : FailsAlike (.error e) (.error e)

namespace FailsAlike

variable {x : Except ε β} {y : Except ε γ}

theorem error_iff (h : FailsAlike x y) {e : ε} : x = .error e ↔ y = .error e := by
  cases h with
  | ok v w => exact ⟨nofun, nofun⟩
  | error e' => simp

/-- What never fails may follow on either side. -/
theorem bind {ζ η : Type} (h : FailsAlike x y) {f : β → Except ε ζ} {g : γ → Except ε η}
    (hfg : ∀ v w, FailsAlike (f v) (g w)) : FailsAlike (x >>= f) (y >>= g) := by
  cases h with
  | ok v w => exact hfg v w
  | error e => exact .error e

end FailsAlike

/-- A tree whose operators do not fail does as its operands do, one after the other. -/
theorem Tree.eval_failsAlike {value : α → Except ε β} {apply : ο → List β → Except ε β}
    (happly : ∀ o vs, vs.length = T.arity o → ∃ v, apply o vs = .ok v) {t : Tree α ο}
    (ht : t.Fits T) : FailsAlike (t.eval value apply) (t.operands.mapM value) := by
  induction t with
  | operand a =>
    rw [operands, List.mapM_cons]
    change FailsAlike (value a) _
    cases value a with
    | error e => exact .error e
    | ok v => exact .ok v [v]
  | unary o t ih =>
    obtain ⟨harity, ht⟩ := ht
    have hsame : t.operands.mapM value = t.operands.mapM value >>= pure := (bind_pure _).symm
    rw [operands, hsame]
    refine (ih ht).bind fun v vs => ?_
    obtain ⟨result, hresult⟩ := happly o [v] harity.symm
    rw [hresult]
    exact .ok result vs
  | binary o l r ihl ihr =>
    obtain ⟨harity, hl, hr⟩ := ht
    rw [operands, List.mapM_append]
    refine (ihl hl).bind fun v vs => (ihr hr).bind fun w ws => ?_
    obtain ⟨result, hresult⟩ := happly o [v, w] harity.symm
    rw [hresult]
    exact .ok result (vs ++ ws)

end

/-! ## Tokens in the order of the source -/

theorem byteSize_le_of_sublist {as bs : List Char} (h : as.Sublist bs) :
    byteSize as ≤ byteSize bs := by
  induction h with
  | slnil => exact Nat.le_refl 0
  | cons c _ ih =>
    rw [byteSize_cons]
    omega
  | cons_cons c _ ih =>
    rw [byteSize_cons, byteSize_cons]
    omega

/-- Places that do not overlap, each before the next. -/
def InOrder (spans : List Span) : Prop :=
  spans.Pairwise fun s t => s.stop ≤ t.start

namespace Condition

/-- The tokens of a source begin where it does and come one after the other. -/
theorem Scans.inOrder {start : Nat} {cs : List Char} {tokens : List (Spanned Token)}
    (h : Scans start cs tokens) :
    (∀ t ∈ tokens, start ≤ t.span.start) ∧ InOrder (tokens.map (·.span)) := by
  induction h with
  | nil start => exact ⟨List.forall_mem_nil _, .nil⟩
  | @blank start c cs tokens hblank after ih =>
    have hstart := Nat.le_add_right start c.utf8Size
    exact ⟨fun t ht => Nat.le_trans hstart (ih.1 t ht), ih.2⟩
  | @logic start token rest tokens starts after ih =>
    have hstart := Nat.le_add_right start (byteSize token.word)
    refine ⟨List.forall_mem_cons.mpr ⟨Nat.le_refl _, fun t ht => ?_⟩, .cons ?_ ih.2⟩
    · exact Nat.le_trans hstart (ih.1 t ht)
    · exact List.forall_mem_map.mpr ih.1
  | @run start cs rest tokens starts cut after ih =>
    have hstart := Nat.le_add_right start (byteSize (textRun none cs))
    have htrim := byteSize_le_of_sublist (Text.trimEnd_sublist (textRun none cs))
    refine ⟨List.forall_mem_cons.mpr ⟨Nat.le_refl _, fun t ht => ?_⟩, .cons ?_ ih.2⟩
    · exact Nat.le_trans hstart (ih.1 t ht)
    · refine List.forall_mem_map.mpr fun t ht => ?_
      exact Nat.le_trans (Nat.add_le_add_left htrim start) (ih.1 t ht)

/-- The run of text that a token is, and its place, if it is one. -/
def run? (t : Spanned Token) : Option (String × Span) :=
  match t.token with
  | .atom text => some (text, t.span)
  | _ => none

/-- The operands among the parts of tokens are read from the runs of text among the tokens. -/
theorem mapM_runs {tokens : List (Spanned Token)} {parts : List (Infix Atom Logic)}
    (h : tokens.mapM infixOf = .ok parts) :
    (tokens.filterMap run?).mapM (fun r => Atom.parse r.1 r.2) =
      .ok (parts.filterMap Infix.operand?) := by
  induction tokens generalizing parts with
  | nil =>
    cases h
    rfl
  | cons t tokens ih =>
    rw [List.mapM_cons] at h
    obtain ⟨part, hpart, h⟩ := Except.bind_eq_ok h
    obtain ⟨parts, hparts, h⟩ := Except.bind_eq_ok h
    cases h
    obtain ⟨token, span⟩ := t
    cases token with
    | atom text =>
      obtain ⟨a, hparse, rfl⟩ := Except.map_eq_ok hpart
      have hrun : run? ⟨.atom text, span⟩ = some (text, span) := rfl
      change Atom.parse text span = .ok a at hparse
      rw [List.filterMap_cons_some hrun, List.mapM_cons, hparse, ih hparts]
      rfl
    | opening | closing | and | or | not =>
      cases hpart
      have hrest := ih hparts
      exact hrest

/-- Tests that are read from runs of text stand where the runs do. -/
theorem spans_of_mapM {runs : List (String × Span)} {atoms : List Atom}
    (h : runs.mapM (fun r => Atom.parse r.1 r.2) = .ok atoms) :
    atoms.map (·.span) = runs.map (·.2) := by
  induction runs generalizing atoms with
  | nil =>
    cases h
    rfl
  | cons r runs ih =>
    rw [List.mapM_cons] at h
    obtain ⟨a, ha, h⟩ := Except.bind_eq_ok h
    obtain ⟨atoms, hatoms, h⟩ := Except.bind_eq_ok h
    cases h
    rw [List.map_cons, List.map_cons, Atom.span_of_parse ha, ih hatoms]

/-- The places of the runs of text are among those of the tokens, in the same order. -/
theorem spans_runs_sublist (tokens : List (Spanned Token)) :
    ((tokens.filterMap run?).map (·.2)).Sublist (tokens.map (·.span)) := by
  induction tokens with
  | nil => exact .slnil
  | cons t tokens ih =>
    obtain ⟨token, span⟩ := t
    cases token with
    | atom text => exact ih.cons_cons span
    | opening | closing | and | or | not => exact ih.cons span

/-! ## Conditions -/

theorem combine_eq_ok (malformed : ScriptError) (o : Logic) (vs : List Bool)
    (h : vs.length = Logic.table.arity o) : ∃ v, combine malformed o vs = .ok v := by
  match o, vs, h with
  | .not, [_], _ | .and, [_, _], _ | .or, [_, _], _ => exact ⟨_, rfl⟩

/-- A condition that was read does as its tests do, one after the other. -/
theorem evaluate_failsAlike {source : String} {c : Condition} (h : parse source = .ok c)
    (w : World) : FailsAlike (c.evaluate w) (c.atoms.mapM (Atom.evaluate w)) := by
  obtain ⟨tokens, parts, program, -, -, -, hformed, rfl⟩ := parse_eq_ok_iff.mp h
  obtain ⟨tree, htree, rfl⟩ := (isWellFormed_iff Logic.table_graded).mp hformed
  rw [evaluate, run_program _ _ _ htree, atoms, tree.operands_program]
  exact tree.eval_failsAlike (combine_eq_ok _) htree

theorem isReference_of_evaluate {w : World} {a : Atom} {e : ScriptError}
    (h : a.evaluate w = .error e) : ∃ cause, e = .reference a.path a.span cause := by
  unfold Atom.evaluate at h
  split at h
  · cases h
    exact ⟨_, rfl⟩
  · split at h <;> cases h

/-- **Every test of a condition is made, and the first that fails is what the condition fails with**,
in every world and whatever operators and parentheses stand around the tests. The tests are the runs
of text of the source, in their order. Nothing else makes a condition fail. -/
theorem evaluate_eager {source : String} {c : Condition} (h : parse source = .ok c) :
    (∃ tokens, scan source = .ok tokens ∧ InOrder (tokens.map (·.span)) ∧
      (tokens.filterMap run?).mapM (fun r => Atom.parse r.1 r.2) = .ok c.atoms ∧
      InOrder (c.atoms.map (·.span))) ∧
    ∀ w, (∀ e, c.evaluate w = .error e ↔ ∃ before a after, c.atoms = before ++ a :: after ∧
        (∀ b ∈ before, ∃ v, b.evaluate w = .ok v) ∧ a.evaluate w = .error e) ∧
      ((∃ e, c.evaluate w = .error e) ↔ ∃ a ∈ c.atoms, ∃ e, a.evaluate w = .error e) ∧
      ∀ fault, c.evaluate w ≠ .error (.evaluation fault) := by
  have hfirst : ∀ w e, c.evaluate w = .error e ↔ c.atoms.mapM (Atom.evaluate w) = .error e :=
    fun w e => (evaluate_failsAlike h w).error_iff
  refine ⟨?_, fun w =>
    ⟨fun e => (hfirst w e).trans Except.mapM_eq_error_iff, ?_, fun fault hfault => ?_⟩⟩
  · obtain ⟨tokens, parts, program, hscan, hparts, hprogram, -, rfl⟩ := parse_eq_ok_iff.mp h
    have hruns := mapM_runs hparts
    rw [← operands_of_convert hprogram] at hruns
    have horder := (scan_eq_ok_iff.mp hscan).inOrder.2
    refine ⟨tokens, hscan, horder, hruns, ?_⟩
    rw [atoms, spans_of_mapM hruns]
    exact horder.sublist (spans_runs_sublist tokens)
  · simp only [hfirst]
    exact Except.exists_mapM_eq_error_iff
  · obtain ⟨before, a, after, -, -, ha⟩ := Except.mapM_eq_error_iff.mp ((hfirst w _).mp hfault)
    obtain ⟨cause, hcause⟩ := isReference_of_evaluate ha
    cases hcause

/-- The first test already decides, and still the second is made, and the third is never blamed. -/
theorem evaluate_eager_lampRoom :
    World.load (lampRoom "") = .ok (lampRoom "").world ∧
      ∃ c, parse "lamp:visible || (dark && !cold)" = .ok c ∧
        c.evaluate (lampRoom "").world =
          .error (.reference "dark" ⟨17, 21⟩ (.unknownPath "dark")) := by
  have hparse : parse "lamp:visible || (dark && !cold)" = .ok _ := rfl
  have hlamp : Atom.evaluate (lampRoom "").world ⟨"lamp:visible", none, ⟨0, 12⟩⟩ = .ok true := rfl
  refine ⟨rfl, _, hparse, (((evaluate_eager hparse).2 _).1 _).mpr
    ⟨[⟨"lamp:visible", none, ⟨0, 12⟩⟩], ⟨"dark", none, ⟨17, 21⟩⟩, [⟨"cold", none, ⟨26, 30⟩⟩], rfl, ?_,
      rfl⟩⟩
  exact List.forall_mem_singleton.mpr ⟨true, hlamp⟩

end Condition

end Storyworld.Script
