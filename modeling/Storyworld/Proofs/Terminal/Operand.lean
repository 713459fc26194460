import Mathlib.Data.List.Pairwise
import Storyworld.Proofs.Script.Pointing
import Storyworld.Proofs.Terminal.Check

/-! # What a check says reads as zero

A check warns of a name in an expression by the root of the name alone, but the name is read as a
whole. A root that the check does not know never comes into being, so where the name is a path, it
leads nowhere and reads as zero. A name may be no path, since its colons may stand anywhere behind
its first character: then the expression fails at it (`resolve_of_unknown`).
-/

namespace Storyworld

namespace Script

namespace Assignment

/-- Names at one place are names of one clause. -/
theorem eq_of_mem_names {source : String} {clauses : List Assignment}
    (parsed : parseAssignments source = .ok clauses) {a b : Assignment} (ha : a ∈ clauses)
    (hb : b ∈ clauses) {left right : String} {span : Span}
    (hleft : (left, span) ∈ a.expression.names) (hright : (right, span) ∈ b.expression.names) :
    a = b := by
  have points := points source
  obtain ⟨horder, hclauses⟩ := points.clauses clauses parsed
  by_contra hne
  have hpairs : clauses.Pairwise fun a b =>
      a.span.stop ≤ b.span.start ∨ b.span.stop ≤ a.span.start :=
    (List.pairwise_map.mp horder).imp Or.inl
  have hsymm : Std.Symm fun a b : Assignment =>
      a.span.stop ≤ b.span.start ∨ b.span.stop ≤ a.span.start := ⟨fun _ _ => Or.symm⟩
  have hapart := hpairs.forall ha hb hne
  obtain ⟨-, hinside⟩ := points.names clauses parsed a ha _ hleft
  obtain ⟨-, hinside'⟩ := points.names clauses parsed b hb _ hright
  have hlt : span.start < span.stop := by
    obtain ⟨clause, -, -, hclause⟩ := hclauses a ha
    obtain ⟨hstands, hne⟩ := standsAt_of_mem_names hclause hleft
    exact hstands.start_lt_stop hne
  dsimp only at hinside hinside'
  omega

end Assignment

end Script

namespace Terminal

open Script Story Story.Session

/-- The warning of a name that is not known and reads as zero. -/
def readsAsZero (path : String) (span : Span) : Diagnostic :=
  ⟨.warning, span, "`" ++ rootOf path ++ "` is not an entity or variable; it reads as 0",
    "unknown name"⟩

/-- The warning tells the place of the name, and its root. -/
theorem eq_of_readsAsZero {source : String} {known : List String} {path path' : String}
    {span span' : Span} (h : readsAsZero path span = unknownOperand source known path' span') :
    span = span' ∧ rootOf path = rootOf path' := by
  unfold unknownOperand at h
  split at h
  · have hlabel : "unknown name" = "quote this" := congrArg Diagnostic.label h
    exact absurd hlabel (by decide)
  · have hmessage := congrArg (fun d => d.message.toList) h
    simp only [readsAsZero, String.toList_append] at hmessage
    exact ⟨congrArg Diagnostic.span h,
      String.toList_inj.mp (List.append_cancel_left (List.append_cancel_right hmessage))⟩

/-- A name that is warned of is in a larger expression, and its root is not known. -/
theorem unknown_of_readsAsZero {known : List String} {script : ScriptSource}
    (hkind : script.kind = .assignments) {clauses : List Assignment}
    (parsed : parseAssignments script.source = .ok clauses) {a : Assignment} (ha : a ∈ clauses)
    {path : String} {span : Span} (hname : (path, span) ∈ a.expression.names)
    (flagged : readsAsZero path span ∈ diagnostics known script) :
    a.expression.isBareName = false ∧ rootOf path ∉ known := by
  simp only [diagnostics, hkind, parsed] at flagged
  obtain ⟨b, hb, flagged⟩ := List.mem_flatMap.mp flagged
  unfold clauseDiagnostics at flagged
  split at flagged
  · cases flagged
  · rename_i hbare
    obtain ⟨⟨path', span'⟩, hname', hsame⟩ := List.mem_map.mp flagged
    obtain ⟨hname', hunknown⟩ := List.mem_filter.mp hname'
    obtain ⟨rfl, hroot⟩ := eq_of_readsAsZero hsame.symm
    rw [← hroot] at hunknown
    obtain rfl := Assignment.eq_of_mem_names parsed ha hb hname hname'
    exact ⟨Bool.eq_false_iff.mpr hbare, of_decide_eq_true hunknown⟩

/-- What becomes of a name in a larger expression whose root no entity has. -/
theorem resolve_of_unknown {w : World} {path : String} (h : rootOf path ∉ w.ids) (span : Span) :
    Expression.resolve w false (.name path span) =
      if (Path.ofText? path).isSome then .ok (.number 0.0)
      else .error (.reference path span (.invalidPath path)) := by
  cases hp : Path.ofText? path with
  | none => simp [Expression.resolve, lookup_of_no_path hp]
  | some p => simp [Expression.resolve, lookup_of_unknown hp h]

/-- **What a check says reads as zero does so exactly if it is a path.** A name that a check warns of
is zero in every world that a story in that world comes to, and no evaluation fails at it, unless
the name is no path. -/
theorem resolve_of_readsAsZero {d : Document} {w : World} (loaded : World.load d = .ok w)
    {script : ScriptSource} (hkind : script.kind = .assignments) {clauses : List Assignment}
    (parsed : parseAssignments script.source = .ok clauses) {a : Assignment} (ha : a ∈ clauses)
    {path : String} {span : Span} (hname : (path, span) ∈ a.expression.names)
    (flagged : readsAsZero path span ∈
      diagnostics (knownNames w (ScriptSource.ofWorld w)) script)
    {s : Session} (h : s.Continues w) {w' : World} (before : w'.Evolves s.stage.world) :
    (Expression.resolve w' a.expression.isBareName (.name path span) = .ok (.number 0.0) ∧
      ∀ cause, a.expression.evaluate w' ≠ .error (.reference path span cause)) ↔
      (Path.ofText? path).isSome := by
  have hw : w.Governed (.ofList (ScriptSource.ofWorld w)) :=
    ⟨World.intact_of_load loaded, World.covered_ofWorld w⟩
  obtain ⟨hbare, hunknown⟩ := unknown_of_readsAsZero hkind parsed ha hname flagged
  have hid : rootOf path ∉ w'.ids := fun hid =>
    hunknown (mem_knownNames ((h.kept hw).ids _ (before.mem_ids hid)))
  have hresolve := resolve_of_unknown hid span
  rw [← hbare] at hresolve
  constructor
  · rintro ⟨hzero, -⟩
    by_contra hinvalid
    rw [hresolve, if_neg hinvalid] at hzero
    cases hzero
  · intro hvalid
    rw [if_pos hvalid] at hresolve
    refine ⟨hresolve, fun cause hfails => ?_⟩
    obtain ⟨_, _, _, -, hsame, heq⟩ | ⟨_, heq⟩ := Expression.reference_or_evaluation hfails
    · cases heq
      rw [hresolve] at hsame
      cases hsame
    · cases heq

/-- The only script of a room with a lamp. -/
def lampScript (script : String) : ScriptSource :=
  ⟨"item lamp onUse[0] set", .assignments, script⟩

theorem resolve_of_readsAsZero_lampRoom :
    let w := (lampRoom "x = ghost:mood + 1").world
    lampScript "x = ghost:mood + 1" ∈ ScriptSource.ofWorld w ∧
      ∃ a, parseAssignments "x = ghost:mood + 1" = .ok [a] ∧
        ∀ action, Expression.resolve ((new w {}).handle action).2.stage.world
          a.expression.isBareName (.name "ghost:mood" ⟨4, 14⟩) = .ok (.number 0.0) := by
  intro w
  have loaded : World.load (lampRoom "x = ghost:mood + 1") = .ok w := rfl
  have parsed : parseAssignments "x = ghost:mood + 1" = .ok _ := rfl
  have hknown : knownNames w (ScriptSource.ofWorld w) = ["cell", "lamp", "player", "x"] := rfl
  have flagged : readsAsZero "ghost:mood" ⟨4, 14⟩ ∈
      diagnostics (knownNames w (ScriptSource.ofWorld w)) (lampScript "x = ghost:mood + 1") := by
    rw [hknown]
    exact List.mem_singleton.mpr rfl
  refine ⟨List.mem_singleton.mpr rfl, _, parsed, fun action => ?_⟩
  have hzero := resolve_of_readsAsZero loaded rfl parsed List.mem_cons_self
    (List.mem_singleton.mpr rfl) flagged (.handle (.new {}) action) (.refl _)
  exact (hzero.mpr rfl).1

/-- Where the colon has nothing behind it, the name is warned of all the same, and what it is in
cannot be evaluated. -/
theorem not_zero_lampRoom :
    let w := (lampRoom "x = ghost: + 1").world
    World.load (lampRoom "x = ghost: + 1") = .ok w ∧
      lampScript "x = ghost: + 1" ∈ ScriptSource.ofWorld w ∧
      readsAsZero "ghost:" ⟨4, 10⟩ ∈
        diagnostics (knownNames w (ScriptSource.ofWorld w)) (lampScript "x = ghost: + 1") ∧
      ∃ a, parseAssignments "x = ghost: + 1" = .ok [a] ∧
        ("ghost:", ⟨4, 10⟩) ∈ a.expression.names ∧
        a.expression.evaluate (new w {}).stage.world =
          .error (.reference "ghost:" ⟨4, 10⟩ (.invalidPath "ghost:")) ∧
        ((new w {}).handle ⟨.use, .text "lamp"⟩).1 =
          .error (.script (.reference "ghost:" ⟨4, 10⟩ (.invalidPath "ghost:"))) := by
  intro w
  have parsed : parseAssignments "x = ghost: + 1" = .ok _ := rfl
  have hknown : knownNames w (ScriptSource.ofWorld w) = ["cell", "lamp", "player", "x"] := rfl
  rw [hknown]
  exact ⟨rfl, List.mem_singleton.mpr rfl, List.mem_singleton.mpr rfl, _, parsed,
    List.mem_singleton.mpr rfl, rfl, rfl⟩

end Terminal

end Storyworld
