import Storyworld.Proofs.Script.Dependence

/-! # Which parenthesis is blamed

Balanced tokens are said by a grammar, and what stands between a parenthesis and its partner is
balanced (`OpenedIn`, `ClosedIn`), so that tokens are balanced if nothing lacks a partner
(`balanced_iff`). The reordering judges parentheses as `unclosed` does, which only keeps those that
are open (`error?_convert`); what that comes to is said by partners (`allOpened_iff`,
`closedIn_iff`, `allClosed_iff`). Where it succeeds, the reordering loses and adds nothing
(`perm_of_convert`).
-/

namespace Storyworld.Script

variable {α ο : Type} {T : OperatorTable ο}

/-! ## Partners -/

/-- Tokens whose parentheses come in pairs, one inside or behind another. -/
inductive Balanced : List (Infix α ο) → Prop
  | nil : Balanced []
  | operand (a : α) {tokens : List (Infix α ο)} (rest : Balanced tokens) :
      Balanced (.operand a :: tokens)
  | operator (o : ο) {tokens : List (Infix α ο)} (rest : Balanced tokens) :
      Balanced (.operator o :: tokens)
  | group (opened closed : Span) {inner tokens : List (Infix α ο)} (within : Balanced inner)
      (rest : Balanced tokens) : Balanced (.opening opened :: inner ++ .closing closed :: tokens)

/-- A closing parenthesis behind the tokens has its partner among them. -/
def OpenedIn (tokens : List (Infix α ο)) : Prop :=
  ∃ before opened inner, tokens = before ++ .opening opened :: inner ∧ Balanced inner

/-- An opening parenthesis in front of the tokens has its partner among them. -/
def ClosedIn (tokens : List (Infix α ο)) : Prop :=
  ∃ inner closed after, tokens = inner ++ .closing closed :: after ∧ Balanced inner

/-- Every closing parenthesis has a partner. -/
def AllOpened (tokens : List (Infix α ο)) : Prop :=
  ∀ before span after, tokens = before ++ .closing span :: after → OpenedIn before

/-- Every opening parenthesis has a partner. -/
def AllClosed (tokens : List (Infix α ο)) : Prop :=
  ∀ before span after, tokens = before ++ .opening span :: after → ClosedIn after

/-- The parenthesis to blame: the first closing one without a partner, and if there is none, the
last opening one. -/
inductive Blamed (tokens : List (Infix α ο)) : Unbalanced → Prop
  | closing {before after : List (Infix α ο)} {span : Span}
      (here : tokens = before ++ .closing span :: after) (lone : ¬OpenedIn before)
      (first : AllOpened before) : Blamed tokens (.closing span)
  | opening {before after : List (Infix α ο)} {span : Span} (opened : AllOpened tokens)
      (here : tokens = before ++ .opening span :: after) (lone : ¬ClosedIn after)
      (last : AllClosed after) : Blamed tokens (.opening span)

theorem Balanced.append {first second : List (Infix α ο)} (h : Balanced first)
    (hsecond : Balanced second) : Balanced (first ++ second) := by
  induction h with
  | nil => exact hsecond
  | operand a _ ih => exact .operand a ih
  | operator o _ ih => exact .operator o ih
  | group opened closed within _ _ ih =>
    rw [List.append_assoc]
    exact .group opened closed within ih

/-! ## Parentheses that are open -/

/-- The parentheses that are open after tokens, the innermost first, or the first closing one that
finds none open. -/
def unclosed : List (Infix α ο) → List Span → Except Span (List Span)
  | [], spans => .ok spans
  | .operand _ :: tokens, spans => unclosed tokens spans
  | .operator _ :: tokens, spans => unclosed tokens spans
  | .opening span :: tokens, spans => unclosed tokens (span :: spans)
  | .closing span :: _, [] => .error span
  | .closing _ :: tokens, _ :: spans => unclosed tokens spans

theorem unclosed_append (first second : List (Infix α ο)) (spans : List Span) :
    unclosed (first ++ second) spans = unclosed first spans >>= unclosed second := by
  induction first generalizing spans with
  | nil => rfl
  | cons token first ih =>
    cases token with
    | operand | operator => exact ih spans
    | opening span => exact ih (span :: spans)
    | closing span =>
      cases spans with
      | nil => rfl
      | cons _ spans => exact ih spans

theorem exists_of_unclosed_append {first second : List (Infix α ο)} {spans spans' : List Span}
    (h : unclosed (first ++ second) spans = .ok spans') :
    ∃ between, unclosed first spans = .ok between ∧ unclosed second between = .ok spans' := by
  rw [unclosed_append] at h
  exact Except.bind_eq_ok h

/-- What is open outside makes no difference to tokens that close what they open. -/
theorem unclosed_frame {tokens : List (Infix α ο)} {spans spans' : List Span}
    (h : unclosed tokens spans = .ok spans') (outer : List Span) :
    unclosed tokens (spans ++ outer) = .ok (spans' ++ outer) := by
  induction tokens generalizing spans with
  | nil =>
    cases h
    rfl
  | cons token tokens ih =>
    cases token with
    | operand | operator => exact ih h
    | opening span => exact @ih (span :: spans) h
    | closing span =>
      cases spans with
      | nil => cases h
      | cons _ spans => exact ih h

theorem Balanced.unclosed_eq {tokens : List (Infix α ο)} (h : Balanced tokens)
    (spans : List Span) : unclosed tokens spans = .ok spans := by
  induction h generalizing spans with
  | nil => rfl
  | operand a _ ih => exact ih spans
  | operator o _ ih => exact ih spans
  | @group opened closed inner tokens _ _ ihinner ih =>
    rw [List.cons_append, unclosed, unclosed_append, ihinner]
    exact ih spans

/-- Tokens in which some parentheses stay open, the innermost first. What stands between two of them
is balanced. -/
inductive LeftOpen : List Span → List (Infix α ο) → Prop
  | balanced {tokens : List (Infix α ο)} (h : Balanced tokens) : LeftOpen [] tokens
  | opening {spans : List Span} {before inner : List (Infix α ο)} (span : Span)
      (outer : LeftOpen spans before) (within : Balanced inner) :
      LeftOpen (span :: spans) (before ++ .opening span :: inner)

theorem LeftOpen.append {spans : List Span} {tokens more : List (Infix α ο)}
    (h : LeftOpen spans tokens) (hmore : Balanced more) : LeftOpen spans (tokens ++ more) := by
  cases h with
  | balanced h => exact .balanced (h.append hmore)
  | opening span outer within =>
    rw [List.append_assoc]
    exact .opening span outer (within.append hmore)

/-- **Between parentheses that are open, all is balanced.** Said of what is left to read, behind
what was read before. -/
theorem LeftOpen.of_unclosed {before tokens : List (Infix α ο)} {spans spans' : List Span}
    (hbefore : LeftOpen spans before) (h : unclosed tokens spans = .ok spans') :
    LeftOpen spans' (before ++ tokens) := by
  induction tokens generalizing before spans with
  | nil =>
    cases h
    rwa [List.append_nil]
  | cons token tokens ih =>
    rw [List.append_cons]
    cases token with
    | operand a => exact ih (hbefore.append (.operand a .nil)) h
    | operator o => exact ih (hbefore.append (.operator o .nil)) h
    | opening span => exact ih (.opening span hbefore .nil) h
    | closing span =>
      cases hbefore with
      | balanced => cases h
      | opening opened outer within =>
        have hgroup := outer.append (.group opened span within .nil)
        rw [← List.append_assoc] at hgroup
        exact ih hgroup h

/-! ## Open parentheses by partners -/

theorem unclosed_eq_ok_nil_iff {tokens : List (Infix α ο)} :
    unclosed tokens [] = .ok [] ↔ Balanced tokens := by
  constructor
  · intro h
    have hopen : LeftOpen [] ([] ++ tokens) := LeftOpen.of_unclosed (.balanced .nil) h
    cases hopen with
    | balanced h => exact h
  · intro h
    exact h.unclosed_eq []

/-- Behind the innermost parenthesis that stays open, the tokens are balanced. -/
theorem exists_of_unclosed_eq_cons {tokens : List (Infix α ο)} {span : Span} {spans : List Span}
    (h : unclosed tokens [] = .ok (span :: spans)) :
    ∃ before inner, tokens = before ++ .opening span :: inner ∧ Balanced inner := by
  have hopen : LeftOpen (span :: spans) ([] ++ tokens) := LeftOpen.of_unclosed (.balanced .nil) h
  rw [List.nil_append] at hopen
  cases hopen with
  | opening span outer within => exact ⟨_, _, rfl, within⟩

theorem unclosed_opening {before after : List (Infix α ο)} {span : Span}
    {spans spans' : List Span} (hbefore : unclosed before [] = .ok spans)
    (hafter : unclosed after [] = .ok spans') :
    unclosed (before ++ .opening span :: after) [] = .ok (spans' ++ span :: spans) := by
  rw [unclosed_append, hbefore]
  exact unclosed_frame hafter (span :: spans)

/-- The first closing parenthesis that finds none open stands behind tokens that leave none open. -/
theorem unclosed_eq_error_iff {tokens : List (Infix α ο)} {spans : List Span} {span : Span} :
    unclosed tokens spans = .error span ↔ ∃ before after,
      tokens = before ++ .closing span :: after ∧ unclosed before spans = .ok [] := by
  constructor
  · intro h
    induction tokens generalizing spans with
    | nil => cases h
    | cons token tokens ih =>
      cases token with
      | operand a =>
        obtain ⟨before, after, rfl, hbefore⟩ := ih h
        exact ⟨.operand a :: before, after, rfl, hbefore⟩
      | operator o =>
        obtain ⟨before, after, rfl, hbefore⟩ := ih h
        exact ⟨.operator o :: before, after, rfl, hbefore⟩
      | opening opened =>
        obtain ⟨before, after, rfl, hbefore⟩ := @ih (opened :: spans) h
        exact ⟨.opening opened :: before, after, rfl, hbefore⟩
      | closing closed =>
        cases spans with
        | nil =>
          cases h
          exact ⟨[], tokens, rfl, rfl⟩
        | cons _ spans =>
          obtain ⟨before, after, rfl, hbefore⟩ := ih h
          exact ⟨.closing closed :: before, after, rfl, hbefore⟩
  · rintro ⟨before, after, rfl, hbefore⟩
    rw [unclosed_append, hbefore]
    rfl

theorem openedIn_iff {tokens : List (Infix α ο)} {spans : List Span}
    (h : unclosed tokens [] = .ok spans) : OpenedIn tokens ↔ spans ≠ [] := by
  constructor
  · rintro ⟨before, opened, inner, rfl, hinner⟩ rfl
    obtain ⟨spans, hbefore, -⟩ := exists_of_unclosed_append h
    rw [unclosed_opening hbefore (hinner.unclosed_eq [])] at h
    cases h
  · intro hspans
    obtain ⟨span, spans, rfl⟩ := List.exists_cons_of_ne_nil hspans
    obtain ⟨before, inner, rfl, hinner⟩ := exists_of_unclosed_eq_cons h
    exact ⟨before, span, inner, rfl, hinner⟩

/-- Alone, tokens that close a parenthesis in front of them have one that finds none open. -/
theorem closedIn_iff {tokens : List (Infix α ο)} :
    ClosedIn tokens ↔ ∃ span, unclosed tokens [] = .error span := by
  constructor
  · rintro ⟨inner, span, after, htokens, hinner⟩
    exact ⟨span, unclosed_eq_error_iff.mpr ⟨inner, after, htokens, hinner.unclosed_eq []⟩⟩
  · rintro ⟨span, h⟩
    obtain ⟨inner, after, htokens, hinner⟩ := unclosed_eq_error_iff.mp h
    exact ⟨inner, span, after, htokens, unclosed_eq_ok_nil_iff.mp hinner⟩

theorem not_closedIn_iff {tokens : List (Infix α ο)} :
    ¬ClosedIn tokens ↔ ∃ spans, unclosed tokens [] = .ok spans := by
  rw [closedIn_iff]
  cases unclosed tokens [] <;> simp

theorem allOpened_iff {tokens : List (Infix α ο)} :
    AllOpened tokens ↔ ∃ spans, unclosed tokens [] = .ok spans := by
  constructor
  · intro h
    cases hall : unclosed tokens [] with
    | ok spans => exact ⟨spans, rfl⟩
    | error span =>
      obtain ⟨before, after, htokens, hbefore⟩ := unclosed_eq_error_iff.mp hall
      exact absurd rfl ((openedIn_iff hbefore).mp (h before span after htokens))
  · rintro ⟨spans, h⟩ before span after rfl
    obtain ⟨spans', hbefore, hclosing⟩ := exists_of_unclosed_append h
    refine (openedIn_iff hbefore).mpr ?_
    rintro rfl
    cases hclosing

theorem allClosed_iff {tokens : List (Infix α ο)} {spans : List Span}
    (h : unclosed tokens [] = .ok spans) : AllClosed tokens ↔ spans = [] := by
  constructor
  · intro hclosed
    cases spans with
    | nil => rfl
    | cons span spans =>
      obtain ⟨before, inner, htokens, hinner⟩ := exists_of_unclosed_eq_cons h
      have hlone : ¬ClosedIn inner := not_closedIn_iff.mpr ⟨[], hinner.unclosed_eq []⟩
      exact absurd (hclosed before span inner htokens) hlone
  · rintro rfl before span after rfl
    -- a parenthesis that is never closed would be among those that are open in the end
    by_contra hlone
    obtain ⟨spans', hafter⟩ := not_closedIn_iff.mp hlone
    obtain ⟨spans, hbefore, -⟩ := exists_of_unclosed_append h
    rw [unclosed_opening hbefore hafter] at h
    simp at h

/-- **Tokens are balanced if and only if every parenthesis has a partner.** -/
theorem balanced_iff {tokens : List (Infix α ο)} :
    Balanced tokens ↔ AllOpened tokens ∧ AllClosed tokens := by
  rw [← unclosed_eq_ok_nil_iff, allOpened_iff]
  constructor
  · intro h
    exact ⟨⟨[], h⟩, (allClosed_iff h).mpr rfl⟩
  · rintro ⟨⟨spans, h⟩, hclosed⟩
    rw [h, (allClosed_iff h).mp hclosed]

/-! ## Where the reordering fails -/

section

variable {ε β γ : Type}

/-- The error of a result, if it is one. -/
def error? : Except ε β → Option ε
  | .error e => some e
  | .ok _ => none

theorem error?_map (f : β → γ) (r : Except ε β) : error? (r.map f) = error? r := by
  cases r <;> rfl

theorem error?_eq_some_iff {r : Except ε β} {e : ε} : error? r = some e ↔ r = .error e := by
  cases r <;> simp [error?]

theorem error?_eq_none_iff {r : Except ε β} : error? r = none ↔ ∃ b, r = .ok b := by
  cases r <;> simp [error?]

end

/-- What is to blame, where the parentheses are known that are open in the end. -/
def blame : Except Span (List Span) → Option Unbalanced
  | .error span => some (.closing span)
  | .ok spans => spans.head?.map .opening

namespace Pending

/-- The parentheses that wait for their partners, the innermost first. -/
def spans : List (Pending ο) → List Span
  | [] => []
  | .operator _ :: stack => spans stack
  | .opening span :: stack => span :: spans stack

theorem spans_append_operators (waiting : List ο) (stack : List (Pending ο)) :
    spans (waiting.map .operator ++ stack) = spans stack := by
  induction waiting with
  | nil => rfl
  | cons w waiting ih => exact ih

theorem spans_release (o : ο) (stack : List (Pending ο)) :
    spans (release T o stack).2 = spans stack := by
  have hspans := spans_append_operators (release T o stack).1 (release T o stack).2
  rw [append_release] at hspans
  exact hspans.symm

theorem spans_of_close_eq_none {stack : List (Pending ο)} (h : close stack = none) :
    spans stack = [] := by
  induction stack with
  | nil => rfl
  | cons top stack ih =>
    cases top with
    | opening span => cases h
    | operator o => exact ih (Option.map_eq_none_iff.mp h)

theorem spans_of_close_eq_some {stack rest : List (Pending ο)} {released : List ο}
    (h : close stack = some (released, rest)) : ∃ span, spans stack = span :: spans rest := by
  obtain ⟨span, rfl⟩ := close_eq_some h
  exact ⟨span, spans_append_operators released _⟩

theorem error?_finish (stack : List (Pending ο)) :
    error? (finish stack) = blame (.ok (spans stack)) := by
  induction stack with
  | nil => rfl
  | cons top stack ih =>
    cases top with
    | opening span => rfl
    | operator o => exact (error?_map _ _).trans ih

end Pending

open Pending

/-- **Operators have no say in which parenthesis is blamed.** -/
theorem error?_convert (tokens : List (Infix α ο)) (stack : List (Pending ο)) :
    error? (convert T tokens stack) = blame (unclosed tokens (spans stack)) := by
  induction tokens generalizing stack with
  | nil => exact (error?_map _ _).trans (error?_finish stack)
  | cons token tokens ih =>
    cases token with
    | operand a => exact (error?_map _ _).trans (ih stack)
    | operator o =>
      have hrest := ih (.operator o :: (release T o stack).2)
      rw [spans, spans_release] at hrest
      exact (error?_map _ _).trans hrest
    | opening span => exact ih (.opening span :: stack)
    | closing span =>
      rw [convert]
      cases hclose : close stack with
      | none =>
        rw [spans_of_close_eq_none hclose]
        rfl
      | some closed =>
        obtain ⟨released, rest⟩ := closed
        obtain ⟨opened, hspans⟩ := spans_of_close_eq_some hclose
        rw [hspans]
        exact (error?_map _ _).trans (ih rest)

theorem blame_eq_none_iff {tokens : List (Infix α ο)} :
    blame (unclosed tokens []) = none ↔ Balanced tokens := by
  rw [← unclosed_eq_ok_nil_iff]
  cases unclosed tokens [] with
  | error span => simp [blame]
  | ok spans => simp [blame]

theorem blame_eq_some_iff {tokens : List (Infix α ο)} {u : Unbalanced} :
    blame (unclosed tokens []) = some u ↔ Blamed tokens u := by
  constructor
  · intro h
    cases hall : unclosed tokens [] with
    | error span =>
      rw [hall] at h
      cases h
      obtain ⟨before, after, htokens, hbefore⟩ := unclosed_eq_error_iff.mp hall
      have hlone : ¬OpenedIn before := fun hopened => (openedIn_iff hbefore).mp hopened rfl
      exact .closing htokens hlone (allOpened_iff.mpr ⟨[], hbefore⟩)
    | ok spans =>
      have hopened : AllOpened tokens := allOpened_iff.mpr ⟨spans, hall⟩
      cases spans with
      | nil =>
        rw [hall] at h
        cases h
      | cons span spans =>
        rw [hall] at h
        cases h
        obtain ⟨before, inner, htokens, hinner⟩ := exists_of_unclosed_eq_cons hall
        have hclosed := hinner.unclosed_eq []
        exact .opening hopened htokens (not_closedIn_iff.mpr ⟨[], hclosed⟩)
          ((allClosed_iff hclosed).mpr rfl)
  · rintro (⟨htokens, hlone, hfirst⟩ | ⟨hopened, rfl, hlone, hlast⟩)
    · obtain ⟨spans, hbefore⟩ := allOpened_iff.mp hfirst
      obtain rfl : spans = [] := not_not.mp fun hspans => hlone ((openedIn_iff hbefore).mpr hspans)
      rw [unclosed_eq_error_iff.mpr ⟨_, _, htokens, hbefore⟩]
      rfl
    · obtain ⟨spans, hall⟩ := allOpened_iff.mp hopened
      obtain ⟨between, hbefore, -⟩ := exists_of_unclosed_append hall
      obtain ⟨inner, hafter⟩ := not_closedIn_iff.mp hlone
      rw [unclosed_opening hbefore hafter, (allClosed_iff hafter).mp hlast]
      rfl

/-! ## What the reordering keeps -/

/-- The step that a token becomes, unless it is a parenthesis. -/
def Infix.step? : Infix α ο → Option (Postfix α ο)
  | .operand a => some (.operand a)
  | .operator o => some (.operator o)
  | .opening _ | .closing _ => none

/-- The steps that waiting operators become. -/
def Pending.steps : List (Pending ο) → List (Postfix α ο)
  | [] => []
  | .operator o :: stack => .operator o :: steps stack
  | .opening _ :: stack => steps stack

theorem Pending.steps_append_operators (waiting : List ο) (stack : List (Pending ο)) :
    steps (α := α) (waiting.map .operator ++ stack) =
      waiting.map .operator ++ steps stack := by
  induction waiting with
  | nil => rfl
  | cons w waiting ih => exact congrArg (.operator w :: ·) ih

/-- **The reordering loses nothing and adds nothing.** -/
theorem perm_of_convert {tokens : List (Infix α ο)} {stack : List (Pending ο)}
    {program : List (Postfix α ο)} (h : convert T tokens stack = .ok program) :
    program.Perm (tokens.filterMap Infix.step? ++ steps stack) := by
  induction tokens generalizing stack program with
  | nil =>
    obtain ⟨released, hfinish, rfl⟩ := Except.map_eq_ok h
    have hsteps := steps_append_operators (α := α) released []
    rw [List.append_nil, ← finish_eq_ok hfinish] at hsteps
    rw [hsteps]
    simp [steps]
  | cons token tokens ih =>
    obtain ⟨out, stack', rest, hstep, hrest, rfl⟩ := convert_cons_eq_ok h
    have hkept := (ih hrest).append_left out
    cases hstep with
    | operand | opening => exact hkept
    | operator o released kept =>
      rw [steps_append_operators]
      -- the operator goes on waiting, and those that it releases have gone
      have hwaits := hkept.trans (List.perm_append_comm_assoc _ _ _)
      exact hwaits.trans ((List.perm_middle.append_left _).trans List.perm_middle)
    | closing span opened released kept =>
      rw [steps_append_operators]
      exact hkept.trans (List.perm_append_comm_assoc _ _ _)

/-- **The reordering loses nothing and judges parentheses exactly**, whatever the operators are and
wherever they stand. It succeeds if and only if the parentheses are balanced. The program then has
the operands in their order, every operator as often as it was written, and nothing else. Else the
parenthesis to blame is told by its place. -/
theorem toPostfix_exact (T : OperatorTable ο) (tokens : List (Infix α ο)) :
    ((∃ program, toPostfix T tokens = .ok program) ↔ Balanced tokens) ∧
    (∀ program, toPostfix T tokens = .ok program →
      operands program = tokens.filterMap Infix.operand? ∧
      program.Perm (tokens.filterMap Infix.step?)) ∧
    ∀ u, toPostfix T tokens = .error u ↔ Blamed tokens u := by
  have herror : error? (toPostfix T tokens) = blame (unclosed tokens []) := error?_convert tokens []
  refine ⟨?_, fun program h => ⟨operands_of_convert h, ?_⟩, fun u => ?_⟩
  · rw [← error?_eq_none_iff, herror, blame_eq_none_iff]
  · have hperm := perm_of_convert h
    rwa [steps, List.append_nil] at hperm
  · rw [← error?_eq_some_iff, herror, blame_eq_some_iff]

/-- Misplaced operators are kept. A closing parenthesis without a partner is blamed in front of a
later one, and an opening one in front of those that are closed. -/
theorem toPostfix_exact_misplaced :
    (∃ program, toPostfix Arithmetic.table [.operator .multiply, .opening ⟨1, 2⟩, .operand 1,
        .operand 2, .operator .negate, .closing ⟨5, 6⟩, .operator .add] = .ok program ∧
      operands program = [1, 2] ∧ program.Perm [.operator .multiply, .operand 1, .operand 2,
        .operator .negate, .operator .add]) ∧
    Blamed (α := Nat) (ο := Arithmetic) [.opening ⟨0, 1⟩, .closing ⟨1, 2⟩, .closing ⟨2, 3⟩,
      .opening ⟨3, 4⟩, .closing ⟨4, 5⟩, .closing ⟨5, 6⟩] (.closing ⟨2, 3⟩) ∧
    Blamed (α := Nat) [.opening ⟨0, 1⟩, .opening ⟨1, 2⟩, .operator Arithmetic.add, .opening ⟨3, 4⟩,
      .operand 1, .closing ⟨5, 6⟩] (.opening ⟨1, 2⟩) := by
  have hprogram : toPostfix Arithmetic.table [.operator .multiply, .opening ⟨1, 2⟩, .operand 1,
      .operand 2, .operator .negate, .closing ⟨5, 6⟩, .operator .add] = .ok _ := rfl
  exact ⟨⟨_, hprogram, (toPostfix_exact _ _).2.1 _ hprogram⟩,
    ((toPostfix_exact Arithmetic.table _).2.2 _).mp rfl,
    ((toPostfix_exact Arithmetic.table _).2.2 _).mp rfl⟩

end Storyworld.Script
