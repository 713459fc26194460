import Mathlib.Data.List.TakeWhile
import Storyworld.Proofs.Script.Opacity
import Storyworld.Proofs.Script.Pointing
import Storyworld.Proofs.World.Barrier

/-! # Testing what was written

Assignments and conditions share their paths, but not the way they find them. An assignment writes
to whatever stands in front of its equals sign; a condition reads the same text as one test of that
path exactly if nothing in it belongs to the language of conditions (`Condition.Plain`). What was
written can be read at the end, unless a clause has put a scalar above it
(`Assignment.exists_lookup_iff`). The two are put together in `Assignment.testable`.
-/

namespace Storyworld.Script

/-! ## Texts that are one run -/

namespace Condition

/-- Every delimiter stands between a quote and its partner. A quote without a partner is a plain
character, and so are the quotes behind it. -/
inductive Unbroken : List Char → Prop
  | nil : Unbroken []
  | plain {c : Char} {cs : List Char} (hdelimiter : isDelimiter c = false)
      (hquote : isQuote c = false) (after : Unbroken cs) : Unbroken (c :: cs)
  | quoted {quote : Char} {body rest : List Char} (hquote : isQuote quote = true)
      (hbody : quote ∉ body) (after : Unbroken rest) :
      Unbroken (quote :: body ++ quote :: rest)
  | unpaired {quote : Char} {cs : List Char} (hquote : isQuote quote = true)
      (hpartner : quote ∉ cs) (hdelimiter : ∀ c ∈ cs, isDelimiter c = false) :
      Unbroken (quote :: cs)

theorem Unbroken.textRun {cs : List Char} (h : Unbroken cs) : textRun none cs = cs := by
  induction h with
  | nil => rfl
  | plain hdelimiter hquote _ ih =>
    rw [Condition.textRun, if_neg (by simp [hdelimiter]), if_neg (by simp [hquote]), ih]
  | quoted hquote hbody _ ih => rw [textRun_quoted hquote hbody, ih]
  | unpaired hquote hpartner hdelimiter =>
    rw [Condition.textRun, if_neg (by simp [isDelimiter_of_isQuote hquote]), if_pos hquote,
      if_neg hpartner, List.takeWhile_eq_self_iff.mpr fun c hc => by simp [hdelimiter c hc]]

theorem unbroken_of_textRun {cs : List Char} (h : textRun none cs = cs) : Unbroken cs := by
  -- a quoted part is passed at once, so the induction is on the length
  induction hlength : cs.length using Nat.strongRecOn generalizing cs with
  | ind n ih =>
    subst hlength
    cases cs with
    | nil => exact .nil
    | cons c cs =>
      cases hdelimiter : isDelimiter c with
      | true =>
        rw [textRun, if_pos hdelimiter] at h
        cases h
      | false =>
        cases hquote : isQuote c with
        | false =>
          rw [textRun, if_neg (by simp [hdelimiter]), if_neg (by simp [hquote])] at h
          exact .plain hdelimiter hquote (ih _ (Nat.lt_succ_self _) (List.cons.inj h).2 rfl)
        | true =>
          by_cases hpartner : c ∈ cs
          · obtain ⟨body, rest, rfl, hbody⟩ := List.eq_append_cons_of_mem hpartner
            have hrun := textRun_quoted hquote hbody rest
            rw [List.cons_append] at hrun
            rw [hrun] at h
            have hrest : textRun none rest = rest := by simpa using h
            refine .quoted hquote hbody (ih _ ?_ hrest rfl)
            simp only [List.length_cons, List.length_append]
            omega
          · rw [textRun, if_neg (by simp [hdelimiter]), if_pos hquote, if_neg hpartner] at h
            have hwhole := List.takeWhile_eq_self_iff.mp (List.cons.inj h).2
            exact .unpaired hquote hpartner fun d hd => by simpa using hwhole d hd

end Condition

namespace Atom

theorem divide?_eq_none_iff {cs : List Char} :
    divide? cs = none ↔ ∀ c ∈ cs, c ≠ '=' ∧ c ≠ '<' ∧ c ≠ '>' := by
  induction cs with
  | nil => simp [divide?]
  | cons c cs ih =>
    constructor
    · intro h
      rw [divide?] at h
      cases hoperator : operator? (c :: cs) with
      | some found =>
        rw [hoperator] at h
        cases h
      | none =>
        rw [hoperator] at h
        refine List.forall_mem_cons.mpr ⟨⟨?_, ?_, ?_⟩, ih.mp (Option.map_eq_none_iff.mp h)⟩ <;>
        · rintro rfl
          unfold operator? at hoperator
          split at hoperator <;> simp_all
    · intro h
      obtain ⟨⟨hequal, hless, hgreater⟩, hrest⟩ := List.forall_mem_cons.mp h
      have hnext : cs.head? ≠ some '=' := by
        intro hhead
        exact (hrest _ (List.mem_of_head? hhead)).1 rfl
      rw [divide?, operator?_eq_none hequal hless hgreater hnext, ih.mpr hrest]
      rfl

/-- A test without a comparison is a test of its text. -/
theorem path_of_parse {text : String} {s : Span} {a : Atom} (h : parse text s = .ok a)
    (hcomparison : a.comparison = none) : divide? text.toList = none ∧ text = a.path := by
  unfold parse at h
  cases hdivide : divide? text.toList with
  | none =>
    rw [hdivide] at h
    obtain ⟨_, -, h⟩ := Except.bind_eq_ok h
    cases h
    exact ⟨rfl, rfl⟩
  | some found =>
    obtain ⟨left, op, right⟩ := found
    rw [hdivide] at h
    dsimp only at h
    split at h
    · cases h
    split at h
    · cases h
    obtain ⟨_, -, h⟩ := Except.bind_eq_ok h
    cases h
    cases hcomparison

end Atom

/-! ## Texts that are one test -/

namespace Condition

/-- Nothing in a text belongs to the language of conditions. -/
structure Plain (p : String) : Prop where
  noComparison : ∀ c ∈ p.toList, c ≠ '=' ∧ c ≠ '<' ∧ c ≠ '>'
  noNegation : p.toList.head? ≠ some '!'
  unbroken : Unbroken p.toList

/-- The condition that tests one path. -/
def test (p : String) : Condition :=
  ⟨p, [.operand ⟨p, none, spanFrom 0 p.toList⟩]⟩

/-- A word is no longer than the source that it is found in. -/
theorem Scans.length_word_le {start : Nat} {cs : List Char} {tokens : List (Spanned Token)}
    (h : Scans start cs tokens) {t : Spanned Token} (ht : t ∈ tokens) :
    t.token.word.length ≤ cs.length := by
  obtain ⟨⟨before, after, hcs, -⟩, -⟩ := h.laid.standsAt (List.mem_map_of_mem (f := placed) ht)
  rw [hcs, List.append_assoc, List.length_append, List.length_append]
  exact Nat.le_trans (Nat.le_add_right _ _) (Nat.le_add_left _ _)

/-- What is found whole as one word is one run of text. -/
theorem Scans.run_of_whole {start : Nat} {source : List Char} {tokens : List (Spanned Token)}
    (h : Scans start source tokens) {t : Spanned Token} (ht : t ∈ tokens) {text : String}
    (htoken : t.token = .atom text) (hwhole : text.toList = source) :
    StartsRun source ∧ textRun none source = source := by
  -- behind something else, there is no room for the word
  have hlater {start : Nat} (word : List Char) {rest : List Char} {tokens : List (Spanned Token)}
      (hsource : word ++ rest = source) (hword : 0 < word.length)
      (after : Scans start rest tokens) : t ∉ tokens := by
    intro ht
    have hle := after.length_word_le ht
    have hlength := congrArg List.length hsource
    rw [htoken, Token.word, hwhole] at hle
    rw [List.length_append] at hlength
    omega
  cases h with
  | nil => cases ht
  | @blank _ c cs _ hc after => exact absurd ht (hlater [c] rfl Nat.one_pos after)
  | @logic _ token rest tokens starts after =>
    obtain rfl | ht := List.mem_cons.mp ht
    · cases htoken
      cases starts
    · exact absurd ht (hlater token.word rfl starts.length_pos after)
  | run starts cut after =>
    obtain rfl | ht := List.mem_cons.mp ht
    · have hword : Text.trimEnd (textRun none source) = source := by
        have htext := congrArg String.toList (Token.atom.inj htoken)
        rwa [String.toList_ofList, hwhole] at htext
      refine ⟨starts, (textRun_isPrefix none source).eq_of_length_le ?_⟩
      have hle := (Text.trimEnd_sublist (textRun none source)).length_le
      rwa [hword] at hle
    · exact absurd ht (hlater _ cut (length_textRun_pos starts) after)

theorem plain_of_run {p : String} (starts : StartsRun p.toList)
    (hrun : textRun none p.toList = p.toList) (hdivide : Atom.divide? p.toList = none) :
    Plain p := by
  have hsigns := Atom.divide?_eq_none_iff.mp hdivide
  refine ⟨hsigns, fun hhead => ?_, unbroken_of_textRun hrun⟩
  generalize p.toList = source at starts hsigns hhead
  cases starts with
  | @cons c cs _ _ hnot =>
    -- a negation that starts a run is part of a comparison
    have hequal := hnot (Option.some.inj hhead)
    exact (hsigns _ (List.mem_cons_of_mem c (List.mem_of_head? hequal))).1 rfl

section

variable {p : String} (hpath : (Path.ofText? p).isSome)
  (hblank : ∀ c ∈ p.toList, Text.isBlank c = false)

include hpath hblank

theorem parse_of_plain (h : Plain p) : parse p = .ok (test p) := by
  have hrun := h.unbroken.textRun
  have starts : StartsRun p.toList := by
    obtain ⟨c, cs, hcs⟩ : ∃ c cs, p.toList = c :: cs := by
      refine List.exists_cons_of_ne_nil fun hnil => ?_
      rw [String.toList_eq_nil_iff.mp hnil] at hpath
      cases hpath
    rw [hcs] at hrun
    have hnot := h.noNegation
    rw [hcs] at hnot ⊢
    refine .cons (hblank c (hcs ▸ List.mem_cons_self)) ?_ fun heq => absurd (heq ▸ rfl) hnot
    rw [← Bool.not_eq_true]
    intro hdelimiter
    rw [textRun, if_pos hdelimiter] at hrun
    cases hrun
  have hscan : scan p = .ok [⟨.atom p, spanFrom 0 p.toList⟩] := by
    refine scan_eq_ok_iff.mpr ?_
    have hscans := @Scans.run 0 _ [] [] starts ((List.append_nil _).trans hrun) (.nil _)
    rwa [hrun, Text.trimEnd_of_no_blank hblank, String.ofList_toList] at hscans
  have hatom : Atom.parse p (spanFrom 0 p.toList) = .ok ⟨p, none, spanFrom 0 p.toList⟩ := by
    have hclean : ¬p.toList.any Text.isBlank := by simpa using hblank
    have hread : ¬(Path.ofText? p).isNone := by simpa [Option.isSome_iff_ne_none] using hpath
    rw [Atom.parse, Atom.divide?_eq_none_iff.mpr h.noComparison]
    simp only [Atom.checkPath, if_neg hclean, if_neg hread]
    rfl
  exact parse_of_scan hscan hatom

/-- **A path is read as a test of itself** exactly if the text is plain. -/
theorem single_iff_plain : (∃ c a, parse p = .ok c ∧ c.program = [.operand a] ∧ a.path = p ∧
    a.comparison = none) ↔ Plain p := by
  constructor
  · rintro ⟨c, a, hparse, hprogram, hpath', hcomparison⟩
    have ha : a ∈ c.atoms := by
      rw [atoms, hprogram]
      exact List.mem_singleton.mpr rfl
    obtain ⟨tokens, hscan, t, ht, text, htoken, hatom⟩ := exists_token_of_mem_atoms hparse ha
    obtain ⟨hdivide, rfl⟩ := Atom.path_of_parse hatom hcomparison
    rw [hpath'] at htoken hdivide
    obtain ⟨starts, hrun⟩ := (scan_eq_ok_iff.mp hscan).run_of_whole ht htoken rfl
    exact plain_of_run starts hrun hdivide
  · intro h
    exact ⟨_, _, parse_of_plain hpath hblank h, rfl, rfl, rfl⟩

end

end Condition

/-- A path of identifiers is plain. -/
theorem IsPath.plain {p : String} (h : IsPath p) : Condition.Plain p where
  noComparison c hc := by
    obtain ⟨hequal, hless, hgreater, -⟩ := h.not_operator hc
    exact ⟨hequal, hless, hgreater⟩
  noNegation hhead := (h.not_operator (List.mem_of_head? hhead)).2.2.2 rfl
  unbroken := by
    have hrun := Condition.textRun_append (fun c hc => h.not_special hc) []
    rw [List.append_nil, Condition.textRun, List.append_nil] at hrun
    exact Condition.unbroken_of_textRun hrun

/-! ## Clauses -/

namespace Assignment

variable {w w' : World}

theorem exists_set_of_perform {a : Assignment} (h : a.perform w = (.ok (), w')) :
    ∃ v, Store.set a.target v w = (.ok (), w') := by
  obtain ⟨_, -, hperform⟩ | ⟨v, -, hperform⟩ := a.perform_cases w
  · cases hperform.symm.trans h
  · have hboth := hperform.symm.trans h
    have hset := Except.mapError_eq_ok (congrArg Prod.fst hboth)
    have hleft : (Store.set a.target v w).2 = w' := congrArg Prod.snd hboth
    exact ⟨v, Prod.ext hset hleft⟩

/-- **Clauses keep every scalar** that they do not write above. -/
theorem lookup_of_performAll {as : List Assignment} (h : performAll as w = (.ok (), w'))
    {other : String} {u : Value} (hother : w.lookup other = .ok u)
    (hnot : ∀ a ∈ as, ¬Path.Above a.target other) : ∃ u', w'.lookup other = .ok u' := by
  induction as generalizing w u with
  | nil =>
    cases h
    exact ⟨u, hother⟩
  | cons a as ih =>
    obtain ⟨hfirst, hrest⟩ := List.forall_mem_cons.mp hnot
    obtain ⟨_, w₁, hperform, hafter⟩ := run_bind_eq_ok h
    obtain ⟨v, hset⟩ := exists_set_of_perform hperform
    obtain ⟨u₁, hother₁⟩ := Store.lookup_set_of_not_above hset hother hfirst
    exact ih hafter hother₁ hrest

theorem barred_of_performAll {as : List Assignment} (h : performAll as w = (.ok (), w'))
    {other : String} (hbarred : w.Barred other) : w'.Barred other := by
  induction as generalizing w with
  | nil =>
    cases h
    exact hbarred
  | cons a as ih =>
    obtain ⟨_, w₁, hperform, hafter⟩ := run_bind_eq_ok h
    obtain ⟨v, hset⟩ := exists_set_of_perform hperform
    exact ih hafter (hbarred.set hset)

/-- The world right after a clause of several that succeed. -/
theorem exists_set_of_mem {as : List Assignment} (h : performAll as w = (.ok (), w'))
    {a : Assignment} (ha : a ∈ as) : ∃ v w₁ w₂ after, (∀ b ∈ after, b ∈ as) ∧
      Store.set a.target v w₁ = (.ok (), w₂) ∧ performAll after w₂ = (.ok (), w') := by
  obtain ⟨before, after, rfl⟩ := List.append_of_mem ha
  rw [performAll_append] at h
  obtain ⟨_, w₁, -, h⟩ := run_bind_eq_ok h
  obtain ⟨_, w₂, hperform, hafter⟩ := run_bind_eq_ok h
  obtain ⟨v, hset⟩ := exists_set_of_perform hperform
  exact ⟨v, w₁, w₂, after, fun b hb => by simp [hb], hset, hafter⟩

/-- **A target can be read at the end** exactly if no clause writes above it, before or behind. -/
theorem exists_lookup_iff {as : List Assignment} (h : performAll as w = (.ok (), w'))
    {a : Assignment} (ha : a ∈ as) :
    (∃ u, w'.lookup a.target = .ok u) ↔ ∀ b ∈ as, ¬Path.Above b.target a.target := by
  constructor
  · rintro ⟨u, hread⟩ b hb habove
    obtain ⟨v, w₁, w₂, after, -, hset, hafter⟩ := exists_set_of_mem h hb
    exact (barred_of_performAll hafter (World.barred_of_set hset habove)).lookup_ne_ok hread
  · intro hnot
    obtain ⟨v, w₁, w₂, after, hsub, hset, hafter⟩ := exists_set_of_mem h ha
    obtain ⟨p, hp⟩ := Store.exists_path_of_set hset
    have hread := Store.lookup_set_self hset hp
    exact lookup_of_performAll hafter hread fun b hb => hnot b (hsub b hb)

/-- **What was written can be tested.** A condition that is the target of a clause, and nothing else,
is one test of it exactly if the target is plain. Where all clauses have succeeded, the test comes to
a result, unless a clause has written above the target: then there is nothing to test any more. -/
theorem testable {source : String} {clauses : List Assignment}
    (parsed : parseAssignments source = .ok clauses) (h : performAll clauses w = (.ok (), w'))
    {a : Assignment} (ha : a ∈ clauses) :
    ((∃ c t, Condition.parse a.target = .ok c ∧ c.program = [.operand t] ∧ t.path = a.target ∧
      t.comparison = none) ↔ Condition.Plain a.target) ∧
    (Condition.Plain a.target →
      ((∀ b ∈ clauses, ¬Path.Above b.target a.target) →
        ∃ r, Condition.holds w' a.target = .ok r) ∧
      ((∃ b ∈ clauses, Path.Above b.target a.target) → ∃ span cause,
        Condition.holds w' a.target = .error (.reference a.target span cause))) := by
  obtain ⟨clause, -, -, hclause⟩ := ((points source).clauses clauses parsed).2 a ha
  obtain ⟨-, -, -, -, -, hblank, hpath⟩ := parse_eq_ok hclause
  refine ⟨Condition.single_iff_plain hpath hblank, fun hplain => ?_⟩
  have hholds := Condition.holds_of_parse (Condition.parse_of_plain hpath hblank hplain) w'
  have hreadable := exists_lookup_iff h ha
  rw [Atom.evaluate] at hholds
  dsimp only at hholds
  constructor
  · intro hnot
    obtain ⟨u, hread⟩ := hreadable.mpr hnot
    rw [hread] at hholds
    exact ⟨_, hholds⟩
  · rintro ⟨b, hb, habove⟩
    cases hread : w'.lookup a.target with
    | ok u => exact absurd habove (hreadable.mp ⟨u, hread⟩ b hb)
    | error cause =>
      rw [hread] at hholds
      exact ⟨_, cause, hholds⟩

theorem testable_lampRoom :
    let w := (lampRoom "").world
    ∃ clauses, parseAssignments "lamp:glow:hue = 1; lamp:glow:size = 2" = .ok clauses ∧
      (performAll clauses w).1 = .ok () ∧
      ∃ r, Condition.holds (performAll clauses w).2 "lamp:glow:hue" = .ok r := by
  intro w
  have parsed : parseAssignments "lamp:glow:hue = 1; lamp:glow:size = 2" = .ok _ := rfl
  obtain ⟨a, b, parsed, ha, hb⟩ : ∃ a b,
      parseAssignments "lamp:glow:hue = 1; lamp:glow:size = 2" = .ok [a, b] ∧
        a.target = "lamp:glow:hue" ∧ b.target = "lamp:glow:size" := ⟨_, _, parsed, rfl, rfl⟩
  have applied : (performAll [a, b] w).1 = .ok () := by
    have hrun : (assign "lamp:glow:hue = 1; lamp:glow:size = 2" w).1 = .ok () := by decide +kernel
    rw [assign, run_lift_bind, parsed] at hrun
    exact hrun
  have htested := (testable parsed (Prod.ext applied rfl) List.mem_cons_self).2
  have hplain : Condition.Plain "lamp:glow:hue" := IsPath.plain ⟨List.all_eq_true.mp rfl, rfl⟩
  rw [ha] at htested
  refine ⟨_, parsed, applied, (htested hplain).1 (List.forall_mem_cons.mpr
    ⟨?_, List.forall_mem_singleton.mpr ?_⟩)⟩
  · rw [ha]
    decide
  · rw [hb]
    decide

/-- A scalar that is written above a target takes its place, and a negation is no part of a path. -/
theorem not_testable_lampRoom :
    let w := (lampRoom "").world
    let overwritten := assign "lamp:a:b = 1; lamp:a = 2" w
    let negated := assign "!x = 1" w
    World.load (lampRoom "") = .ok w ∧
      ((parseAssignments "lamp:a:b = 1; lamp:a = 2").map (·.map target) =
          .ok ["lamp:a:b", "lamp:a"] ∧ overwritten.1 = .ok () ∧
        Condition.holds overwritten.2 "lamp:a:b" =
          .error (.reference "lamp:a:b" ⟨0, 8⟩ (.notContainer "lamp:a:b"))) ∧
      (parseAssignments "!x = 1").map (·.map target) = .ok ["!x"] ∧ negated.1 = .ok () ∧
        Condition.holds negated.2 "!x" = .error (.reference "x" ⟨1, 2⟩ (.unknownPath "x")) := by
  refine ⟨rfl, ?_⟩
  decide +kernel

end Assignment

end Storyworld.Script
