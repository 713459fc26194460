import Storyworld.Proofs.Script.Agreement
import Storyworld.Proofs.Script.Displacement

/-! # Scripts in sequence

What is read as an expression leaves a reader of quotes outside of them (`Expression.after_of_parse`),
although the two tell quotes apart by themselves. So a script that can be read ends outside of
quotes, and what follows a semicolon behind it is read as it is alone, further on
(`parseAssignments_join`), and carried out after it (`assignments_join`).
-/

namespace Storyworld.Script

open Condition (isQuote)

/-! ## Where a text leaves a reader of quotes -/

/-- Where neither quote is of a kind, no character of the kind is a quote. -/
theorem not_isQuote_of {P : Char → Prop} (hdouble : ¬P '"') (hsingle : ¬P '\'') {c : Char}
    (h : P c) : isQuote c = false := by
  rw [← Bool.not_eq_true]
  intro hquote
  obtain rfl | rfl := isQuote_iff.mp hquote
  · exact hdouble h
  · exact hsingle h

namespace Quoting

/-- Where a reader stands after a text. -/
def after (q : Quoting) (cs : List Char) : Quoting :=
  cs.foldl step q

theorem after_cons (q : Quoting) (c : Char) (cs : List Char) :
    q.after (c :: cs) = (q.step c).after cs := rfl

theorem after_append (q : Quoting) (as bs : List Char) :
    q.after (as ++ bs) = (q.after as).after bs :=
  List.foldl_append

/-- Without quotes, a reader outside of them stays there. -/
theorem after_outside {cs : List Char} (h : ∀ c ∈ cs, isQuote c = false) :
    outside.after cs = outside := by
  induction cs with
  | nil => rfl
  | cons c cs ih =>
    rw [after_cons, step_outside (h c List.mem_cons_self)]
    exact ih fun d hd => h d (List.mem_cons_of_mem c hd)

theorem after_blanks {cs : List Char} (h : cs.all Text.isBlank = true) :
    outside.after cs = outside := by
  refine after_outside fun c hc => ?_
  have hblank : Text.isBlank c = true := List.all_eq_true.mp h c hc
  exact not_isQuote_of (P := (Text.isBlank · = true)) (by decide) (by decide) hblank

/-- Blanks around a text make no difference. -/
theorem after_of_trim {cs : List Char} (h : outside.after (Text.trim cs) = outside) :
    outside.after cs = outside := by
  obtain ⟨before, behind, hcs, hbefore, hbehind⟩ := Text.exists_trim cs
  rw [hcs, after_append, after_append, after_blanks hbefore, h, after_blanks hbehind]

end Quoting

open Quoting

/-- A literal ends where its quote is closed. -/
theorem Quoted.after_closed {quote : Char} {body text : List Char} (h : Quoted quote body text)
    (hquote : isQuote quote = true) : (inside quote).after (body ++ [quote]) = outside := by
  induction h with
  | nil => obtain rfl | rfl := isQuote_iff.mp hquote <;> rfl
  | escaped c h ih => exact ih
  | @plain c body text hescape hother h ih =>
    rwa [List.cons_append, after_cons, Quoting.step, if_neg hescape, if_neg hother]

namespace Expression

/-! ## Expressions end outside of quotes -/

theorem not_isQuote_of_symbol? {c : Char} {t : Token} (h : symbol? c = some t) :
    isQuote c = false :=
  not_isQuote_of (P := (symbol? · = some t)) nofun nofun h

theorem not_isQuote_of_isNumberChar {c : Char} (h : isNumberChar c = true) : isQuote c = false :=
  not_isQuote_of (P := (isNumberChar · = true)) nofun nofun h

theorem isNumberChar_of_startsNumber {c : Char} {cs : List Char}
    (h : startsNumber (c :: cs) = true) : isNumberChar c = true := by
  unfold startsNumber at h
  split at h
  · rename_i heq
    cases heq
    rfl
  · rename_i heq
    cases heq
    exact Bool.or_eq_true_iff.mpr (.inl h)
  · cases h

theorem not_isQuote_of_continuesName {c : Char} {cs : List Char}
    (h : continuesName (c :: cs) = true) : isQuote c = false :=
  not_isQuote_of (P := fun c => continuesName (c :: cs) = true) nofun nofun h

theorem continuesName_of_startsName {c : Char} (h : startsName c = true) (cs : List Char) :
    continuesName (c :: cs) = true := by
  have hminus : c ≠ '-' := by
    rintro rfl
    cases h
  have hchar : Text.isAlphabetic c = true ∨ c = '_' := by simpa [startsName] using h
  unfold continuesName
  split
  · rename_i heq
    cases heq
  · rename_i heq
    exact absurd (List.cons.inj heq).1 hminus
  · rename_i heq
    cases heq
    obtain hletter | rfl := hchar
    · simp [Text.isAlphanumeric, hletter]
    · simp

/-- A name is the front of its source, and has no quotes. -/
theorem nameRun_spec (cs : List Char) :
    nameRun cs ++ cs.drop (nameRun cs).length = cs ∧ ∀ c ∈ nameRun cs, isQuote c = false := by
  induction cs with
  | nil => exact ⟨rfl, List.forall_mem_nil _⟩
  | cons c cs ih =>
    rw [nameRun]
    split
    · rename_i hcontinues
      exact ⟨congrArg (c :: ·) ih.1,
        List.forall_mem_cons.mpr ⟨not_isQuote_of_continuesName hcontinues, ih.2⟩⟩
    · exact ⟨rfl, List.forall_mem_nil _⟩

/-- A token takes one character at least, and its quotes are closed. -/
theorem token_closed {start : Nat} {c : Char} {cs rest : List Char} {t : Token}
    (h : token start c cs = .ok (t, rest)) :
    ∃ word, cs = word ++ rest ∧ outside.after (c :: word) = outside := by
  unfold token at h
  split at h
  · rename_i hsymbol
    cases h
    exact ⟨[], rfl, step_outside (not_isQuote_of_symbol? hsymbol)⟩
  split at h
  · rename_i hquote
    split at h
    · rename_i text rest' htext
      cases h
      obtain ⟨body, hbody, rfl⟩ := quotedText_eq_some htext
      refine ⟨body ++ [c], by simp, ?_⟩
      have hopens : outside.step c = inside c := if_pos hquote
      rw [after_cons, hopens]
      exact hbody.after_closed (isQuote_iff.mpr hquote)
    · cases h
  split at h
  · rename_i hnumber
    have hfirst := isNumberChar_of_startsNumber hnumber
    dsimp only at h
    split at h
    · cases h
      refine ⟨cs.takeWhile isNumberChar, ?_, after_outside fun d hd => ?_⟩
      · rw [List.dropWhile_cons_of_pos hfirst, List.takeWhile_append_dropWhile]
      · obtain rfl | hd := List.mem_cons.mp hd
        · exact not_isQuote_of_isNumberChar hfirst
        · exact not_isQuote_of_isNumberChar (List.all_eq_true.mp List.all_takeWhile d hd)
    · cases h
  split at h
  · rename_i hname
    have hfirst := continuesName_of_startsName hname cs
    have hrun : nameRun (c :: cs) = c :: nameRun cs := by rw [nameRun, if_pos hfirst]
    obtain ⟨hcs, hquotes⟩ := nameRun_spec cs
    cases h
    refine ⟨nameRun cs, ?_, after_outside ?_⟩
    · rw [hrun, List.length_cons, List.drop_succ_cons, hcs]
    · exact List.forall_mem_cons.mpr ⟨not_isQuote_of_continuesName hfirst, hquotes⟩
  · cases h

/-! ## Scanning as a relation -/

/-- The tokens of a source that begins at a byte. -/
inductive Scans : Nat → List Char → List (Spanned Token) → Prop
  | nil (start : Nat) : Scans start [] []
  | blank {start : Nat} {c : Char} {cs : List Char} {tokens : List (Spanned Token)}
      (hblank : Text.isBlank c = true) (after : Scans (start + c.utf8Size) cs tokens) :
      Scans start (c :: cs) tokens
  | token {start : Nat} {c : Char} {word rest : List Char} {t : Token}
      {tokens : List (Spanned Token)} (hblank : Text.isBlank c = false)
      (read : token start c (word ++ rest) = .ok (t, rest))
      (after : Scans (start + byteSize (c :: word)) rest tokens) :
      Scans start (c :: (word ++ rest)) (⟨t, spanFrom start (c :: word)⟩ :: tokens)

theorem scanFrom_token {start : Nat} {c : Char} {word rest : List Char} {t : Token}
    (hblank : Text.isBlank c = false) (read : token start c (word ++ rest) = .ok (t, rest))
    (fuel : Nat) : scanFrom (fuel + 1) start (c :: (word ++ rest)) =
      (scanFrom fuel (start + byteSize (c :: word)) rest).map
        (⟨t, spanFrom start (c :: word)⟩ :: ·) := by
  have hsize : byteSize (c :: (word ++ rest)) - byteSize rest = byteSize (c :: word) := by
    simp only [byteSize_cons, byteSize_append]
    omega
  rw [scanFrom, if_neg (by simp [hblank]), read]
  simp only [hsize]
  rfl

/-- **Scanning a source** within its bound comes to its tokens. -/
theorem scanFrom_eq_ok_iff {fuel start : Nat} {cs : List Char} {tokens : List (Spanned Token)}
    (hfuel : cs.length ≤ fuel) : scanFrom fuel start cs = .ok tokens ↔ Scans start cs tokens := by
  constructor
  · intro h
    induction fuel generalizing start cs tokens with
    | zero =>
      obtain rfl := List.length_eq_zero_iff.mp (Nat.le_zero.mp hfuel)
      cases h
      exact .nil start
    | succ fuel ih =>
      cases cs with
      | nil =>
        cases h
        exact .nil start
      | cons c cs =>
        rw [List.length_cons] at hfuel
        cases hblank : Text.isBlank c with
        | true =>
          rw [scanFrom, if_pos hblank] at h
          exact .blank hblank (ih (by omega) h)
        | false =>
          cases hread : token start c cs with
          | error e =>
            rw [scanFrom, if_neg (by simp [hblank]), hread] at h
            cases h
          | ok result =>
            obtain ⟨t, rest⟩ := result
            obtain ⟨word, rfl, -⟩ := token_closed hread
            rw [scanFrom_token hblank hread] at h
            obtain ⟨tokens', hrest, rfl⟩ := Except.map_eq_ok h
            rw [List.length_append] at hfuel
            exact .token hblank hread (ih (by omega) hrest)
  · intro h
    induction h generalizing fuel with
    | nil start => cases fuel <;> rfl
    | blank hblank after ih =>
      obtain ⟨fuel, rfl⟩ := Nat.exists_eq_add_one_of_ne_zero (Nat.ne_zero_of_lt hfuel)
      rw [scanFrom, if_pos hblank]
      exact ih (Nat.le_of_succ_le_succ hfuel)
    | token hblank read after ih =>
      obtain ⟨fuel, rfl⟩ := Nat.exists_eq_add_one_of_ne_zero (Nat.ne_zero_of_lt hfuel)
      rw [List.length_cons, List.length_append] at hfuel
      rw [scanFrom_token hblank read, ih (by omega)]
      rfl

theorem scan_eq_ok_iff {start : Nat} {cs : List Char} {tokens : List (Spanned Token)} :
    scan start cs = .ok tokens ↔ Scans start cs tokens :=
  scanFrom_eq_ok_iff (Nat.le_refl _)

/-- **What is scanned leaves a reader outside of quotes.** -/
theorem Scans.after {start : Nat} {cs : List Char} {tokens : List (Spanned Token)}
    (h : Scans start cs tokens) : outside.after cs = outside := by
  induction h with
  | nil => rfl
  | @blank _ c cs _ hblank _ ih =>
    have hfirst : outside.after [c] = outside := after_blanks (by simp [hblank])
    rw [← List.singleton_append, after_append, hfirst, ih]
  | @token _ c word rest _ _ _ read _ ih =>
    obtain ⟨word', hword, hclosed⟩ := token_closed read
    obtain rfl := List.append_cancel_right hword
    rw [← List.cons_append, after_append, hclosed, ih]

theorem after_of_parse {start : Nat} {source : List Char} {e : Expression}
    (h : parse start source = .ok e) : outside.after source = outside := by
  have hscan : ∃ tokens, scan start source = .ok tokens := by
    unfold parse at h
    dsimp only at h
    split at h
    · rename_i htrue
      obtain ⟨span, hword⟩ : ∃ span, scan start source = .ok [⟨.bool true, span⟩] :=
        scan_of_trim htrue
      exact ⟨_, hword⟩
    split at h
    · rename_i hfalse
      obtain ⟨span, hword⟩ : ∃ span, scan start source = .ok [⟨.bool false, span⟩] :=
        scan_of_trim hfalse
      exact ⟨_, hword⟩
    obtain ⟨tokens, hword, -⟩ := Except.bind_eq_ok h
    exact ⟨tokens, hword⟩
  obtain ⟨tokens, hscan⟩ := hscan
  exact (scan_eq_ok_iff.mp hscan).after

end Expression

/-! ## Scripts end outside of quotes -/

theorem divideOutside?_eq_some {sep : Char} {q : Quoting} {cs left right : List Char}
    (h : divideOutside? sep q cs = some (left, right)) :
    cs = left ++ sep :: right ∧ q.after left = outside := by
  induction cs generalizing q left with
  | nil => cases h
  | cons c cs ih =>
    rw [divideOutside?] at h
    split at h
    · rename_i hsep
      obtain ⟨rfl, rfl⟩ := hsep
      cases h
      exact ⟨rfl, rfl⟩
    · obtain ⟨⟨left', right'⟩, hrest, hpair⟩ := Option.map_eq_some_iff.mp h
      cases hpair
      obtain ⟨rfl, hleft⟩ := ih hrest
      exact ⟨rfl, hleft⟩

namespace Assignment

theorem after_of_parse {start : Nat} {clause : List Char} {a : Assignment}
    (h : parse start clause = .ok a) : outside.after clause = outside := by
  unfold parse at h
  split at h
  · cases h
  rename_i left right hdivide
  dsimp only at h
  split at h
  · cases h
  split at h
  · cases h
  obtain ⟨e, hright, -⟩ := Except.bind_eq_ok h
  obtain ⟨rfl, hleft⟩ := divideOutside?_eq_some hdivide
  rw [after_append, hleft, after_cons, step_outside (by decide)]
  exact Expression.after_of_parse hright

theorem after_of_parseAll {start : Nat} {pieces : List (List Char)} {as : List Assignment}
    (h : parseAll start pieces = .ok as) : ∀ piece ∈ pieces, outside.after piece = outside := by
  induction pieces generalizing start as with
  | nil => exact List.forall_mem_nil _
  | cons piece pieces ih =>
    simp only [parseAll] at h
    split at h
    · rename_i hempty
      refine List.forall_mem_cons.mpr ⟨after_of_trim ?_, ih h⟩
      rw [List.isEmpty_iff.mp hempty]
      rfl
    · obtain ⟨a, hfirst, h⟩ := Except.bind_eq_ok h
      obtain ⟨others, hrest, -⟩ := Except.bind_eq_ok h
      exact List.forall_mem_cons.mpr ⟨after_of_trim (after_of_parse hfirst), ih hrest⟩

end Assignment

/-! ## Splitting -/

section

variable {sep : Char} (hsep : isQuote sep = false)

theorem splitOutside_eq_cons (sep : Char) (q : Quoting) (cs : List Char) :
    ∃ piece pieces, splitOutside sep q cs = piece :: pieces := by
  cases cs with
  | nil => exact ⟨_, _, rfl⟩
  | cons c cs =>
    rw [splitOutside]
    split
    · exact ⟨_, _, rfl⟩
    · split <;> exact ⟨_, _, rfl⟩

include hsep

/-- A text of which every piece ends outside of quotes ends outside of them. -/
theorem after_of_splitOutside {q : Quoting} {cs piece : List Char} {pieces : List (List Char)}
    (hsplit : splitOutside sep q cs = piece :: pieces) (hpiece : q.after piece = outside)
    (hpieces : ∀ p ∈ pieces, outside.after p = outside) : q.after cs = outside := by
  induction cs generalizing q piece pieces with
  | nil =>
    cases hsplit
    exact hpiece
  | cons c cs ih =>
    rw [splitOutside] at hsplit
    split at hsplit
    · rename_i hc
      obtain ⟨rfl, rfl⟩ := hc
      obtain ⟨next, others, hrest⟩ := splitOutside_eq_cons c .outside cs
      rw [hrest] at hsplit
      cases hsplit
      obtain ⟨hnext, hothers⟩ := List.forall_mem_cons.mp hpieces
      rw [after_cons, step_outside hsep]
      exact ih hrest hnext hothers
    · obtain ⟨next, others, hrest⟩ := splitOutside_eq_cons sep (q.step c) cs
      rw [hrest] at hsplit
      cases hsplit
      exact ih hrest hpiece hpieces

/-- Behind a text that ends outside of quotes, a separator splits. -/
theorem splitOutside_join {q : Quoting} {as : List Char} (h : q.after as = outside)
    (bs : List Char) : splitOutside sep q (as ++ sep :: bs) =
      splitOutside sep q as ++ splitOutside sep .outside bs := by
  induction as generalizing q with
  | nil =>
    obtain rfl : q = outside := h
    simp [splitOutside]
  | cons c as ih =>
    rw [List.cons_append, splitOutside, splitOutside]
    split
    · rename_i hc
      obtain ⟨rfl, rfl⟩ := hc
      rw [after_cons, step_outside hsep] at h
      rw [ih h, List.cons_append]
    · obtain ⟨piece, pieces, hrest⟩ := splitOutside_eq_cons sep (q.step c) as
      rw [ih h, hrest]
      rfl

end

/-- Where a piece begins that follows others; one byte separates two of them. -/
def startBehind (start : Nat) (pieces : List (List Char)) : Nat :=
  pieces.foldl (fun start piece => start + byteSize piece + 1) start

/-- The pieces have all the bytes of their text but those of the separators. -/
theorem startBehind_splitOutside {sep : Char} (hsize : sep.utf8Size = 1) (q : Quoting)
    (cs : List Char) (start : Nat) :
    startBehind start (splitOutside sep q cs) = start + byteSize cs + 1 := by
  induction cs generalizing q start with
  | nil => rfl
  | cons c cs ih =>
    rw [splitOutside, byteSize_cons, ← Nat.add_assoc]
    split
    · rename_i hc
      obtain ⟨-, rfl⟩ := hc
      rw [hsize]
      exact ih outside (start + 1)
    · obtain ⟨piece, pieces, hrest⟩ := splitOutside_eq_cons sep (q.step c) cs
      have hbehind := ih (q.step c) (start + c.utf8Size)
      rw [hrest] at hbehind ⊢
      simpa only [startBehind, List.foldl_cons, byteSize_cons, Nat.add_assoc] using hbehind

/-! ## Scripts that follow -/

namespace Assignment

/-- Pieces behind others have their clauses behind those of the others. -/
theorem parseAll_append {start : Nat} {ps : List (List Char)} {as : List Assignment}
    (h : parseAll start ps = .ok as) (qs : List (List Char)) :
    parseAll start (ps ++ qs) = (parseAll (startBehind start ps) qs).map (as ++ ·) := by
  induction ps generalizing start as with
  | nil =>
    cases h
    change parseAll start qs = (parseAll start qs).map id
    cases parseAll start qs <;> rfl
  | cons piece ps ih =>
    simp only [parseAll, List.cons_append] at h ⊢
    split at h
    · rw [if_pos ‹_›]
      exact ih h
    · obtain ⟨a, hfirst, h⟩ := Except.bind_eq_ok h
      obtain ⟨others, hrest, hcons⟩ := Except.bind_eq_ok h
      cases hcons
      rw [if_neg ‹_›, hfirst, ih hrest]
      change _ = (parseAll (startBehind (start + byteSize piece + 1) ps) qs).map _
      cases parseAll (startBehind (start + byteSize piece + 1) ps) qs <;> rfl

theorem performAll_append (as bs : List Assignment) :
    performAll (as ++ bs) = performAll as >>= fun _ => performAll bs := by
  induction as with
  | nil => rw [List.nil_append, performAll, pure_bind]
  | cons a as ih => rw [List.cons_append, performAll, performAll, ih, bind_assoc]

end Assignment

/-- **Behind a script that can be read**, another one is read as it is alone, further on. -/
theorem parseAssignments_join {a : String} {as : List Assignment}
    (h : parseAssignments a = .ok as) (b : String) : parseAssignments (a ++ ";" ++ b) =
      (further (byteSize a.toList + 1) (List.map (Assignment.shift (byteSize a.toList + 1)))
        (parseAssignments b)).map (as ++ ·) := by
  have hends : outside.after a.toList = outside := by
    obtain ⟨piece, pieces, hsplit⟩ := splitOutside_eq_cons ';' .outside a.toList
    have hpieces := Assignment.after_of_parseAll h
    rw [hsplit] at hpieces
    obtain ⟨hpiece, hpieces⟩ := List.forall_mem_cons.mp hpieces
    exact after_of_splitOutside (by decide) hsplit hpiece hpieces
  have hjoined : (a ++ ";" ++ b).toList = a.toList ++ ';' :: b.toList := by simp
  rw [parseAssignments, hjoined, splitOutside_join (by decide) hends,
    Assignment.parseAll_append h, startBehind_splitOutside (by decide), Nat.add_assoc,
    Assignment.parseAll_add]
  rfl

/-- Scripts in a row, each behind the ones before it. -/
theorem parseAssignments_append {before after : List String} {as bs : List Assignment}
    (hne : before ≠ []) (hbefore : parseAssignments (";".intercalate before) = .ok as)
    (hafter : parseAssignments (";".intercalate after) = .ok bs) :
    parseAssignments (";".intercalate (before ++ after)) =
      .ok (as ++ bs.map (Assignment.shift (byteSize (";".intercalate before).toList + 1))) := by
  cases after with
  | nil =>
    cases hafter
    rw [List.append_nil, hbefore, List.map_nil, List.append_nil]
  | cons s after =>
    rw [String.intercalate_append_of_ne_nil hne (List.cons_ne_nil s after),
      parseAssignments_join hbefore, hafter]
    rfl

/-- Where each of them can be read, scripts in a row can be read. -/
theorem exists_parseAssignments {scripts : List String}
    (h : ∀ s ∈ scripts, ∃ as, parseAssignments s = .ok as) :
    ∃ as, parseAssignments (";".intercalate scripts) = .ok as := by
  induction scripts with
  | nil => exact ⟨_, rfl⟩
  | cons s scripts ih =>
    obtain ⟨hfirst, hrest⟩ := List.forall_mem_cons.mp h
    obtain ⟨as, has⟩ := hfirst
    obtain ⟨bs, hbs⟩ := ih hrest
    have hsingle : parseAssignments (";".intercalate [s]) = .ok as := by
      rwa [String.intercalate_singleton]
    exact ⟨_, parseAssignments_append (List.cons_ne_nil s []) hsingle hbs⟩

/-- **Scripts join.** Behind a script that can be read and a semicolon, another script can be read
exactly if it can be read alone. Its clauses come behind those of the first, and its errors are its
own, with all places further on by the first script and the semicolon. What is done to a world is
what the first script does and then, unless that fails, the second, which fails further on. -/
theorem assignments_join {a : String} {as : List Assignment} (h : parseAssignments a = .ok as)
    (b : String) :
    let n := byteSize a.toList + 1
    (∀ cs, parseAssignments (a ++ ";" ++ b) = .ok cs ↔
      ∃ bs, parseAssignments b = .ok bs ∧ cs = as ++ bs.map (Assignment.shift n)) ∧
    (∀ clause : Assignment, (clause.shift n).expression.names =
      clause.expression.names.map fun (path, span) => (path, span.shift n)) ∧
    (∀ e, parseAssignments (a ++ ";" ++ b) = .error e ↔
      ∃ fault, parseAssignments b = .error fault ∧ e = fault.shift n) ∧
    ∀ bs cs, parseAssignments b = .ok bs → parseAssignments (a ++ ";" ++ b) = .ok cs →
      Assignment.performAll cs = (do
        Assignment.performAll as
        (Assignment.performAll bs).adapt (ScriptError.shift n)) := by
  intro n
  have hnames (clause : Assignment) := Expression.names_shift (n := n) clause.expression
  have hjoin := parseAssignments_join h b
  cases hb : parseAssignments b with
  | error fault =>
    rw [hb] at hjoin
    replace hjoin : parseAssignments (a ++ ";" ++ b) = .error (fault.shift n) := hjoin
    exact ⟨by simp [hjoin], hnames, by simp [hjoin, eq_comm], nofun⟩
  | ok bs =>
    rw [hb] at hjoin
    replace hjoin : parseAssignments (a ++ ";" ++ b) =
      .ok (as ++ bs.map (Assignment.shift n)) := hjoin
    refine ⟨by simp [hjoin, eq_comm], hnames, by simp [hjoin], fun bs' cs hbs hcs => ?_⟩
    cases hbs
    rw [hjoin] at hcs
    cases hcs
    rw [Assignment.performAll_append, Assignment.performAll_shift]

/-- The semicolon of a literal joins nothing. -/
theorem assignments_join_semicolon :
    ∃ as bs, parseAssignments "x = 'a;b'" = .ok as ∧ parseAssignments "y = x" = .ok bs ∧
      parseAssignments "x = 'a;b';y = x" = .ok (as ++ bs.map (Assignment.shift 10)) ∧
      Assignment.performAll (as ++ bs.map (Assignment.shift 10)) = (do
        Assignment.performAll as
        (Assignment.performAll bs).adapt (ScriptError.shift 10)) := by
  have ha : parseAssignments "x = 'a;b'" = .ok _ := rfl
  have hb : parseAssignments "y = x" = .ok _ := rfl
  obtain ⟨hread, -, -, hrun⟩ := assignments_join ha "y = x"
  have hjoined := (hread _).mpr ⟨_, hb, rfl⟩
  exact ⟨_, _, ha, hb, hjoined, hrun _ _ hb hjoined⟩

/-- A reference of the second script fails where it stands in the joined one. -/
theorem assignments_join_ne :
    World.load (lampRoom "") = .ok (lampRoom "").world ∧
    ∃ as bs cs, parseAssignments "x = true" = .ok as ∧
      parseAssignments "y = player:name:x" = .ok bs ∧
      parseAssignments "x = true;y = player:name:x" = .ok cs ∧
      (Assignment.performAll cs (lampRoom "").world).1 =
        .error (.reference "player:name:x" ⟨13, 26⟩ (.notContainer "player:name:x")) ∧
      ((do Assignment.performAll as; Assignment.performAll bs) (lampRoom "").world).1 =
        .error (.reference "player:name:x" ⟨4, 17⟩ (.notContainer "player:name:x")) := by
  let first : Assignment := ⟨"x", .ofValue (.bool true), ⟨0, 8⟩⟩
  let second (span place : Span) : Assignment :=
    ⟨"y", ⟨[.operand (.name "player:name:x" place)]⟩, span⟩
  obtain ⟨w, hset, hlookup⟩ : ∃ w,
      Store.set "x" (.bool true) (lampRoom "").world = (.ok (), w) ∧
        w.lookup "player:name:x" = .error (.notContainer "player:name:x") := ⟨_, rfl, rfl⟩
  have hfirst : first.perform (lampRoom "").world = (.ok (), w) := by
    rw [Assignment.perform, run_get_bind, run_lift_bind]
    change (Store.set "x" (.bool true)).adapt ScriptError.world (lampRoom "").world = _
    rw [run_adapt, hset]
    rfl
  have hsecond (span place : Span) : (Assignment.performAll [second span place] w).1 =
        .error (.reference "player:name:x" place (.notContainer "player:name:x")) := by
    have hevaluate : (second span place).expression.evaluate w =
        .error (.reference "player:name:x" place (.notContainer "player:name:x")) := by
      change (Expression.resolve w true (.name "player:name:x" place) >>= _) = _
      rw [Expression.resolve, hlookup]
      rfl
    rw [Assignment.performAll, run_bind, Assignment.perform, run_get_bind, run_lift_bind, hevaluate]
  refine ⟨rfl, [first], [second ⟨0, 17⟩ ⟨4, 17⟩], [first, second ⟨9, 26⟩ ⟨13, 26⟩], rfl, rfl, rfl,
    ?_, ?_⟩
  · rw [Assignment.performAll, run_bind, hfirst]
    exact hsecond _ _
  · have hpure : Assignment.performAll [first] (lampRoom "").world = (.ok (), w) := by
      rw [Assignment.performAll, run_bind, hfirst]
      rfl
    rw [run_bind, hpure]
    exact hsecond _ _

end Storyworld.Script
