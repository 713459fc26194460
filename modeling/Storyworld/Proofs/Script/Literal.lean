import Storyworld.Proofs.Script.Assignment
import Storyworld.Proofs.Script.Dependence
import Storyworld.Proofs.Script.Grammar

/-! # Quoted literals in both languages

Both languages have texts between quotes. Where an expression is read, a backslash stands for the
character after it; where a condition is read, it stands for itself, and a quote behind it closes the
literal. Where there is no backslash, a literal with a name before it is one run of text, and a
condition tests for what stands between the quotes (`holds_of_textRun`, `textRun_equation`); where a
backslash cuts the run short, no test has all of the literal in it (`countP_lt_of_mem_atoms`).
-/

namespace Storyworld.Script

open Condition (isDelimiter isQuote textRun)

/-! ## Quoted texts of expressions -/

theorem isQuote_iff {c : Char} : isQuote c = true ↔ c = '"' ∨ c = '\'' := by
  simp [isQuote]

theorem isBlank_of_isQuote {quote : Char} (h : isQuote quote = true) :
    Text.isBlank quote = false := by
  obtain rfl | rfl := isQuote_iff.mp h <;> decide

/-- The characters between two quotes read as a text: a backslash stands for the character after
it. -/
inductive Quoted (quote : Char) : List Char → List Char → Prop
  | nil : Quoted quote [] []
  | escaped (c : Char) {body text : List Char} (h : Quoted quote body text) :
      Quoted quote ('\\' :: c :: body) (c :: text)
  | plain {c : Char} {body text : List Char} (hescape : c ≠ '\\') (hquote : c ≠ quote)
      (h : Quoted quote body text) : Quoted quote (c :: body) (c :: text)

namespace Quoted

variable {quote : Char} {body text : List Char}

/-- Without a backslash, what is quoted is what is read, and no quote is in it. -/
theorem eq_of_not_mem (h : Quoted quote body text) (hbody : '\\' ∉ body) :
    text = body ∧ quote ∉ body := by
  induction h with
  | nil => exact ⟨rfl, List.not_mem_nil⟩
  | escaped c h ih => exact absurd List.mem_cons_self hbody
  | plain hescape hquote h ih =>
    obtain ⟨rfl, hrest⟩ := ih (List.not_mem_of_not_mem_cons hbody)
    exact ⟨rfl, List.not_mem_cons_of_ne_of_not_mem (Ne.symm hquote) hrest⟩

/-- With a backslash, less is read than is quoted. -/
theorem length_lt_of_mem (h : Quoted quote body text) (hbody : '\\' ∈ body) :
    text.length < body.length := by
  have hle : ∀ {body text}, Quoted quote body text → text.length ≤ body.length := by
    intro body text h
    induction h <;> simp only [List.length_cons, List.length_nil] <;> omega
  induction h with
  | nil => cases hbody
  | escaped c h ih =>
    have := hle h
    simp only [List.length_cons]
    omega
  | plain hescape hquote h ih =>
    have := ih ((List.mem_cons.mp hbody).resolve_left (Ne.symm hescape))
    simp only [List.length_cons]
    omega

/-- Nothing but backslashes is lost. -/
theorem countP_eq (h : Quoted quote body text) {p : Char → Bool} (hp : p '\\' = false) :
    text.countP p = body.countP p := by
  induction h with
  | nil => rfl
  | escaped c h ih => simp [List.countP_cons, hp, ih]
  | plain hescape hquote h ih => simp only [List.countP_cons, ih]

end Quoted

namespace Expression

/-- The text of a literal ends at the first quote that no backslash stands before. -/
theorem quotedText_eq_some {quote : Char} {cs text rest : List Char}
    (h : quotedText quote cs = some (text, rest)) :
    ∃ body, Quoted quote body text ∧ cs = body ++ quote :: rest := by
  fun_induction quotedText quote cs generalizing text with
  | case1 => cases h
  | case2 => cases h
  | case3 c cs ih =>
    obtain ⟨⟨text', rest'⟩, hcs, hpair⟩ := Option.map_eq_some_iff.mp h
    cases hpair
    obtain ⟨body, hbody, rfl⟩ := ih hcs
    exact ⟨_, .escaped c hbody, rfl⟩
  | case4 cs c =>
    cases h
    exact ⟨[], .nil, rfl⟩
  | case5 c cs _ hescape hquote ih =>
    obtain ⟨⟨text', rest'⟩, hcs, hpair⟩ := Option.map_eq_some_iff.mp h
    cases hpair
    obtain ⟨body, hbody, rfl⟩ := ih hcs
    refine ⟨c :: body, .plain (fun hc => ?_) hquote hbody, rfl⟩
    obtain ⟨d, ds, hds⟩ := List.exists_cons_of_ne_nil (show body ++ quote :: rest ≠ [] by simp)
    exact hescape d ds hc hds

/-- What is scanned as no token is blank. -/
theorem blanks_of_scanFrom {fuel start : Nat} {cs : List Char} (hfuel : cs.length ≤ fuel)
    (h : scanFrom fuel start cs = .ok []) : cs.all Text.isBlank = true := by
  induction fuel generalizing start cs with
  | zero => simp [List.length_eq_zero_iff.mp (Nat.le_zero.mp hfuel)]
  | succ fuel ih =>
    cases cs with
    | nil => rfl
    | cons c cs =>
      rw [scanFrom] at h
      split at h
      · rename_i hc
        exact Bool.and_eq_true_iff.mpr ⟨hc, ih (Nat.le_of_succ_le_succ hfuel) h⟩
      split at h
      · cases h
      · obtain ⟨tokens, -, hnil⟩ := Except.map_eq_ok h
        cases hnil

/-- Behind a quote, the text of the literal is the token. -/
theorem token_of_quotedText {quote : Char} (hquote : isQuote quote = true) {cs text rest : List Char}
    (h : quotedText quote cs = some (text, rest)) (start : Nat) :
    token start quote cs = .ok (.text (String.ofList text), rest) := by
  obtain rfl | rfl := isQuote_iff.mp hquote <;> simp [token, symbol?, h]

theorem token_of_unterminated {quote : Char} (hquote : isQuote quote = true) {cs : List Char}
    (h : quotedText quote cs = none) (start : Nat) :
    token start quote cs = .error (.text .unterminated (spanFrom start (quote :: cs))) := by
  obtain rfl | rfl := isQuote_iff.mp hquote <;> simp [token, symbol?, h]

/-- What is scanned as one text token between two quotes is read to the second of them. -/
theorem quoted_of_scan {quote : Char} (hquote : isQuote quote = true) {body : List Char}
    {text : String} {start : Nat} {span : Span}
    (h : scan start (quote :: body ++ [quote]) = .ok [⟨.text text, span⟩]) :
    Quoted quote body text.toList := by
  have hblank := isBlank_of_isQuote hquote
  rw [scan, List.cons_append, List.length_cons, scanFrom, if_neg (by simp [hblank])] at h
  cases hquoted : quotedText quote (body ++ [quote]) with
  | none =>
    rw [token_of_unterminated hquote hquoted] at h
    cases h
  | some result =>
    obtain ⟨read, rest⟩ := result
    rw [token_of_quotedText hquote hquoted] at h
    obtain ⟨tokens, hscan, htokens⟩ := Except.map_eq_ok h
    obtain ⟨hfirst, rfl⟩ := List.cons.inj htokens
    cases hfirst
    obtain ⟨inner, hinner, hcs⟩ := quotedText_eq_some hquoted
    -- the quote at the end is the one that closes, for behind it there are blanks only
    have hrest : rest.all Text.isBlank = true := by
      refine blanks_of_scanFrom ?_ hscan
      have hlength := congrArg List.length hcs
      simp only [List.length_append, List.length_cons] at hlength ⊢
      omega
    obtain rfl | ⟨init, last, rfl⟩ := List.eq_nil_or_concat' rest
    · rwa [(List.append_inj' hcs rfl).1, String.toList_ofList]
    · rw [← List.cons_append, ← List.append_assoc] at hcs
      obtain rfl := List.singleton_inj.mp (List.append_inj' hcs rfl).2
      simp [hblank] at hrest

end Expression

/-! ## A variable and a literal -/

/-- Whether a character may stand in a name that both languages can write. -/
def isNameChar (c : Char) : Bool :=
  !(Text.isBlank c || isDelimiter c || isQuote c || c == ':' || c == ';' || c == '=' || c == '<' ||
    c == '>')

/-- A text that both languages read as the name of a variable. A condition takes an exclamation mark
in front of a name for an operator. -/
structure IsName (s : String) : Prop where
  nonempty : s ≠ ""
  chars : ∀ c ∈ s.toList, isNameChar c = true
  start : s.toList.head? ≠ some '!'

/-- The text that tests a variable against a literal as a condition, and that sets it to the literal
as an assignment. -/
def equation (name : String) (literal : List Char) : String :=
  name ++ " = " ++ String.ofList literal

theorem toList_equation (name : String) (literal : List Char) :
    (equation name literal).toList = name.toList ++ ' ' :: '=' :: ' ' :: literal := by
  simp [equation]

/-- How an operator of comparison may be written: equality has a shorter form too. -/
inductive Comparison.Spelt : Comparison → String → Prop
  | symbol (op : Comparison) : Spelt op op.symbol
  | short : Spelt .equal "="

/-- The text that compares what stands at a path with a literal. -/
def comparisonText (path word : String) (literal : List Char) : String :=
  path ++ " " ++ word ++ " " ++ String.ofList literal

theorem toList_comparisonText (path word : String) (literal : List Char) :
    (comparisonText path word literal).toList =
      path.toList ++ ' ' :: (word.toList ++ ' ' :: literal) := by
  simp [comparisonText]

/-- As a condition, an equation is a comparison with the short form of equality. -/
theorem equation_eq_comparisonText (name : String) (literal : List Char) :
    equation name literal = comparisonText name "=" literal :=
  String.toList_inj.mp (by rw [toList_equation, toList_comparisonText]; rfl)

/-- The literal stands behind a front that is made of the name. -/
theorem toList_equation_front (name : String) (literal : List Char) :
    (equation name literal).toList = (name.toList ++ [' ', '=', ' ']) ++ literal := by
  simp [equation]

theorem isDelimiter_of_isQuote {quote : Char} (h : isQuote quote = true) :
    isDelimiter quote = false := by
  obtain rfl | rfl := isQuote_iff.mp h <;> decide

theorem trim_quoted {quote : Char} (hquote : isQuote quote = true) (before : List Char)
    (hbefore : before.all Text.isBlank = true) (body : List Char) :
    Text.trim (before ++ (quote :: body ++ [quote])) = quote :: body ++ [quote] := by
  have hblank := isBlank_of_isQuote hquote
  have htrim := Text.trim_between before [] hbefore rfl hblank
    (Text.trimEnd_concat hblank (quote :: body))
  rwa [List.append_nil] at htrim

theorem trimEnd_comparisonText (path word : String) {quote : Char} (hquote : isQuote quote = true)
    (body : List Char) : Text.trimEnd (comparisonText path word (quote :: body ++ [quote])).toList =
      (comparisonText path word (quote :: body ++ [quote])).toList := by
  have hconcat : (comparisonText path word (quote :: body ++ [quote])).toList =
      (comparisonText path word (quote :: body)).toList ++ [quote] := by
    rw [toList_comparisonText, toList_comparisonText]
    simp
  rw [hconcat]
  exact Text.trimEnd_concat (isBlank_of_isQuote hquote) _

theorem trimEnd_equation (name : String) {quote : Char} (hquote : isQuote quote = true)
    (body : List Char) : Text.trimEnd (equation name (quote :: body ++ [quote])).toList =
      (equation name (quote :: body ++ [quote])).toList := by
  rw [equation_eq_comparisonText]
  exact trimEnd_comparisonText name "=" hquote body

namespace IsName

variable {name : String} (h : IsName name)

include h

theorem not_isBlank {c : Char} (hc : c ∈ name.toList) : Text.isBlank c = false := by
  have hchar := h.chars c hc
  simp only [isNameChar, Bool.not_eq_true', Bool.or_eq_false_iff] at hchar
  tauto

theorem not_special {c : Char} (hc : c ∈ name.toList) :
    isDelimiter c = false ∧ isQuote c = false := by
  have hchar := h.chars c hc
  simp only [isNameChar, Bool.not_eq_true', Bool.or_eq_false_iff] at hchar
  tauto

theorem not_mem_toList {c : Char} (hc : isNameChar c = false) : c ∉ name.toList :=
  fun hmem => by simp [h.chars c hmem] at hc

/-- In front of the literal, no quote stands and nothing that ends a run of text or an assignment. -/
theorem not_special_front {c : Char} (hc : c ∈ name.toList ++ [' ', '=', ' ']) :
    isDelimiter c = false ∧ isQuote c = false ∧ c ≠ ';' := by
  obtain hc | hc := List.mem_append.mp hc
  · obtain ⟨hdelimiter, hquote⟩ := h.not_special hc
    exact ⟨hdelimiter, hquote, fun heq => h.not_mem_toList (by decide) (heq ▸ hc)⟩
  · have hspaced : ∀ c ∈ [' ', '=', ' '], isDelimiter c = false ∧ isQuote c = false ∧ c ≠ ';' := by
      simp [isDelimiter, isQuote]
    exact hspaced c hc

theorem toList_ne_nil : name.toList ≠ [] := by
  simpa using h.nonempty

theorem trim_toList (before after : List Char) (hbefore : before.all Text.isBlank = true)
    (hafter : after.all Text.isBlank = true) :
    Text.trim (before ++ name.toList ++ after) = name.toList :=
  Text.trim_of_no_blank hbefore hafter (fun _ => h.not_isBlank) h.toList_ne_nil

/-- A name starts a run of text. -/
theorem exists_cons : ∃ c cs, name.toList = c :: cs ∧ Text.isBlank c = false ∧
    isDelimiter c = false ∧ c ≠ '!' := by
  obtain ⟨c, cs, hcs⟩ := List.exists_cons_of_ne_nil h.toList_ne_nil
  have hc : c ∈ name.toList := hcs ▸ List.mem_cons_self
  refine ⟨c, cs, hcs, h.not_isBlank hc, (h.not_special hc).1, ?_⟩
  rintro rfl
  exact h.start (by rw [hcs]; rfl)

/-- A name is a path of one segment. -/
theorem path : Path.ofText? name = some ⟨name, []⟩ := by
  have htrim := h.trim_toList [] [] rfl rfl
  rw [List.nil_append, List.append_nil] at htrim
  have hsegments : Path.segments name = [name] := by
    rw [Path.segments, Text.splitAt_of_not_mem (h.not_mem_toList (by decide))]
    simp [htrim]
  simp [Path.ofText?, hsegments, h.nonempty]

end IsName

/-! ## How a condition reads it -/

namespace Condition

/-- The part of a text before anything that a run of text pays heed to. -/
theorem textRun_append {cs : List Char} (h : ∀ c ∈ cs, isDelimiter c = false ∧ isQuote c = false)
    (rest : List Char) : textRun none (cs ++ rest) = cs ++ textRun none rest := by
  induction cs with
  | nil => rfl
  | cons c cs ih =>
    obtain ⟨hdelimiter, hquote⟩ := h c List.mem_cons_self
    rw [List.cons_append, textRun, if_neg (by simp [hdelimiter]), if_neg (by simp [hquote]),
      ih fun d hd => h d (List.mem_cons_of_mem c hd)]
    rfl

/-- Inside a literal, a run goes on to the partner of its quote, and from there as it does outside. -/
theorem textRun_inside {quote : Char} {body : List Char} (h : quote ∉ body) (rest : List Char) :
    textRun (some quote) (body ++ quote :: rest) = body ++ quote :: textRun none rest := by
  induction body with
  | nil => simp [textRun]
  | cons c body ih =>
    have hc : c ≠ quote := Ne.symm (List.ne_of_not_mem_cons h)
    rw [List.cons_append, textRun, if_neg hc, ih (List.not_mem_of_not_mem_cons h)]
    rfl

/-- A run goes on over a literal, whatever is in it. -/
theorem textRun_quoted {quote : Char} (hquote : isQuote quote = true) {body : List Char}
    (h : quote ∉ body) (rest : List Char) :
    textRun none (quote :: body ++ quote :: rest) = quote :: body ++ quote :: textRun none rest := by
  rw [List.cons_append, textRun, if_neg (by simp [isDelimiter_of_isQuote hquote]), if_pos hquote,
    if_pos (by simp), textRun_inside h]
  rfl

theorem logic?_eq_none {start : Nat} {c : Char} (hdelimiter : isDelimiter c = false) (hnot : c ≠ '!')
    (cs : List Char) : logic? start (c :: cs) = .ok none := by
  simp only [isDelimiter, Bool.or_eq_false_iff, beq_eq_false_iff_ne] at hdelimiter
  unfold logic?
  split <;> first | rfl | (rename_i heq; cases heq; simp at hdelimiter hnot)

/-- Where no blank and no logic stands, a run of text is the first token. -/
theorem scanFrom_run (fuel start : Nat) {c : Char} (hblank : Text.isBlank c = false)
    (hdelimiter : isDelimiter c = false) (hnot : c ≠ '!') (cs : List Char) :
    scanFrom (fuel + 1) start (c :: cs) =
      (scanFrom fuel (start + byteSize (textRun none (c :: cs)))
        ((c :: cs).drop (textRun none (c :: cs)).length)).map
        (⟨.atom (String.ofList (Text.trimEnd (textRun none (c :: cs)))),
          spanFrom start (Text.trimEnd (textRun none (c :: cs)))⟩ :: ·) := by
  rw [scanFrom, if_neg (by simp [hblank]), logic?_eq_none hdelimiter hnot]

end Condition

namespace Atom

theorem operator?_eq_none {c : Char} {cs : List Char} (hequal : c ≠ '=') (hless : c ≠ '<')
    (hgreater : c ≠ '>') (hnot : cs.head? ≠ some '=') : operator? (c :: cs) = none := by
  unfold operator?
  split <;> first | rfl | (rename_i heq; cases heq; simp at hequal hless hgreater hnot)

/-- Behind a blank, an operator is read as it is written. -/
theorem divide?_word {op : Comparison} {word : String} (hop : op.Spelt word) (right : List Char) :
    divide? (' ' :: (word.toList ++ ' ' :: right)) = some ([' '], op, ' ' :: right) := by
  obtain ⟨op⟩ | _ := hop
  · cases op <;> rfl
  · rfl

/-- A test is cut apart at the operator behind its path. -/
theorem divide?_comparison {cs : List Char} (h : ∀ c ∈ cs, c ≠ '=' ∧ c ≠ '<' ∧ c ≠ '>')
    {op : Comparison} {word : String} (hop : op.Spelt word) (right : List Char) :
    divide? (cs ++ ' ' :: (word.toList ++ ' ' :: right)) = some (cs ++ [' '], op, ' ' :: right) := by
  induction cs with
  | nil => exact divide?_word hop right
  | cons c cs ih =>
    obtain ⟨hequal, hless, hgreater⟩ := h c List.mem_cons_self
    have hnext : (cs ++ ' ' :: (word.toList ++ ' ' :: right)).head? ≠ some '=' := by
      cases cs with
      | nil => simp
      | cons d cs => simpa using (h d (by simp)).1
    rw [List.cons_append, divide?, operator?_eq_none hequal hless hgreater hnext,
      ih fun d hd => h d (List.mem_cons_of_mem c hd)]
    rfl

theorem literal_quoted {quote : Char} (hquote : isQuote quote = true) (body : List Char) :
    literal (quote :: body ++ [quote]) = .text (String.ofList body) := by
  have hlast : (quote :: body ++ [quote]).getLast? = some quote := List.getLast?_concat
  have hquoted : isQuotedBy quote (quote :: body ++ [quote]) = true := by
    simp only [isQuotedBy, hlast]
    simp
  have hliteral : (isQuotedBy '"' (quote :: body ++ [quote]) ||
      isQuotedBy '\'' (quote :: body ++ [quote])) = true := by
    rw [Bool.or_eq_true]
    obtain rfl | rfl := isQuote_iff.mp hquote
    · exact .inl hquoted
    · exact .inr hquoted
  rw [literal, if_pos hliteral]
  simp

/-- A test of a path against a quoted text compares with what stands between the quotes. -/
theorem parse_comparison {path word : String} {op : Comparison} (hop : op.Spelt word)
    (hchars : ∀ c ∈ path.toList, Text.isBlank c = false ∧ c ≠ '=' ∧ c ≠ '<' ∧ c ≠ '>')
    (hpath : (Path.ofText? path).isSome) {quote : Char} (hquote : isQuote quote = true)
    (body : List Char) (span : Span) :
    parse (comparisonText path word (quote :: body ++ [quote])) span =
      .ok ⟨path, some (op, .text (String.ofList body)), span⟩ := by
  have hne : path.toList ≠ [] := by
    intro hnil
    rw [String.toList_eq_nil_iff.mp hnil] at hpath
    cases hpath
  have hdivide : divide? (comparisonText path word (quote :: body ++ [quote])).toList =
      some (path.toList ++ [' '], op, ' ' :: (quote :: body ++ [quote])) := by
    rw [toList_comparisonText]
    exact divide?_comparison (fun c hc => (hchars c hc).2) hop _
  have hleft : Text.trim ([] ++ path.toList ++ [' ']) = path.toList :=
    Text.trim_of_no_blank rfl (by decide) (fun c hc => (hchars c hc).1) hne
  rw [List.nil_append] at hleft
  have hright : Text.trim (' ' :: (quote :: body ++ [quote])) = quote :: body ++ [quote] :=
    trim_quoted hquote [' '] (by decide) body
  have hcheck : checkPath path (spanFrom span.start (path.toList ++ [' '])) = .ok () := by
    have hblank : path.toList.any Text.isBlank = false :=
      List.any_eq_false.mpr fun c hc => by simp [(hchars c hc).1]
    simp [checkPath, hblank, Option.isSome_iff_ne_none.mp hpath]
  simp only [parse, hdivide, hleft, hright, String.ofList_toList, hcheck, literal_quoted hquote]
  simp [hne, bind, Except.bind, pure, Except.pure]

/-- The whole equation, read as one test, compares with what stands between the quotes. -/
theorem parse_equation {name : String} (hname : IsName name) {quote : Char}
    (hquote : isQuote quote = true) (body : List Char) (span : Span) :
    parse (equation name (quote :: body ++ [quote])) span =
      .ok ⟨name, some (.equal, .text (String.ofList body)), span⟩ := by
  rw [equation_eq_comparisonText]
  refine parse_comparison .short (fun c hc => ⟨hname.not_isBlank hc, ?_, ?_, ?_⟩)
    (by rw [hname.path]; rfl) hquote body span <;>
  · rintro rfl
    exact hname.not_mem_toList (by decide) hc

end Atom

namespace Condition

/-- A single run of text is a condition of a single test. -/
theorem parse_of_scan {source text : String} {span : Span} {a : Atom}
    (hscan : scan source = .ok [⟨.atom text, span⟩]) (hatom : Atom.parse text span = .ok a) :
    parse source = .ok ⟨source, [.operand a]⟩ := by
  have hinfix : infixOf ⟨.atom text, span⟩ = .ok (.operand a) := by
    change (Atom.parse text span).map Infix.operand = _
    rw [hatom]
    rfl
  simp only [parse, hscan, bind, Except.bind, List.mapM_cons, List.mapM_nil, hinfix]
  rfl

/-- A condition of a single test comes to what the test comes to. -/
theorem holds_of_parse {source : String} {a : Atom}
    (hparse : parse source = .ok ⟨source, [.operand a]⟩) (w : World) :
    holds w source = a.evaluate w := by
  rw [holds, hparse]
  change a.evaluate w >>= pure = a.evaluate w
  cases a.evaluate w <;> rfl

theorem holds_of_scan {source text : String} {span : Span} {a : Atom}
    (hscan : scan source = .ok [⟨.atom text, span⟩]) (hatom : Atom.parse text span = .ok a)
    (w : World) : holds w source = a.evaluate w :=
  holds_of_parse (parse_of_scan hscan hatom) w

section

variable {name : String} (hname : IsName name) {quote : Char} (hquote : isQuote quote = true)
  {body : List Char}

include hname

/-- The first token of an equation is the run of text that it starts with. -/
theorem scan_equation (literal : List Char) :
    let source := (equation name literal).toList
    ∃ fuel start span, scan (equation name literal) =
      (scanFrom fuel start (source.drop (textRun none source).length)).map
        (⟨.atom (String.ofList (Text.trimEnd (textRun none source))), span⟩ :: ·) := by
  intro source
  obtain ⟨c, cs, hcs, hblank, hdelimiter, hnot⟩ := hname.exists_cons
  obtain ⟨rest, hsource⟩ : ∃ rest, source = c :: rest := by
    refine ⟨cs ++ ' ' :: '=' :: ' ' :: literal, ?_⟩
    rw [show source = _ from toList_equation name literal, hcs]
    rfl
  have hrun := scanFrom_run rest.length 0 hblank hdelimiter hnot rest
  rw [← hsource] at hrun
  have hscan : scan (equation name literal) = scanFrom (rest.length + 1) 0 source := by
    rw [scan, ← String.length_toList, show (equation name literal).toList = source from rfl,
      hsource, List.length_cons]
  exact ⟨_, _, _, hscan.trans hrun⟩

include hquote

/-- Where one run of text is the whole equation, the condition compares with what stands between the
quotes. -/
theorem holds_of_textRun
    (hwhole : textRun none (equation name (quote :: body ++ [quote])).toList =
      (equation name (quote :: body ++ [quote])).toList)
    {w : World} {v : Value} (hv : w.lookup name = .ok v) :
    holds w (equation name (quote :: body ++ [quote])) =
      .ok (v.looseEq (.text (String.ofList body))) := by
  obtain ⟨fuel, start, span, hscan⟩ := scan_equation hname (quote :: body ++ [quote])
  have hnil : scanFrom fuel start [] = .ok [] := by cases fuel <;> rfl
  rw [hwhole, trimEnd_equation name hquote, String.ofList_toList, List.drop_length, hnil] at hscan
  rw [holds_of_scan hscan (Atom.parse_equation hname hquote body span), Atom.evaluate, hv]
  rfl

/-- Without a backslash, one run of text is the whole equation. -/
theorem textRun_equation {text : List Char} (hquoted : Quoted quote body text)
    (hbody : '\\' ∉ body) :
    textRun none (equation name (quote :: body ++ [quote])).toList =
      (equation name (quote :: body ++ [quote])).toList := by
  have hfront : ∀ c ∈ name.toList ++ [' ', '=', ' '], isDelimiter c = false ∧ isQuote c = false :=
    fun c hc => ⟨(hname.not_special_front hc).1, (hname.not_special_front hc).2.1⟩
  rw [toList_equation_front, textRun_append hfront,
    textRun_quoted hquote (hquoted.eq_of_not_mem hbody).2 []]
  rfl

theorem countP_equation (body : List Char) :
    (equation name (quote :: body ++ [quote])).toList.countP isDelimiter =
      body.countP isDelimiter := by
  have hfront : (name.toList ++ [' ', '=', ' ']).countP isDelimiter = 0 :=
    List.countP_eq_zero.mpr fun c hc => by simp [(hname.not_special_front hc).1]
  rw [toList_equation_front, List.countP_append, hfront]
  simp [List.countP_append, isDelimiter_of_isQuote hquote]

section

variable (hcut : textRun none (equation name (quote :: body ++ [quote])).toList ≠
  (equation name (quote :: body ++ [quote])).toList)

include hcut

/-- Where one run of text is not the whole equation, it was cut off by a delimiter of the literal. -/
theorem exists_cut : ∃ d rest, isDelimiter d = true ∧
    textRun none (equation name (quote :: body ++ [quote])).toList ++ d :: rest =
      (equation name (quote :: body ++ [quote])).toList ∧
    body.countP isDelimiter =
      (textRun none (equation name (quote :: body ++ [quote])).toList).countP isDelimiter +
        (rest.countP isDelimiter + 1) := by
  obtain ⟨rest, hrest⟩ := textRun_isPrefix none (equation name (quote :: body ++ [quote])).toList
  cases rest with
  | nil => exact absurd (by simpa using hrest) hcut
  | cons d rest =>
    have hd : isDelimiter d = true := isDelimiter_of_textRun hrest
    refine ⟨d, rest, hd, hrest, ?_⟩
    rw [← countP_equation hname hquote, ← List.countP_cons_of_pos hd, ← List.countP_append, hrest]

/-- The delimiter that cuts off the first run belongs to no test. -/
theorem countP_lt_of_mem_atoms {c : Condition}
    (hparse : parse (equation name (quote :: body ++ [quote])) = .ok c) {a : Atom}
    (ha : a ∈ c.atoms) {op : Comparison} {text : String}
    (htext : a.comparison = some (op, .text text)) :
    text.toList.countP isDelimiter < body.countP isDelimiter := by
  obtain ⟨tokens, hscan, t, ht, source, htoken, hatom⟩ := exists_token_of_mem_atoms hparse ha
  obtain ⟨fuel, start, span, hrun⟩ := scan_equation hname (quote :: body ++ [quote])
  obtain ⟨d, rest, hd, hrest, hcount⟩ := exists_cut hname hquote hcut
  generalize textRun none (equation name (quote :: body ++ [quote])).toList = run at *
  rw [← hrest, List.drop_left, hscan] at hrun
  obtain ⟨tokens', htokens', rfl⟩ := Except.map_eq_ok hrun.symm
  refine Nat.lt_of_le_of_lt (Atom.literal_sublist hatom htext).countP_le ?_
  obtain rfl | ht := List.mem_cons.mp ht
  · cases htoken
    rw [String.toList_ofList]
    have hle := (Text.trimEnd_sublist run).countP_le (p := isDelimiter)
    omega
  · have hle := (sublist_of_scanFrom_delimiter hd htokens' ht htoken).countP_le (p := isDelimiter)
    omega

end

end

end Condition

end Storyworld.Script
