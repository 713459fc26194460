import Storyworld.Proofs.Script.Literal
import Storyworld.Proofs.World.Address

/-! # Where both languages read a literal as the same text

An assignment writes the text that its literal is read as (`assign_equation`). The condition of the
same text tests for what stands between the quotes, backslashes included, if it is a single test at
all. So it holds of the text that was written exactly if there is no backslash in the literal:
`holds_equation_iff`.
-/

namespace Storyworld.Script

open Condition (isDelimiter isQuote textRun)

section

variable {name : String} {quote : Char} {body text : List Char}

/-! ## How an assignment reads an equation -/

/-- Inside a literal, no separator counts. -/
theorem Quoted.splitOutside_inside (h : Quoted quote body text) (sep : Char) :
    splitOutside sep (.inside quote) (body ++ [quote]) = [body ++ [quote]] := by
  induction h with
  | nil => simp [splitOutside]
  | escaped c h ih => simp [splitOutside, Quoting.step, ih]
  | plain hplain hother h ih => simp [splitOutside, Quoting.step, hplain, hother, ih]

theorem Quoting.step_outside {c : Char} (h : isQuote c = false) : Quoting.outside.step c = .outside := by
  simp only [isQuote, Bool.or_eq_false_iff, beq_eq_false_iff_ne] at h
  simp [Quoting.step, h.1, h.2]

/-- Outside literals, a text without separators stays together with what follows it. -/
theorem splitOutside_append {sep : Char} {cs rest : List Char}
    (h : ∀ c ∈ cs, c ≠ sep ∧ isQuote c = false) (hrest : splitOutside sep .outside rest = [rest]) :
    splitOutside sep .outside (cs ++ rest) = [cs ++ rest] := by
  induction cs with
  | nil => exact hrest
  | cons c cs ih =>
    obtain ⟨hsep, hquote⟩ := h c List.mem_cons_self
    rw [List.cons_append, splitOutside, if_neg fun hc => hsep hc.2, Quoting.step_outside hquote,
      ih fun d hd => h d (List.mem_cons_of_mem c hd)]

theorem divideOutside?_append {sep : Char} {cs : List Char}
    (h : ∀ c ∈ cs, c ≠ sep ∧ isQuote c = false) (right : List Char) :
    divideOutside? sep .outside (cs ++ sep :: right) = some (cs, right) := by
  induction cs with
  | nil => simp [divideOutside?]
  | cons c cs ih =>
    obtain ⟨hsep, hquote⟩ := h c List.mem_cons_self
    rw [List.cons_append, divideOutside?, if_neg fun hc => hsep hc.2, Quoting.step_outside hquote,
      ih fun d hd => h d (List.mem_cons_of_mem c hd)]
    rfl

/-- What is quoted is read to the quote that closes it. -/
theorem Quoted.quotedText_append (h : Quoted quote body text) (hquote : isQuote quote = true)
    (rest : List Char) :
    Expression.quotedText quote (body ++ quote :: rest) = some (text, rest) := by
  induction h with
  | nil =>
    obtain rfl | rfl := isQuote_iff.mp hquote <;> rfl
  | escaped c h ih =>
    rw [List.cons_append, List.cons_append, Expression.quotedText, ih]
    rfl
  | plain hescape hother h ih =>
    rw [List.cons_append, Expression.quotedText.eq_4 _ _ _ (fun h => absurd h hescape)
      (fun _ _ h => absurd h hescape), if_neg hother, ih]
    rfl

/-- A literal is read as its text. -/
theorem Expression.parse_quoted (hquote : isQuote quote = true) (h : Quoted quote body text)
    (start : Nat) :
    parse start (' ' :: (quote :: body ++ [quote])) = .ok (ofValue (.text (String.ofList text))) := by
  have htrim : Text.trim (' ' :: (quote :: body ++ [quote])) = quote :: body ++ [quote] :=
    trim_quoted hquote [' '] (by decide) body
  have htoken (start : Nat) : token start quote (body ++ [quote] ++ []) =
      .ok (.text (String.ofList text), []) := by
    rw [List.append_nil]
    exact token_of_quotedText hquote (h.quotedText_append hquote []) start
  obtain ⟨span, hscan⟩ : ∃ span, scan start ([' '] ++ (quote :: (body ++ [quote])) ++ []) =
      .ok [⟨.text (String.ofList text), span⟩] :=
    scan_of_token (by decide) rfl (isBlank_of_isQuote hquote) htoken
  rw [List.append_nil] at hscan
  change scan start (' ' :: (quote :: body ++ [quote])) = _ at hscan
  have hword (word : String) (hw : word.toList.head? ≠ some quote) :
      String.ofList (quote :: body ++ [quote]) ≠ word := by
    rintro rfl
    exact hw (by simp)
  obtain ⟨htrue, hfalse⟩ : "true".toList.head? ≠ some quote ∧ "false".toList.head? ≠ some quote := by
    obtain rfl | rfl := isQuote_iff.mp hquote <;> decide
  simp only [parse, htrim, if_neg (hword _ htrue), if_neg (hword _ hfalse), hscan]
  rfl

/-! ## An equation as an assignment -/

theorem Assignment.parse_equation (hname : IsName name) (hquote : isQuote quote = true)
    (h : Quoted quote body text) (start : Nat) :
    ∃ span, parse start (equation name (quote :: body ++ [quote])).toList =
      .ok ⟨name, Expression.ofValue (.text (String.ofList text)), span⟩ := by
  have hdivide : divideOutside? '=' .outside (equation name (quote :: body ++ [quote])).toList =
      some (name.toList ++ [' '], ' ' :: (quote :: body ++ [quote])) := by
    have hsource : (equation name (quote :: body ++ [quote])).toList =
        (name.toList ++ [' ']) ++ '=' :: ' ' :: (quote :: body ++ [quote]) := by
      rw [toList_equation]
      simp
    rw [hsource]
    refine divideOutside?_append (fun c hc => ?_) _
    obtain hc | hc := List.mem_append.mp hc
    · exact ⟨fun heq => hname.not_mem_toList (by decide) (heq ▸ hc), (hname.not_special hc).2⟩
    · cases List.mem_singleton.mp hc
      decide
  have hleft : Text.trim (name.toList ++ [' ']) = name.toList :=
    hname.trim_toList [] [' '] rfl (by decide)
  have hblank : name.toList.any Text.isBlank = false :=
    List.any_eq_false.mpr fun c hc => by simp [hname.not_isBlank hc]
  refine ⟨spanFrom start (equation name (quote :: body ++ [quote])).toList, ?_⟩
  simp only [parse, hdivide, hleft, String.ofList_toList]
  rw [if_neg (by simp [hblank, hname.toList_ne_nil]), if_neg (by simp [hname.path]),
    Expression.parse_quoted hquote h]
  rfl

theorem splitOutside_equation (hname : IsName name) (hquote : isQuote quote = true)
    (h : Quoted quote body text) :
    splitOutside ';' .outside (equation name (quote :: body ++ [quote])).toList =
      [(equation name (quote :: body ++ [quote])).toList] := by
  have hliteral : splitOutside ';' .outside (quote :: body ++ [quote]) = [quote :: body ++ [quote]] := by
    have hother : quote ≠ ';' := by obtain rfl | rfl := isQuote_iff.mp hquote <;> decide
    have hopens : Quoting.outside.step quote = .inside quote := by
      simp [Quoting.step, isQuote_iff.mp hquote]
    rw [List.cons_append, splitOutside, if_neg fun hc => hother hc.2, hopens,
      h.splitOutside_inside]
  rw [toList_equation_front]
  exact splitOutside_append (fun c hc => (hname.not_special_front hc).2.symm) hliteral

theorem parseAssignments_equation (hname : IsName name) (hquote : isQuote quote = true)
    (h : Quoted quote body text) :
    ∃ span, parseAssignments (equation name (quote :: body ++ [quote])) =
      .ok [⟨name, Expression.ofValue (.text (String.ofList text)), span⟩] := by
  obtain ⟨c, cs, hcs, hblank, -⟩ := hname.exists_cons
  have hsource : (equation name (quote :: body ++ [quote])).toList =
      c :: (cs ++ ' ' :: '=' :: ' ' :: (quote :: body ++ [quote])) := by
    rw [toList_equation, hcs]
    rfl
  have hend := trimEnd_equation name hquote body
  rw [hsource] at hend
  have htrim : Text.trim (equation name (quote :: body ++ [quote])).toList =
      (equation name (quote :: body ++ [quote])).toList := by
    have hbetween := Text.trim_between [] [] rfl rfl hblank hend
    rwa [List.nil_append, List.append_nil, ← hsource] at hbetween
  have hlead : (equation name (quote :: body ++ [quote])).toList.takeWhile Text.isBlank = [] := by
    rw [hsource]
    simp [hblank]
  obtain ⟨span, hparse⟩ := Assignment.parse_equation hname hquote h 0
  refine ⟨span, ?_⟩
  rw [parseAssignments, splitOutside_equation hname hquote h]
  simp only [Assignment.parseAll, htrim, hlead, byteSize_nil, Nat.add_zero, hparse]
  rw [hsource]
  rfl

/-- A clause of a value alone writes the value. -/
theorem Assignment.perform_ofValue {x : String} {v : Value} {w w' : World}
    (h : Store.set x v w = (.ok (), w')) (span : Span) :
    perform ⟨x, .ofValue v, span⟩ w = (.ok (), w') := by
  rw [perform, run_get_bind, run_lift_bind]
  change (Store.set x v).adapt ScriptError.world w = _
  rw [run_adapt, h]
  rfl

/-- An assignment of a literal writes the text that the literal is read as. -/
theorem assign_equation (hname : IsName name) (hquote : isQuote quote = true)
    (h : Quoted quote body text) {w : World} {x : Variable}
    (found : w.find? name = some (.variable x)) :
    assign (equation name (quote :: body ++ [quote])) w =
      (.ok (), w.replace (.variable { x with value := .text (String.ofList text) })) := by
  obtain ⟨span, hparse⟩ := parseAssignments_equation hname hquote h
  have hset := Store.set_of_variable hname.path rfl found (.text (String.ofList text))
  have hperform := Assignment.perform_ofValue hset span
  rw [assign, run_lift_bind, hparse]
  change Assignment.performAll [⟨name, .ofValue (.text (String.ofList text)), span⟩] w = _
  rw [Assignment.performAll, run_bind, hperform]
  rfl

/-! ## An equation as a condition -/

section

variable {w : World} {x : Variable} (hname : IsName name) (hquote : isQuote quote = true)
  (h : Quoted quote body text) (found : w.find? name = some (.variable x))

include hname hquote h found

/-- Without a backslash, the condition tests for the text that the literal is read as. -/
theorem holds_equation_of_not_mem (hbody : '\\' ∉ body) {s : String} (hs : x.value = .text s) :
    Condition.holds w (equation name (quote :: body ++ [quote])) =
      .ok (s == String.ofList text) := by
  have hlookup : w.lookup name = .ok (.text s) :=
    hs ▸ World.lookup_bare hname.path rfl (World.variableNamed?_of_find? found)
  rw [Condition.holds_of_textRun hname hquote
    (Condition.textRun_equation hname hquote h hbody) hlookup, (h.eq_of_not_mem hbody).1]
  rfl

/-- If the first run of text is cut off, the condition does not tell the text from a longer one. -/
theorem holds_equation_push
    (hcut : textRun none (equation name (quote :: body ++ [quote])).toList ≠
      (equation name (quote :: body ++ [quote])).toList)
    {c : Condition}
    (hparse : Condition.parse (equation name (quote :: body ++ [quote])) = .ok c) {s : String}
    (hs : s = String.ofList text) :
    c.evaluate (w.replace (.variable { x with value := .text (s.push '\x00') })) =
      c.evaluate (w.replace (.variable { x with value := .text s })) := by
  have hcount : s.toList.countP isDelimiter = body.countP isDelimiter := by
    rw [hs, String.toList_ofList, h.countP_eq (by decide)]
  have hpush : (s.push '\x00').toList.countP isDelimiter = body.countP isDelimiter := by
    rw [String.toList_push, List.countP_append, hcount]
    rfl
  obtain ⟨d, hmem, hd⟩ : ∃ d ∈ s.toList, isDelimiter d = true := by
    obtain ⟨_, _, -, -, hbody⟩ := Condition.exists_cut hname hquote hcut
    have hpos : 0 < s.toList.countP isDelimiter := by omega
    exact List.countP_pos_iff.mp hpos
  have hnumber := toNumber?_of_isDelimiter hd hmem
  have hnumber' := toNumber?_of_isDelimiter hd (s := s.push '\x00') (by simp [hmem])
  refine Condition.evaluate_congr fun a ha => Atom.evaluate_revalue found ?_ fun op rhs hrhs => ?_
  · have htruthy (u : String) (hu : d ∈ u.toList) : (Value.text u).isTruthy = true :=
      bne_iff_ne.mpr (by rintro rfl; simp at hu)
    rw [htruthy s hmem, htruthy (s.push '\x00') (by simp [hmem])]
  · refine Comparison.holds_congr hnumber hnumber' fun l hl => ?_
    have hlt := Condition.countP_lt_of_mem_atoms hname hquote hcut hparse ha (hl ▸ hrhs)
    have hself : l ≠ s := by
      rintro rfl
      omega
    have hnext : l ≠ s.push '\x00' := by
      rintro rfl
      omega
    exact ⟨by simp [Ne.symm hself, Ne.symm hnext], compare_push hself hnext⟩

/-- With a backslash, there is a text that the condition gets wrong. -/
theorem exists_holds_equation_ne (hbody : '\\' ∈ body) :
    ∃ s, Condition.holds (w.replace (.variable { x with value := .text s }))
      (equation name (quote :: body ++ [quote])) ≠ .ok (s == String.ofList text) := by
  by_cases hwhole : textRun none (equation name (quote :: body ++ [quote])).toList =
      (equation name (quote :: body ++ [quote])).toList
  · -- the test is for the longer text between the quotes
    refine ⟨String.ofList text, ?_⟩
    have hfind : (w.replace (.variable { x with value := .text (String.ofList text) })).find? name =
        some (.variable { x with value := .text (String.ofList text) }) :=
      World.find?_replace_self found rfl rfl
    have hlookup := World.lookup_bare hname.path rfl (World.variableNamed?_of_find? hfind)
    rw [Condition.holds_of_textRun hname hquote hwhole hlookup]
    have hne : String.ofList text ≠ String.ofList body := fun heq => by
      have hlt := h.length_lt_of_mem hbody
      rw [String.ofList_inj.mp heq] at hlt
      omega
    simp [Value.looseEq, hne]
  · by_contra hall
    simp only [not_exists, not_not] at hall
    have htext := hall (String.ofList text)
    have hnext := hall ((String.ofList text).push '\x00')
    obtain ⟨c, hparse, hevaluate⟩ := Except.bind_eq_ok htext
    rw [Condition.holds, hparse] at hnext
    change c.evaluate _ = _ at hnext
    rw [holds_equation_push hname hquote h found hwhole hparse rfl, hevaluate] at hnext
    have hne : (String.ofList text).push '\x00' ≠ String.ofList text := fun heq => by
      simpa using congrArg String.length heq
    simp [hne] at hnext

end

/-! ## Both languages -/

/-- **The two languages read a literal as the same text exactly if there is no backslash in it.** Let
a literal be one text token of an expression. Without a backslash, the condition that compares a
variable with the literal holds exactly of the text that it is read as; with a backslash, there is a
text of the variable of which the condition is wrong, or fails. An assignment of the literal writes
the text that it is read as. -/
theorem holds_equation_iff {start : Nat} {t : String} {span : Span} (hquote : isQuote quote = true)
    (scanned : Expression.scan start (quote :: body ++ [quote]) = .ok [⟨.text t, span⟩])
    (hname : IsName name) {w : World} {x : Variable}
    (found : w.find? name = some (.variable x)) :
    let source := equation name (quote :: body ++ [quote])
    ('\\' ∉ body → ∀ s, x.value = .text s → Condition.holds w source = .ok (s == t)) ∧
    ('\\' ∈ body → ∃ s w', w.set name (.text s) = .ok w' ∧
      Condition.holds w' source ≠ .ok (s == t)) ∧
    ∃ w', assign source w = (.ok (), w') ∧ w.set name (.text t) = .ok w' ∧
      ('\\' ∉ body → Condition.holds w' source = .ok true) := by
  intro source
  have hquoted : Quoted quote body t.toList := Expression.quoted_of_scan hquote scanned
  have hset (s : String) :
      w.set name (.text s) = .ok (w.replace (.variable { x with value := .text s })) :=
    World.set_eq_ok_iff.mpr (Store.set_of_variable hname.path rfl found (.text s))
  have hassign := assign_equation hname hquote hquoted found
  rw [String.ofList_toList] at hassign
  refine ⟨fun hbody s hs => ?_, fun hbody => ?_, _, hassign, hset t, fun hbody => ?_⟩
  · rw [holds_equation_of_not_mem hname hquote hquoted found hbody hs, String.ofList_toList]
  · obtain ⟨s, hs⟩ := exists_holds_equation_ne hname hquote hquoted found hbody
    rw [String.ofList_toList] at hs
    exact ⟨s, _, hset s, hs⟩
  · have hfind : (w.replace (.variable { x with value := .text t })).find? name =
        some (.variable { x with value := .text t }) := World.find?_replace_self found rfl rfl
    rw [holds_equation_of_not_mem hname hquote hquoted hfind hbody rfl, String.ofList_toList]
    simp

end

/-- A story of a room with a variable that holds a quote. -/
def quoteRoom : Document :=
  { lampRoom "" with vars := [⟨"x", .text "a\"b", .nil⟩] }

theorem isName_x : IsName "x" where
  nonempty := by decide
  chars c hc := by
    obtain rfl : c = 'x' := by simpa using hc
    decide
  start := by simp

/-- Between quotes of the other kind, the quote is read in both languages. -/
theorem holds_equation_iff_quoteRoom :
    World.load quoteRoom = .ok quoteRoom.world ∧
      quoteRoom.world.find? "x" = some (.variable ⟨"x", .text "a\"b", .nil⟩) ∧
      Expression.scan 0 ('\'' :: ['a', '"', 'b'] ++ ['\'']) = .ok [⟨.text "a\"b", ⟨0, 5⟩⟩] ∧
      Condition.holds quoteRoom.world (equation "x" ('\'' :: ['a', '"', 'b'] ++ ['\''])) =
        .ok true := by
  have found : quoteRoom.world.find? "x" = some (.variable ⟨"x", .text "a\"b", .nil⟩) := rfl
  have scanned : Expression.scan 0 ('\'' :: ['a', '"', 'b'] ++ ['\'']) =
      .ok [⟨.text "a\"b", ⟨0, 5⟩⟩] := rfl
  obtain ⟨hplain, -, -⟩ := holds_equation_iff (by decide) scanned isName_x found
  exact ⟨rfl, found, scanned, hplain (by decide) "a\"b" rfl⟩

/-- Behind a backslash, the quote is read as a quote where an expression is read; the condition tests
for the backslash too. -/
theorem not_holds_equation_quoteRoom :
    World.load quoteRoom = .ok quoteRoom.world ∧
      quoteRoom.world.find? "x" = some (.variable ⟨"x", .text "a\"b", .nil⟩) ∧
      Expression.scan 0 ('"' :: ['a', '\\', '"', 'b'] ++ ['"']) = .ok [⟨.text "a\"b", ⟨0, 6⟩⟩] ∧
      Condition.holds quoteRoom.world (equation "x" ('"' :: ['a', '\\', '"', 'b'] ++ ['"'])) =
        .ok false :=
  ⟨rfl, rfl, rfl, rfl⟩

end Storyworld.Script
