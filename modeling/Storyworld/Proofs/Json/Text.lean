import Mathlib.Data.List.DropRight
import Mathlib.Data.List.TakeDrop
import Mathlib.Data.Option.Basic
import Storyworld.Json.Reader
import Storyworld.Json.Writer
import Storyworld.Proofs.Number.Stored

/-! # What is written is read back

A tree of whole texts and proper numerals is `Plain`. In either style its text reads back as the same
tree: `parse?_write`. A numeral has no end of its own, so what follows it must not go on with it
(`Ends`); in a document that is a comma, a bracket or a break.
-/

namespace Storyworld.Json

/-! ## Texts -/

theorem hexValue?_hexDigit : ∀ n < 16, hexValue? (hexDigit n) = some n := by
  decide

/-- The piece that a character is read as once it has been escaped. -/
def pieceOf (c : Char) : Piece :=
  if c.toNat < 0x20 ∧ c ∉ ['\x08', '\x0c', '\n', '\r', '\t'] then .unit c.toNat else .char c

theorem pieces_cons {c : Char} (hquote : c ≠ '"') (hescape : c ≠ '\\') (hcontrol : 0x20 ≤ c.toNat)
    (cs : List Char) :
    pieces (c :: cs) = (pieces cs).map fun (ps, rest) => (.char c :: ps, rest) := by
  rw [pieces]
  · rw [guard, if_pos ⟨hcontrol, hescape⟩]
    cases pieces cs <;> rfl
  all_goals simp_all

theorem pieces_escape {e c : Char} (hunit : e ≠ 'u') (hescaped : escaped? e = some c)
    (cs : List Char) :
    pieces ('\\' :: e :: cs) = (pieces cs).map fun (ps, rest) => (.char c :: ps, rest) := by
  rw [pieces]
  · rw [hescaped]
    cases pieces cs <;> rfl
  · intro a b d f rest h
    exact absurd h hunit

theorem pieces_unit {h l : Nat} (hh : h < 16) (hl : l < 16) (cs : List Char) :
    pieces ('\\' :: 'u' :: '0' :: '0' :: hexDigit h :: hexDigit l :: cs) =
      (pieces cs).map fun (ps, rest) => (.unit (h * 16 + l) :: ps, rest) := by
  have hunit : hexUnit? '0' '0' (hexDigit h) (hexDigit l) = some (h * 16 + l) := by
    have hzero : hexValue? '0' = some 0 := by decide
    simp [hexUnit?, hzero, hexValue?_hexDigit h hh, hexValue?_hexDigit l hl]
  rw [pieces, hunit]
  cases pieces cs <;> rfl

/-- One escaped character is read as one piece. -/
theorem pieces_escapedChar (c : Char) (cs : List Char) :
    pieces (escapedChar c ++ cs) =
      (pieces cs).map fun (ps, rest) => (pieceOf c :: ps, rest) := by
  unfold escapedChar pieceOf
  by_cases hshort : c ∈ ['"', '\\', '\x08', '\x0c', '\n', '\r', '\t']
  · simp only [List.mem_cons, List.not_mem_nil, or_false] at hshort
    rcases hshort with rfl | rfl | rfl | rfl | rfl | rfl | rfl <;>
      exact pieces_escape (by decide) rfl cs
  · simp only [List.mem_cons, List.not_mem_nil, or_false, not_or] at hshort
    obtain ⟨hquote, hescape, h08, h0c, hn, hr, ht⟩ := hshort
    by_cases hcontrol : c.toNat < 0x20
    · simp only [hquote, hescape, h08, h0c, hn, hr, ht, hcontrol, if_false, if_true,
        List.mem_cons, List.not_mem_nil, or_false, not_false_eq_true, and_self,
        List.cons_append, List.nil_append]
      rw [pieces_unit (by omega) (by omega)]
      simp only [Nat.div_add_mod']
    · simp only [hquote, hescape, h08, h0c, hn, hr, ht, hcontrol, if_false, false_and,
        List.cons_append, List.nil_append]
      exact pieces_cons hquote hescape (Nat.not_lt.mp hcontrol) cs

theorem join_pieceOf (c : Char) (ps : List Piece) :
    join (pieceOf c :: ps) = (join ps).map (c :: ·) := by
  unfold pieceOf
  split
  · rename_i h
    -- a control character is no half of a surrogate pair
    have hhigh : ¬(0xD800 ≤ c.toNat ∧ c.toNat ≤ 0xDBFF) := by omega
    have hlow : ¬(0xDC00 ≤ c.toNat ∧ c.toNat ≤ 0xDFFF) := by omega
    rw [join.eq_def]
    dsimp only
    rw [if_neg hhigh, if_neg hlow, Char.ofNat_toNat]
  · rw [join]

theorem pieces_escaped (cs rest : List Char) :
    pieces (cs.flatMap escapedChar ++ '"' :: rest) = some (cs.map pieceOf, rest) := by
  induction cs with
  | nil => rfl
  | cons c cs ih =>
    rw [List.flatMap_cons, List.append_assoc, pieces_escapedChar, ih]
    rfl

theorem join_map_pieceOf (cs : List Char) : join (cs.map pieceOf) = some cs := by
  induction cs with
  | nil => rfl
  | cons c cs ih =>
    rw [List.map_cons, join_pieceOf, ih]
    rfl

/-- A quoted text reads back, whatever follows. -/
theorem quoted_quote (s : String) (rest : List Char) :
    ∃ cs, quote s ++ rest = '"' :: cs ∧ quoted cs = some (some s, rest) := by
  refine ⟨s.toList.flatMap escapedChar ++ '"' :: rest, by simp [quote], ?_⟩
  rw [quoted, pieces_escaped]
  simp [join_map_pieceOf]

/-! ## Numbers -/

/-- Whether what follows a numeral does not go on with it. -/
def Ends (rest : List Char) : Prop :=
  ∀ c ∈ rest.head?, c.isDigit = false ∧ c ≠ '.' ∧ c ≠ 'e' ∧ c ≠ 'E'

theorem digits1_append {ds rest : List Char} (hne : ds ≠ [])
    (hds : ∀ c ∈ ds, c.isDigit = true) (hrest : ∀ c ∈ rest.head?, c.isDigit = false) :
    digits1 (ds ++ rest) = some (ds, rest) := by
  have hspan : (ds ++ rest).span Char.isDigit = (ds, rest) := by
    rw [List.span_eq_takeWhile_dropWhile]
    have htake : (ds ++ rest).takeWhile Char.isDigit = ds := by
      rw [List.takeWhile_append_of_pos hds]
      cases rest with
      | nil => simp
      | cons c rest => simp [hrest c rfl]
    have hdrop : (ds ++ rest).dropWhile Char.isDigit = rest := by
      rw [List.dropWhile_append_of_pos hds]
      cases rest with
      | nil => rfl
      | cons c rest => simp [hrest c rfl]
    rw [htake, hdrop]
  unfold digits1
  rw [hspan]
  simp [hne]

theorem wholePart_append {ds rest : List Char} (h : Number.IsWhole ds)
    (hrest : ∀ c ∈ rest.head?, c.isDigit = false) :
    wholePart (ds ++ rest) = some (ds, rest) := by
  rcases h with rfl | ⟨⟨c, cs, rfl, hc⟩, hds⟩
  · rfl
  · have hdigits := digits1_append (List.cons_ne_nil c cs) hds hrest
    rw [List.cons_append] at hdigits ⊢
    rw [wholePart]
    · exact hdigits
    · intro cs' h
      cases h
      exact hc rfl

theorem fractionPart_append {fraction rest : List Char}
    (hfraction : ∀ c ∈ fraction, c.isDigit = true)
    (hrest : ∀ c ∈ rest.head?, c.isDigit = false ∧ c ≠ '.') :
    fractionPart ((if fraction.isEmpty then [] else '.' :: fraction) ++ rest) =
      some (fraction, rest) := by
  cases fraction with
  | nil =>
    cases rest with
    | nil => rfl
    | cons c rest =>
      have hpoint : c ≠ '.' := (hrest c rfl).2
      simp only [List.isEmpty_nil, if_true, List.nil_append]
      rw [fractionPart]
      intro cs h
      cases h
      exact hpoint rfl
  | cons c cs =>
    exact digits1_append (List.cons_ne_nil c cs) hfraction fun d hd => (hrest d hd).1

theorem exponentPart_append (exponent : Option Int) {rest : List Char} (hrest : Ends rest) :
    exponentPart (Number.exponentText exponent ++ rest) = some (exponent, rest) := by
  cases exponent with
  | none =>
    cases rest with
    | nil => rfl
    | cons c rest =>
      have hc := hrest c rfl
      simp [Number.exponentText, exponentPart, hc.2.2.1, hc.2.2.2]
  | some e =>
    have hdigits := digits1_append (Nat.toDigits_ne_nil (b := 10) (n := e.natAbs))
      (fun c hc => Number.isDigit_toDigits hc) fun c hc => (hrest c hc).1
    by_cases hneg : e < 0
    · have he : -(Number.wholeFrom 0 (Nat.toDigits 10 e.natAbs) : Int) = e := by
        rw [Number.wholeFrom_toDigits]
        omega
      simp [Number.exponentText, exponentPart, hneg, hdigits, he]
    · have he : (Number.wholeFrom 0 (Nat.toDigits 10 e.natAbs) : Int) = e := by
        rw [Number.wholeFrom_toDigits]
        omega
      simp [Number.exponentText, exponentPart, hneg, hdigits, he]

theorem exponentText_head {exponent : Option Int} {rest : List Char} (hrest : Ends rest) :
    ∀ c ∈ (Number.exponentText exponent ++ rest).head?, c.isDigit = false ∧ c ≠ '.' := by
  cases exponent with
  | none => exact fun c hc => ⟨(hrest c hc).1, (hrest c hc).2.1⟩
  | some e =>
    intro c hc
    cases hc
    decide

theorem unsigned_text {n : Number.Numeral} (h : n.Proper) {rest : List Char} (hrest : Ends rest) :
    unsigned n.negative (n.whole ++ ((if n.fraction.isEmpty then [] else '.' :: n.fraction) ++
      (Number.exponentText n.exponent ++ rest))) = some (n, rest) := by
  have hwhole : ∀ c ∈ ((if n.fraction.isEmpty then [] else '.' :: n.fraction) ++
      (Number.exponentText n.exponent ++ rest)).head?, c.isDigit = false := by
    split
    · exact fun c hc => (exponentText_head hrest c hc).1
    · intro c hc
      cases hc
      decide
  rw [unsigned, wholePart_append h.whole hwhole]
  simp only [Option.bind_eq_bind, Option.bind_some]
  rw [fractionPart_append h.fraction (exponentText_head hrest)]
  simp only [Option.bind_some]
  rw [exponentPart_append n.exponent hrest]
  rfl

/-- A proper numeral reads back where something follows that ends it. -/
theorem numeral_text {n : Number.Numeral} (h : n.Proper) {rest : List Char} (hrest : Ends rest) :
    numeral (n.text ++ rest) = some (n, rest) := by
  have hread := unsigned_text h hrest
  cases hnegative : n.negative with
  | true =>
    rw [hnegative] at hread
    simpa [Number.Numeral.text, hnegative, numeral] using hread
  | false =>
    rw [hnegative] at hread
    have hplain : n.text ++ rest = n.whole ++ ((if n.fraction.isEmpty then [] else
        '.' :: n.fraction) ++ (Number.exponentText n.exponent ++ rest)) := by
      simp [Number.Numeral.text, hnegative]
    rw [hplain]
    obtain ⟨c, cs, hcs, hc⟩ := h.whole.exists_cons
    rw [hcs, List.cons_append] at hread ⊢
    rw [numeral]
    · exact hread
    · intro cs' h
      cases h
      exact absurd hc (by decide)

/-! ## Space -/

theorem skipSpace_of_not {c : Char} (h : isSpace c = false) (cs : List Char) :
    skipSpace (c :: cs) = c :: cs := by
  simp [skipSpace, h]

theorem isSpace_of_mem_break {style : Style} {depth : Nat} {c : Char}
    (h : c ∈ style.break depth) : isSpace c = true := by
  cases style with
  | compact => cases h
  | indented =>
    rcases List.mem_cons.mp h with rfl | h
    · rfl
    · rw [List.eq_of_mem_replicate h]
      rfl

theorem skipSpace_append {sp : List Char} (h : ∀ c ∈ sp, isSpace c = true) (cs : List Char) :
    skipSpace (sp ++ cs) = skipSpace cs :=
  List.dropWhile_append_of_pos h

theorem skipSpace_break (style : Style) (depth : Nat) {c : Char} (hc : isSpace c = false)
    (cs : List Char) : skipSpace (style.break depth ++ c :: cs) = c :: cs :=
  (skipSpace_append (fun _ => isSpace_of_mem_break) _).trans (skipSpace_of_not hc cs)

theorem skipSpace_skipSpace (cs : List Char) : skipSpace (skipSpace cs) = skipSpace cs :=
  List.dropWhile_idempotent _ _

theorem value_skipSpace (fuel : Nat) (cs : List Char) :
    value fuel (skipSpace cs) = value fuel cs := by
  cases fuel with
  | zero => simp [value]
  | succ fuel => simp only [value, skipSpace_skipSpace]

theorem value_append {sp : List Char} (h : ∀ c ∈ sp, isSpace c = true) (fuel : Nat)
    (cs : List Char) : value fuel (sp ++ cs) = value fuel cs := by
  cases fuel with
  | zero => simp [value]
  | succ fuel => simp only [value, skipSpace_append h]

theorem Ends.cons {c : Char} (h : c.isDigit = false ∧ c ≠ '.' ∧ c ≠ 'e' ∧ c ≠ 'E')
    (cs : List Char) : Ends (c :: cs) := by
  intro d hd
  cases hd
  exact h

theorem Ends.break (style : Style) (depth : Nat) {c : Char}
    (h : c.isDigit = false ∧ c ≠ '.' ∧ c ≠ 'e' ∧ c ≠ 'E') (cs : List Char) :
    Ends (style.break depth ++ c :: cs) := by
  cases style with
  | compact => exact .cons h cs
  | indented => exact .cons (by decide) _

/-! ## Values -/

/-- A tree that a text can hold: its texts are whole and its numerals proper. -/
inductive Plain : Json → Prop
  | null : Plain .null
  | bool (b : Bool) : Plain (.bool b)
  | number {n : Number.Numeral} (proper : n.Proper) : Plain (.number n)
  | whole (s : String) : Plain (whole s)
  | array {js : List Json} (items : ∀ j ∈ js, Plain j) : Plain (.array js)
  | object {ms : List (Option String × Json)} (names : ∀ m ∈ ms, m.1.isSome = true)
      (values : ∀ m ∈ ms, Plain m.2) : Plain (.object ms)

/-- What a numeral starts with starts nothing else and is no space. -/
theorem numeral_head {n : Number.Numeral} (h : n.Proper) (rest : List Char) :
    ∃ c cs, n.text ++ rest = c :: cs ∧
      c ∉ [' ', '\t', '\n', '\r', '\x7b', '[', ']', '"', 't', 'f', 'n'] := by
  have hne : ([' ', '\t', '\n', '\r', '\x7b', '[', ']', '"', 't', 'f', 'n'].all
      (!·.isDigit)) = true := rfl
  cases hnegative : n.negative with
  | true =>
    exact ⟨'-', (n.text ++ rest).tail, by simp [Number.Numeral.text, hnegative], by decide⟩
  | false =>
    obtain ⟨c, cs, hcs, hc⟩ := h.whole.exists_cons
    refine ⟨c, (n.text ++ rest).tail, by simp [Number.Numeral.text, hnegative, hcs],
      fun hmem => ?_⟩
    have hno := List.all_eq_true.mp hne c hmem
    rw [hc] at hno
    cases hno

theorem value_number {n : Number.Numeral} (h : n.Proper) {rest : List Char} (hrest : Ends rest)
    (fuel : Nat) : value (fuel + 1) (n.text ++ rest) = some (.number n, rest) := by
  have hread := numeral_text h hrest
  obtain ⟨c, cs, hcs, hc⟩ := numeral_head h rest
  rw [hcs] at hread ⊢
  simp only [List.mem_cons, List.not_mem_nil, or_false, not_or] at hc
  have hspace : isSpace c = false := by simp [isSpace, hc]
  simp only [value, skipSpace_of_not hspace]
  split <;> simp_all

theorem length_write_pos {j : Json} (h : j.Plain) (style : Style) (depth : Nat) :
    0 < (write style depth j).length := by
  cases h with
  | null => exact Nat.zero_lt_succ _
  | bool b => cases b <;> exact Nat.zero_lt_succ _
  | number proper =>
    obtain ⟨c, cs, hcs, -⟩ := numeral_head proper []
    rw [List.append_nil] at hcs
    rw [write, hcs]
    exact Nat.zero_lt_succ _
  | whole s => exact Nat.zero_lt_succ _
  | @array js items => cases js <;> simp [write]
  | @object ms names values => cases ms <;> simp [write]

theorem write_head {j : Json} (h : j.Plain) (style : Style) (depth : Nat) (rest : List Char) :
    ∃ c cs, write style depth j ++ rest = c :: cs ∧ isSpace c = false ∧ c ≠ ']' := by
  cases h with
  | null => exact ⟨'n', _, rfl, by decide⟩
  | bool b =>
    cases b
    · exact ⟨'f', _, rfl, by decide⟩
    · exact ⟨'t', _, rfl, by decide⟩
  | number proper =>
    obtain ⟨c, cs, hcs, hc⟩ := numeral_head proper rest
    simp only [List.mem_cons, List.not_mem_nil, or_false, not_or] at hc
    exact ⟨c, cs, hcs, by simp [isSpace, hc], hc.2.2.2.2.2.2.1⟩
  | whole s => exact ⟨'"', _, rfl, by decide⟩
  | @array js items => cases js <;> exact ⟨'[', _, rfl, by decide⟩
  | @object ms names values => cases ms <;> exact ⟨'\x7b', _, rfl, by decide⟩

/-- What reads the text of a value, given fuel for it. -/
def Reads (style : Style) (j : Json) : Prop :=
  ∀ (depth fuel : Nat) (rest : List Char), Ends rest →
    2 * (write style depth j).length ≤ fuel →
      value fuel (write style depth j ++ rest) = some (j, rest)

/-- A list of items starts as its first item does. -/
theorem exists_writeItems {j : Json} (h : j.Plain) (style : Style) (depth : Nat) (js : List Json)
    (rest : List Char) :
    ∃ c cs, writeItems style depth (j :: js) ++ rest = style.break depth ++ c :: cs ∧
      isSpace c = false ∧ c ≠ ']' := by
  cases js with
  | nil =>
    obtain ⟨c, cs, hcs, hc⟩ := write_head h style depth rest
    exact ⟨c, cs, by rw [writeItems, List.append_assoc, hcs], hc⟩
  | cons k js =>
    obtain ⟨c, cs, hcs, hc⟩ :=
      write_head h style depth (',' :: writeItems style depth (k :: js) ++ rest)
    refine ⟨c, cs, ?_, hc⟩
    rw [writeItems, List.append_assoc, List.append_assoc, hcs]
    simp

theorem exists_writeMembers (style : Style) (depth : Nat) (m : Option String × Json)
    (ms : List (Option String × Json)) (rest : List Char) :
    ∃ cs, writeMembers style depth (m :: ms) ++ rest = style.break depth ++ '"' :: cs := by
  cases ms with
  | nil => exact ⟨_, by simp only [writeMembers, quote, List.append_assoc, List.cons_append]; rfl⟩
  | cons n ms =>
    exact ⟨_, by simp only [writeMembers, quote, List.append_assoc, List.cons_append]; rfl⟩

theorem items_write {style : Style} {j : Json} {js : List Json}
    (h : ∀ x ∈ j :: js, Reads style x) (depth outer : Nat) (rest : List Char) {fuel : Nat}
    (hfuel : 2 * (writeItems style depth (j :: js)).length < fuel) :
    items fuel (writeItems style depth (j :: js) ++ (style.break outer ++ ']' :: rest)) =
      some (j :: js, rest) := by
  induction js generalizing j fuel with
  | nil =>
    obtain ⟨fuel, rfl⟩ : ∃ f, fuel = f + 1 := ⟨fuel - 1, by omega⟩
    simp only [writeItems, List.length_append] at hfuel
    have hj := h j List.mem_cons_self depth fuel (style.break outer ++ ']' :: rest)
      (.break style outer (by decide) rest) (by omega)
    rw [writeItems, List.append_assoc, items, value_append (fun _ => isSpace_of_mem_break), hj]
    dsimp only
    rw [skipSpace_break style outer rfl]
    rfl
  | cons k js ih =>
    obtain ⟨fuel, rfl⟩ : ∃ f, fuel = f + 1 := ⟨fuel - 1, by omega⟩
    simp only [writeItems, List.length_append, List.length_cons] at hfuel
    have hlength : 2 * (writeItems style depth (k :: js)).length < fuel := by omega
    have hrest := ih (fun x hx => h x (List.mem_cons_of_mem _ hx)) hlength
    have hj := h j List.mem_cons_self depth fuel
      (',' :: (writeItems style depth (k :: js) ++ (style.break outer ++ ']' :: rest)))
      (.cons (by decide) _) (by omega)
    rw [writeItems, List.append_assoc, List.append_assoc, List.cons_append, items,
      value_append (fun _ => isSpace_of_mem_break), hj]
    · dsimp only
      rw [skipSpace_of_not rfl]
      change (items fuel _).map _ = _
      rw [hrest]
      rfl
    · simp

theorem exists_colon (style : Style) :
    ∃ sp, style.colon = ':' :: sp ∧ ∀ c ∈ sp, isSpace c = true := by
  cases style
  · exact ⟨[], rfl, fun _ hc => absurd hc List.not_mem_nil⟩
  · exact ⟨[' '], rfl, fun _ hc => List.mem_singleton.mp hc ▸ rfl⟩

/-- One member is read, and then what follows it decides. -/
theorem members_member {style : Style} {s : String} {j : Json} {depth fuel : Nat}
    {rest : List Char} {result : Option (List (Option String × Json) × List Char)}
    (hj : value fuel (write style depth j ++ rest) = some (j, rest))
    (hnext : (match skipSpace rest with
      | ',' :: cs => (members fuel cs).map fun (ms, rest) => ((some s, j) :: ms, rest)
      | '\x7d' :: cs => some ([(some s, j)], cs)
      | _ => none) = result) :
    members (fuel + 1) (style.break depth ++ quote s ++ style.colon ++ write style depth j ++ rest) =
      result := by
  obtain ⟨sp, hcolon, hsp⟩ := exists_colon style
  obtain ⟨cs, hquote, hquoted⟩ := quoted_quote s (':' :: (sp ++ (write style depth j ++ rest)))
  have htext : style.break depth ++ quote s ++ style.colon ++ write style depth j ++ rest =
      style.break depth ++ '"' :: cs := by
    rw [← hquote, hcolon]
    simp
  have hspace : isSpace ':' = false := rfl
  rw [htext]
  simp only [members, skipSpace_break style depth (c := '"') rfl, hquoted, skipSpace_of_not hspace,
    value_append hsp, hj]
  exact hnext

theorem members_write {style : Style} {m : Option String × Json} {ms : List (Option String × Json)}
    (names : ∀ x ∈ m :: ms, x.1.isSome = true) (h : ∀ x ∈ m :: ms, Reads style x.2)
    (depth outer : Nat) (rest : List Char) {fuel : Nat}
    (hfuel : 2 * (writeMembers style depth (m :: ms)).length < fuel) :
    members fuel (writeMembers style depth (m :: ms) ++ (style.break outer ++ '\x7d' :: rest)) =
      some (m :: ms, rest) := by
  induction ms generalizing m fuel with
  | nil =>
    obtain ⟨name, j⟩ := m
    obtain ⟨s, rfl⟩ := Option.isSome_iff_exists.mp (names _ List.mem_cons_self)
    obtain ⟨fuel, rfl⟩ : ∃ f, fuel = f + 1 := ⟨fuel - 1, by omega⟩
    simp only [writeMembers, List.length_append] at hfuel
    have hj := h _ List.mem_cons_self depth fuel (style.break outer ++ '\x7d' :: rest)
      (.break style outer (by decide) rest) (by dsimp only; omega)
    rw [writeMembers, Option.getD_some]
    refine members_member hj ?_
    rw [skipSpace_break style outer rfl]
    rfl
  | cons n ms ih =>
    obtain ⟨name, j⟩ := m
    obtain ⟨s, rfl⟩ := Option.isSome_iff_exists.mp (names _ List.mem_cons_self)
    obtain ⟨fuel, rfl⟩ : ∃ f, fuel = f + 1 := ⟨fuel - 1, by omega⟩
    simp only [writeMembers, List.length_append, List.length_cons] at hfuel
    have hlength : 2 * (writeMembers style depth (n :: ms)).length < fuel := by omega
    have hrest := ih (fun x hx => names x (List.mem_cons_of_mem _ hx))
      (fun x hx => h x (List.mem_cons_of_mem _ hx)) hlength
    have hj := h _ List.mem_cons_self depth fuel
      (',' :: (writeMembers style depth (n :: ms) ++ (style.break outer ++ '\x7d' :: rest)))
      (.cons (by decide) _) (by dsimp only; omega)
    rw [writeMembers, Option.getD_some, List.append_assoc, List.cons_append]
    · refine members_member hj ?_
      rw [skipSpace_of_not rfl]
      change (members fuel _).map _ = _
      rw [hrest]
      rfl
    · simp

theorem items_skipSpace (fuel : Nat) (cs : List Char) :
    items fuel (skipSpace cs) = items fuel cs := by
  cases fuel with
  | zero => simp [items]
  | succ fuel => simp only [items, value_skipSpace]

theorem members_skipSpace (fuel : Nat) (cs : List Char) :
    members fuel (skipSpace cs) = members fuel cs := by
  cases fuel with
  | zero => simp [members]
  | succ fuel => simp only [members, skipSpace_skipSpace]

theorem value_array {fuel : Nat} {cs rest : List Char} {js : List Json}
    (hopen : ∀ cs', skipSpace cs ≠ ']' :: cs') (h : items fuel cs = some (js, rest)) :
    value (fuel + 1) ('[' :: cs) = some (.array js, rest) := by
  have hspace : isSpace '[' = false := rfl
  rw [← items_skipSpace] at h
  simp only [value, skipSpace_of_not hspace]
  rw [h]
  rfl

theorem value_object {fuel : Nat} {cs rest : List Char} {ms : List (Option String × Json)}
    (hopen : ∀ cs', skipSpace cs ≠ '\x7d' :: cs') (h : members fuel cs = some (ms, rest)) :
    value (fuel + 1) ('\x7b' :: cs) = some (.object ms, rest) := by
  have hspace : isSpace '\x7b' = false := rfl
  rw [← members_skipSpace] at h
  simp only [value, skipSpace_of_not hspace]
  rw [h]
  rfl

theorem reads_of_succ {style : Style} {j : Json} (hj : j.Plain)
    (h : ∀ (depth fuel : Nat) (rest : List Char), Ends rest →
      2 * (write style depth j).length ≤ fuel + 1 →
        value (fuel + 1) (write style depth j ++ rest) = some (j, rest)) : Reads style j := by
  intro depth fuel rest hrest hfuel
  have hpos := length_write_pos hj style depth
  obtain ⟨fuel, rfl⟩ : ∃ f, fuel = f + 1 := ⟨fuel - 1, by omega⟩
  exact h depth fuel rest hrest hfuel

theorem reads_whole (style : Style) (s : String) : Reads style (whole s) := by
  refine reads_of_succ (.whole s) fun depth fuel rest _ _ => ?_
  obtain ⟨cs, hquote, hquoted⟩ := quoted_quote s rest
  have htext : write style depth (whole s) ++ rest = '"' :: cs := hquote
  rw [htext]
  change (quoted cs).map _ = _
  rw [hquoted]
  rfl

theorem reads_array {style : Style} {js : List Json} (items : ∀ j ∈ js, j.Plain)
    (h : ∀ j ∈ js, Reads style j) : Reads style (.array js) := by
  refine reads_of_succ (.array items) fun depth fuel rest _ hfuel => ?_
  cases js with
  | nil => rfl
  | cons j js =>
    simp only [write, List.length_append, List.length_cons] at hfuel
    have htext : write style depth (.array (j :: js)) ++ rest =
        '[' :: (writeItems style (depth + 1) (j :: js) ++ (style.break depth ++ ']' :: rest)) := by
      simp [write]
    rw [htext]
    refine value_array (fun cs' hclose => ?_) (items_write h (depth + 1) depth rest (by omega))
    -- the first item starts with something else than a closing bracket
    obtain ⟨c, cs, hcs, hspace, hc⟩ := exists_writeItems (items j List.mem_cons_self) style
      (depth + 1) js (style.break depth ++ ']' :: rest)
    rw [hcs, skipSpace_break style (depth + 1) hspace] at hclose
    cases hclose
    exact hc rfl

theorem reads_object {style : Style} {ms : List (Option String × Json)}
    (names : ∀ m ∈ ms, m.1.isSome = true) (values : ∀ m ∈ ms, m.2.Plain)
    (h : ∀ m ∈ ms, Reads style m.2) : Reads style (.object ms) := by
  refine reads_of_succ (.object names values) fun depth fuel rest _ hfuel => ?_
  cases ms with
  | nil => rfl
  | cons m ms =>
    simp only [write, List.length_append, List.length_cons] at hfuel
    have htext : write style depth (.object (m :: ms)) ++ rest =
        '\x7b' :: (writeMembers style (depth + 1) (m :: ms) ++
          (style.break depth ++ '\x7d' :: rest)) := by
      simp [write]
    rw [htext]
    refine value_object (fun cs' hclose => ?_)
      (members_write names h (depth + 1) depth rest (by omega))
    obtain ⟨cs, hcs⟩ := exists_writeMembers style (depth + 1) m ms
      (style.break depth ++ '\x7d' :: rest)
    rw [hcs, skipSpace_break style (depth + 1) rfl] at hclose
    cases hclose

/-- **The text of a plain tree reads as the tree**, where something follows that ends it. -/
theorem reads_of_plain {j : Json} (h : j.Plain) (style : Style) : Reads style j := by
  induction h with
  | null => exact reads_of_succ .null fun _ _ _ _ _ => rfl
  | bool b => exact reads_of_succ (.bool b) fun _ _ _ _ _ => by cases b <;> rfl
  | number proper =>
    exact reads_of_succ (.number proper) fun _ fuel _ hrest _ => value_number proper hrest fuel
  | whole s => exact reads_whole style s
  | array items ih => exact reads_array items ih
  | object names values ih => exact reads_object names values ih

/-- **What is written is read back**, in either style. -/
theorem parse?_write {j : Json} (h : j.Plain) (style : Style) :
    parse? (String.ofList (write style 0 j)) = some j := by
  have hread := reads_of_plain h style 0 (2 * (write style 0 j).length + 2) []
    (fun c hc => nomatch hc) (by omega)
  rw [List.append_nil] at hread
  unfold parse?
  rw [String.toList_ofList]
  dsimp only
  rw [hread]
  rfl

theorem parse?_pretty {j : Json} (h : j.Plain) : parse? j.pretty = some j :=
  parse?_write h .indented

theorem parse?_compact {j : Json} (h : j.Plain) : parse? j.compact = some j :=
  parse?_write h .compact

end Storyworld.Json
