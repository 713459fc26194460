import Storyworld.Proofs.Script.Bytes.Cursor

/-! # Assignments are read by bytes

The expression of a clause is read as a source of its own, and every place in it is moved to where
it stands in the script. All the same, reading by bytes makes no cut off the characters of the
script, and comes to what reading by characters comes to (`bytewiseParseAssignments_eq`).
-/

namespace Storyworld.Script

open Bytewise Cursor

/-! ## Expressions -/

namespace Expression

theorem byteSize_of_quotedText {quote : Char} {cs text rest : List Char}
    (h : quotedText quote cs = some (text, rest)) : byteSize rest ≤ byteSize cs := by
  obtain ⟨body, -, rfl⟩ := quotedText_eq_some h
  simp only [byteSize_append, byteSize_cons]
  omega

/-- What is left behind the closing quote, and more of the text before it. -/
theorem map_quotedText {quote : Char} {start size : Nat} (c : Char) (cs : List Char) :
    ((quotedText quote cs).map fun (text, rest) =>
        (text, ofText (start + size + (byteSize cs - byteSize rest)) rest)).map
      (fun (text, rest) => (c :: text, rest)) =
    ((quotedText quote cs).map fun (text, rest) => (c :: text, rest)).map fun (text, rest) =>
      (text, ofText (start + (size + byteSize cs - byteSize rest)) rest) := by
  cases h : quotedText quote cs with
  | none => rfl
  | some found =>
    obtain ⟨text, rest⟩ := found
    have hle := byteSize_of_quotedText h
    have hsize : start + size + (byteSize cs - byteSize rest) =
        start + (size + byteSize cs - byteSize rest) := by omega
    simp only [Option.map_some, hsize]

theorem quotedRest_plain {quote c : Char} (h : c ≠ '\\') (start : Nat) (cursor : Cursor) :
    quotedRest quote ((start, c) :: cursor) =
      if c = quote then some ([], cursor)
      else (quotedRest quote cursor).map fun (text, rest) => (c :: text, rest) := by
  rw [quotedRest]
  · exact fun _ hc => h hc
  · exact fun _ _ _ _ hc => h hc

/-- A quoted text is read by bytes. -/
theorem quotedRest_ofText (quote : Char) (start : Nat) (cs : List Char) :
    quotedRest quote (ofText start cs) = (quotedText quote cs).map fun (text, rest) =>
      (text, ofText (start + (byteSize cs - byteSize rest)) rest) := by
  fun_induction quotedText quote cs generalizing start with
  | case1 | case2 => rfl
  | case3 c cs ih =>
    rw [ofText, ofText, quotedRest, ih, Nat.add_assoc, map_quotedText, byteSize_cons, byteSize_cons,
      Nat.add_assoc]
  | case4 cs hlast hmore =>
    have hplain : quote ≠ '\\' := by
      intro hc
      cases cs with
      | nil => exact hlast hc rfl
      | cons d cs => exact hmore d cs hc rfl
    rw [ofText, quotedRest_plain hplain, if_pos rfl, Option.map_some]
    simp only [byteSize_cons, Nat.add_sub_cancel_right]
  | case5 c cs hlast hmore hc ih =>
    have hplain : c ≠ '\\' := by
      intro hc
      cases cs with
      | nil => exact hlast hc rfl
      | cons d cs => exact hmore d cs hc rfl
    rw [ofText, quotedRest_plain hplain, if_neg hc, ih, map_quotedText, byteSize_cons]

/-- A number is taken by bytes. -/
theorem skip_number (cursor : Cursor) : cursor.skip (·.next?.any isNumberChar) =
    cursor.drop (cursor.chars.takeWhile isNumberChar).length := by
  induction cursor with
  | nil => rfl
  | cons here cursor ih =>
    obtain ⟨start, c⟩ := here
    rw [chars_cons, List.takeWhile_cons, skip]
    change (if isNumberChar c = true then _ else _) = _
    split
    · exact ih
    · rfl

theorem skip_name (cursor : Cursor) : cursor.skip (continuesName ·.chars) =
    cursor.drop (nameRun cursor.chars).length := by
  induction cursor with
  | nil => rfl
  | cons here cursor ih =>
    obtain ⟨start, c⟩ := here
    rw [chars_cons, nameRun, skip, chars_cons]
    split
    · exact ih
    · rfl

theorem bytewiseToken_eq (before : List Char) (c : Char) (cs : List Char) :
    bytewiseToken (before ++ c :: cs) (byteSize before) c (ofText (byteSize before + c.utf8Size) cs) =
      .of ((token (byteSize before) c cs).map fun (t, rest) =>
        (t, ofText (byteSize before + (byteSize (c :: cs) - byteSize rest)) rest)) := by
  have hcursor : (byteSize before, c) :: ofText (byteSize before + c.utf8Size) cs =
      ofText (byteSize before) (c :: cs) := rfl
  unfold bytewiseToken token
  rw [chars_ofText, hcursor]
  cases symbol? c with
  | some t =>
    simp only [Except.map, byteSize_cons, Nat.add_sub_cancel_right]
    rfl
  | none =>
    dsimp only
    split
    · rw [quotedRest_ofText]
      cases h : quotedText c cs with
      | none =>
        rw [byteSize_append]
        rfl
      | some found =>
        obtain ⟨text, rest⟩ := found
        have hle := byteSize_of_quotedText h
        have hsize : c.utf8Size + (byteSize cs - byteSize rest) =
            c.utf8Size + byteSize cs - byteSize rest := by omega
        simp only [Except.map, Option.map_some, byteSize_cons, Nat.add_assoc, hsize]
        rfl
    split
    · have hskip := skip_number (ofText (byteSize before) (c :: cs))
      have hcs : (c :: cs).takeWhile isNumberChar ++ (c :: cs).dropWhile isNumberChar = c :: cs :=
        List.takeWhile_append_dropWhile
      rw [chars_ofText] at hskip
      rw [taken_eq hcs hskip, pure_bind]
      dsimp only
      cases Number.ofText? ((c :: cs).takeWhile isNumberChar) with
      | none => rfl
      | some x =>
        simp only [Except.map, byteSize_sub hcs]
        rfl
    split
    · have hskip := skip_name (ofText (byteSize before) (c :: cs))
      have hcs := (nameRun_spec (c :: cs)).1
      rw [chars_ofText] at hskip
      rw [taken_eq hcs hskip, pure_bind]
      simp only [Except.map, byteSize_sub hcs]
      rfl
    · rfl

/-- **An expression is scanned by bytes** as it is by characters, and every cut can be made. -/
theorem bytewiseScanFrom_eq (fuel : Nat) (before cs : List Char) :
    bytewiseScanFrom (before ++ cs) fuel (ofText (byteSize before) cs) =
      .of (scanFrom fuel (byteSize before) cs) := by
  induction fuel generalizing before cs with
  | zero => cases cs <;> rfl
  | succ fuel ih =>
    cases cs with
    | nil => rfl
    | cons c cs =>
      rw [ofText, bytewiseScanFrom, scanFrom]
      split
      · have hrest := ih (before ++ [c]) cs
        rwa [List.append_assoc, byteSize_append] at hrest
      rw [bytewiseToken_eq]
      cases htoken : token (byteSize before) c cs with
      | error e => rfl
      | ok found =>
        obtain ⟨t, rest⟩ := found
        obtain ⟨word, rfl, -⟩ := token_closed htoken
        have hplace := place_behind before (c :: word) rest
        have hrest := ih (before ++ c :: word) rest
        have hsize : byteSize (c :: (word ++ rest)) - byteSize rest = byteSize (c :: word) :=
          byteSize_sub rfl
        rw [List.append_assoc, byteSize_append] at hrest
        rw [List.cons_append] at hplace hrest
        simp only [Except.map, of_ok_bind, hsize, hplace, hrest]
        exact of_bind_pure _ _

theorem bytewiseScan_eq (source : List Char) : bytewiseScan source = .of (scan 0 source) :=
  bytewiseScanFrom_eq source.length [] source

/-- **An expression is read by bytes** as it is by characters, and every cut can be made. -/
theorem bytewiseParse_eq (source : List Char) : bytewiseParse source = .of (parse 0 source) := by
  unfold bytewiseParse parse
  dsimp only
  split
  · rfl
  split
  · rfl
  rw [bytewiseScan_eq]
  refine of_bind fun tokens => ?_
  split
  · rw [spanFrom, Nat.zero_add]
    rfl
  refine of_bind fun program => ?_
  split <;> rfl

end Expression

/-! ## Assignments -/

theorem head?_separators (sep : Char) (q : Quoting) (start : Nat) (cs : List Char) :
    (separators sep q (ofText start cs)).head? =
      (divideOutside? sep q cs).map fun (left, _) => start + byteSize left := by
  induction cs generalizing q start with
  | nil => rfl
  | cons c cs ih =>
    rw [ofText, separators, divideOutside?]
    split
    · rfl
    · rw [ih, Option.map_map]
      refine congrArg (Option.map · _) (funext fun found => ?_)
      exact Nat.add_assoc ..

/-- The places of pieces of a script, the first of which begins at a byte; one byte separates two
pieces. -/
def placesOf (start : Nat) : List (List Char) → List Span
  | [] => []
  | piece :: pieces => spanFrom start piece :: placesOf (start + byteSize piece + 1) pieces

section

variable {sep : Char} (hsize : sep.utf8Size = 1)

include hsize

/-- Between separators stand the pieces; the first of them has begun already. -/
theorem placesBetween_separators (q : Quoting) (start here : Nat) (cs : List Char) :
    placesBetween sep (here + byteSize cs) start (separators sep q (ofText here cs)) =
      match splitOutside sep q cs with
      | [] => []
      | piece :: pieces =>
        ⟨start, here + byteSize piece⟩ :: placesOf (here + byteSize piece + 1) pieces := by
  induction cs generalizing q start here with
  | nil => rfl
  | cons c cs ih =>
    rw [ofText, separators, splitOutside, byteSize_cons, ← Nat.add_assoc]
    split
    · rename_i hc
      obtain ⟨rfl, rfl⟩ := hc
      obtain ⟨piece, pieces, hsplit⟩ := splitOutside_eq_cons c .outside cs
      rw [placesBetween, ih, hsplit, hsize]
      rfl
    · obtain ⟨piece, pieces, hsplit⟩ := splitOutside_eq_cons sep (q.step c) cs
      rw [ih, hsplit]
      simp only [byteSize_cons, Nat.add_assoc]

theorem placesBetween_eq (cs : List Char) :
    placesBetween sep (byteSize cs) 0 (separators sep .outside (ofText 0 cs)) =
      placesOf 0 (splitOutside sep .outside cs) := by
  have hplaces := placesBetween_separators hsize .outside 0 0 cs
  obtain ⟨piece, pieces, hsplit⟩ := splitOutside_eq_cons sep .outside cs
  rw [Nat.zero_add, hsplit] at hplaces
  rw [hplaces, hsplit]
  rfl

end

/-- Pieces with separators between them. -/
def joinPieces (sep : Char) : List (List Char) → List Char
  | [] => []
  | [piece] => piece
  | piece :: pieces => piece ++ sep :: joinPieces sep pieces

theorem joinPieces_cons {pieces : List (List Char)} (h : pieces ≠ []) (sep : Char)
    (piece : List Char) :
    joinPieces sep (piece :: pieces) = piece ++ sep :: joinPieces sep pieces := by
  cases pieces with
  | nil => exact absurd rfl h
  | cons next pieces => rfl

theorem exists_joinPieces_cons (sep : Char) (piece : List Char) (pieces : List (List Char)) :
    ∃ after, joinPieces sep (piece :: pieces) = piece ++ after := by
  cases pieces with
  | nil => exact ⟨[], (List.append_nil piece).symm⟩
  | cons next pieces => exact ⟨_, rfl⟩

theorem joinPieces_splitOutside (sep : Char) (q : Quoting) (cs : List Char) :
    joinPieces sep (splitOutside sep q cs) = cs := by
  induction cs generalizing q with
  | nil => rfl
  | cons c cs ih =>
    rw [splitOutside]
    split
    · rename_i hc
      obtain ⟨rfl, rfl⟩ := hc
      obtain ⟨piece, pieces, hsplit⟩ := splitOutside_eq_cons c .outside cs
      have hrest := ih .outside
      rw [hsplit] at hrest ⊢
      rw [joinPieces_cons (List.cons_ne_nil piece pieces), hrest]
      rfl
    · obtain ⟨piece, pieces, hsplit⟩ := splitOutside_eq_cons sep (q.step c) cs
      have hrest := ih (q.step c)
      rw [hsplit] at hrest ⊢
      cases pieces with
      | nil => exact congrArg (c :: ·) hrest
      | cons next pieces => exact congrArg (c :: ·) hrest
namespace Assignment

/-- **A clause is read by bytes** as it is by characters, and every cut can be made. -/
theorem bytewiseParse_eq (clause : List Char) (start : Nat) :
    bytewiseParse clause start = .of (parse start clause) := by
  unfold bytewiseParse parse
  rw [head?_separators]
  cases hdivide : divideOutside? '=' .outside clause with
  | none => rfl
  | some found =>
    obtain ⟨left, right⟩ := found
    obtain ⟨rfl, -⟩ := divideOutside?_eq_some hdivide
    have hleft : cut (left ++ '=' :: right) 0 (0 + byteSize left) = pure left :=
      cut_eq [] ('=' :: right) rfl rfl rfl
    have hright : cut (left ++ '=' :: right) (0 + byteSize left + 1)
        (byteSize (left ++ '=' :: right)) = pure right := by
      have hequals : '='.utf8Size = 1 := rfl
      refine cut_eq (left ++ ['=']) [] (by simp) ?_ ?_
      · simp [hequals]
      · simp [hequals, Nat.add_assoc]
    have hexpression := Expression.parse_add (start + (byteSize left + 1)) 0 right
    rw [Nat.zero_add, ← Nat.add_assoc] at hexpression
    dsimp only [Option.map_some]
    rw [hleft, pure_bind, hright, Nat.zero_add, pure_bind, hexpression, Expression.bytewiseParse_eq,
      adapt_of]
    split
    · rfl
    split
    · rfl
    rw [← Nat.add_assoc]
    cases Expression.parse 0 right <;> rfl

/-- Clauses are read by the places of their pieces. -/
theorem bytewiseParseAll_eq {sep : Char} (hsize : sep.utf8Size = 1) (before : List Char)
    (pieces : List (List Char)) :
    bytewiseParseAll (before ++ joinPieces sep pieces) (placesOf (byteSize before) pieces) =
      .of (parseAll (byteSize before) pieces) := by
  induction pieces generalizing before with
  | nil => rfl
  | cons piece pieces ih =>
    obtain ⟨after, hjoined, hafter⟩ : ∃ after, joinPieces sep (piece :: pieces) = piece ++ after ∧
        bytewiseParseAll (before ++ (piece ++ after))
          (placesOf (byteSize before + byteSize piece + 1) pieces) =
            .of (parseAll (byteSize before + byteSize piece + 1) pieces) := by
      cases pieces with
      | nil => exact ⟨[], (List.append_nil _).symm, rfl⟩
      | cons next pieces =>
        refine ⟨sep :: joinPieces sep (next :: pieces), rfl, ?_⟩
        have hrest := ih (before ++ piece ++ [sep])
        simpa [hsize, Nat.add_assoc] using hrest
    have hpiece : cut (before ++ (piece ++ after)) (byteSize before)
        (byteSize before + byteSize piece) = pure piece :=
      cut_eq _ _ (List.append_assoc ..).symm rfl rfl
    have hstart : byteSize piece - byteSize (Text.trimStart piece) =
        byteSize (piece.takeWhile Text.isBlank) := byteSize_sub List.takeWhile_append_dropWhile
    rw [hjoined, placesOf, bytewiseParseAll, parseAll, spanFrom, hpiece, pure_bind]
    simp only [hstart, hafter, bytewiseParse_eq]
    change (if (Text.trim piece).isEmpty then _ else _) = _
    split
    · rfl
    · exact of_bind fun first => of_bind fun others => rfl

end Assignment

/-- **A script is read by bytes** as it is by characters, and every cut can be made. -/
theorem bytewiseParseAssignments_eq (source : String) :
    bytewiseParseAssignments source = .of (parseAssignments source) := by
  have hsize : ';'.utf8Size = 1 := rfl
  have hparse := Assignment.bytewiseParseAll_eq hsize []
    (splitOutside ';' .outside source.toList)
  rw [List.nil_append, joinPieces_splitOutside] at hparse
  unfold bytewiseParseAssignments
  dsimp only
  rw [placesBetween_eq rfl]
  exact hparse

end Storyworld.Script
