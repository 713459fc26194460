import Storyworld.Proofs.Script.Bytes.Cursor

/-! # Conditions are read by bytes

Reading a condition by bytes makes no cut off the characters of its source, and comes to what reading
it by characters comes to (`Condition.bytewiseParse_eq`).
-/

namespace Storyworld.Script

open Condition (isDelimiter isQuote)
open Bytewise Cursor

namespace Condition

/-- Of a run of text that waits for a partner, the first delimiter matters only where there is
none. -/
theorem runEnd_eq (cursor : Cursor) :
    (∀ held, runEnd none held cursor = cursor.drop (textRun none cursor.chars).length) ∧
      ∀ q held, runEnd (some q) held cursor =
        if q ∈ cursor.chars then cursor.drop (textRun (some q) cursor.chars).length
        else held.getD (cursor.drop (cursor.chars.takeWhile (!isDelimiter ·)).length) := by
  induction cursor with
  | nil =>
    refine ⟨fun held => ?_, fun q held => ?_⟩
    · cases held <;> rfl
    · cases held <;> rfl
  | cons here cursor ih =>
    obtain ⟨start, c⟩ := here
    obtain ⟨ihnone, ihsome⟩ := ih
    rw [chars_cons]
    refine ⟨fun held => ?_, fun q held => ?_⟩
    · rw [runEnd, textRun]
      cases hquote : isQuote c with
      | true =>
        rw [if_pos rfl, if_neg (by simp [isDelimiter_of_isQuote hquote]), if_pos rfl, ihsome]
        split <;> rfl
      | false =>
        rw [if_neg Bool.false_ne_true]
        split
        · rfl
        · rw [if_neg Bool.false_ne_true]
          exact ihnone held
    · rw [runEnd, textRun]
      by_cases hc : c = q
      · rw [if_pos hc, if_pos hc, if_pos (by simp [hc]), ihnone]
        rfl
      · have hmem : q ∈ c :: Cursor.chars cursor ↔ q ∈ Cursor.chars cursor := by
          simp [Ne.symm hc]
        rw [if_neg hc, if_neg hc, List.takeWhile_cons]
        simp only [hmem, List.length_cons, List.drop_succ_cons]
        cases hdelimiter : isDelimiter c <;> cases held <;> simp [ihsome]

theorem runEnd_ofText {cs rest : List Char} (h : textRun none cs ++ rest = cs) (start : Nat) :
    runEnd none none (ofText start cs) = ofText (start + byteSize (textRun none cs)) rest := by
  rw [(runEnd_eq _).1, chars_ofText]
  conv => enter [1, 2]; rw [← h]
  exact drop_ofText_append start (textRun none cs) rest

theorem mark?_eq_none {start : Nat} {c : Char} (hdelimiter : isDelimiter c = false) (hnot : c ≠ '!')
    (next : Option Char) : mark? start c next = .ok none := by
  unfold mark?
  split <;> first | rfl | exact absurd rfl hnot | cases hdelimiter

/-- A token of logic is found by its first two characters. -/
theorem logic?_eq_mark? (start : Nat) (c : Char) (cs : List Char) : logic? start (c :: cs) =
    (mark? start c cs.head?).map (Option.map fun (t, n) => (t, cs.drop (n - 1))) := by
  cases hdelimiter : isDelimiter c with
  | false =>
    by_cases hnot : c = '!'
    · subst hnot
      match cs with
      | [] => rfl
      | d :: cs =>
        by_cases hd : d = '='
        · subst hd
          rfl
        · simp [logic?, mark?, hd, Except.map]
    · rw [logic?_eq_none hdelimiter hnot, mark?_eq_none hdelimiter hnot]
      rfl
  | true =>
    simp only [isDelimiter, Bool.or_eq_true, beq_iff_eq] at hdelimiter
    obtain ((rfl | rfl) | rfl) | rfl := hdelimiter
    · rfl
    · rfl
    · match cs with
      | [] => rfl
      | d :: cs =>
        by_cases hd : d = '&'
        · subst hd
          rfl
        · simp [logic?, mark?, hd, Except.map]
    · match cs with
      | [] => rfl
      | d :: cs =>
        by_cases hd : d = '|'
        · subst hd
          rfl
        · simp [logic?, mark?, hd, Except.map]

theorem bytewiseScanFrom_logic {token : Token} {rest : List Char} (h : StartsWith token rest)
    (fuel : Nat) (before : List Char) :
    bytewiseScanFrom (before ++ (token.word ++ rest)) (fuel + 1)
        (ofText (byteSize before) (token.word ++ rest)) =
      bytewiseScanFrom (before ++ (token.word ++ rest)) fuel
        (ofText (byteSize before + byteSize token.word) rest) >>= fun tokens =>
          pure (⟨token, spanFrom (byteSize before) token.word⟩ :: tokens) := by
  have hlogic : logic? (byteSize before) (token.word ++ rest) = .ok (some (token, rest)) :=
    logic?_eq_ok_some_iff.mpr ⟨rfl, h⟩
  have hplace := place_behind before token.word rest
  obtain ⟨c, cs, hcs⟩ := List.exists_cons_of_length_pos (l := token.word ++ rest)
    (by rw [List.length_append]; exact Nat.lt_of_lt_of_le h.length_pos (Nat.le_add_right _ _))
  have hblank := h.isBlank hcs
  rw [hcs, logic?_eq_mark?] at hlogic
  obtain ⟨mark, hmark, hfound⟩ := Except.map_eq_ok hlogic
  obtain ⟨⟨t, n⟩, rfl, hpair⟩ := Option.map_eq_some_iff.mp hfound.symm
  obtain ⟨rfl, hrest⟩ := Prod.mk.inj hpair
  have hcursor : (ofText (byteSize before + c.utf8Size) cs).drop (n - 1) =
      ofText (byteSize before + byteSize t.word) rest := by
    have hword : t.word = c :: cs.take (n - 1) := by
      have happend : c :: cs.take (n - 1) ++ rest = c :: cs := by
        rw [← hrest, List.cons_append, List.take_append_drop]
      exact List.append_cancel_right (hcs.trans happend.symm)
    rw [drop_ofText, hrest, hword, byteSize_cons, Nat.add_assoc]
  rw [hcs] at hplace ⊢
  rw [ofText, bytewiseScanFrom, if_neg (by simp [hblank]), next?_ofText, hmark]
  simp only [of_ok_bind, hcursor, hplace]
  rfl

theorem bytewiseScanFrom_textRun {cs rest : List Char} (h : StartsRun cs)
    (hrun : textRun none cs ++ rest = cs) (fuel : Nat) (before : List Char) :
    bytewiseScanFrom (before ++ cs) (fuel + 1) (ofText (byteSize before) cs) =
      bytewiseScanFrom (before ++ cs) fuel
        (ofText (byteSize before + byteSize (textRun none cs)) rest) >>= fun tokens =>
          pure (⟨.atom (String.ofList (Text.trimEnd (textRun none cs))),
            spanFrom (byteSize before) (Text.trimEnd (textRun none cs))⟩ :: tokens) := by
  have hrest := runEnd_ofText hrun (byteSize before)
  have hplace := place_behind before (textRun none cs) rest
  have hcut : before ++ cs = before ++ textRun none cs ++ rest := by
    rw [List.append_assoc, hrun]
  rw [hrun] at hplace
  cases h with
  | @cons c cs hblank hdelimiter hnot =>
    have hlogic : logic? (byteSize before) (c :: cs) = .ok none :=
      logic?_eq_ok_none_iff.mpr ⟨hdelimiter, hnot⟩
    rw [logic?_eq_mark?] at hlogic
    obtain ⟨mark, hmark, hfound⟩ := Except.map_eq_ok hlogic
    obtain rfl := Option.map_eq_none_iff.mp hfound.symm
    rw [ofText] at hrest ⊢
    rw [bytewiseScanFrom, if_neg (by simp [hblank]), next?_ofText, hmark]
    simp only [of_ok_bind, hrest, hplace, cut_eq _ _ hcut rfl rfl]
    rfl

/-- **A condition is scanned by bytes** as it is by characters, and every cut can be made. -/
theorem bytewiseScanFrom_eq (fuel : Nat) (before cs : List Char) :
    bytewiseScanFrom (before ++ cs) fuel (ofText (byteSize before) cs) =
      .of (scanFrom fuel (byteSize before) cs) := by
  induction fuel generalizing before cs with
  | zero => cases cs <;> rfl
  | succ fuel ih =>
    have hbehind (word rest : List Char) : bytewiseScanFrom (before ++ (word ++ rest)) fuel
        (ofText (byteSize before + byteSize word) rest) =
          .of (scanFrom fuel (byteSize before + byteSize word) rest) := by
      have hrest := ih (before ++ word) rest
      rwa [List.append_assoc, byteSize_append] at hrest
    cases cs with
    | nil => rfl
    | cons c cs =>
      cases hblank : Text.isBlank c with
      | true =>
        rw [ofText, bytewiseScanFrom, scanFrom, if_pos hblank, if_pos hblank]
        exact hbehind [c] cs
      | false =>
        cases hlogic : logic? (byteSize before) (c :: cs) with
        | error e =>
          have hmark := hlogic
          rw [logic?_eq_mark?] at hmark
          rw [ofText, bytewiseScanFrom, scanFrom, if_neg (by simp [hblank]),
            if_neg (by simp [hblank]), hlogic, next?_ofText]
          cases hfound : mark? (byteSize before) c cs.head? with
          | ok mark =>
            rw [hfound] at hmark
            cases hmark
          | error e' =>
            rw [hfound] at hmark
            cases hmark
            rfl
        | ok logic =>
          cases logic with
          | some found =>
            obtain ⟨token, rest⟩ := found
            obtain ⟨hcs, starts⟩ := logic?_eq_ok_some_iff.mp hlogic
            rw [hcs, bytewiseScanFrom_logic starts, scanFrom_logic starts, hbehind, of_bind_pure]
          | none =>
            obtain ⟨hdelimiter, hnot⟩ := logic?_eq_ok_none_iff.mp hlogic
            have starts : StartsRun (c :: cs) := .cons hblank hdelimiter hnot
            obtain ⟨rest, hrun⟩ := textRun_isPrefix none (c :: cs)
            have hrest := hbehind (textRun none (c :: cs)) rest
            rw [hrun] at hrest
            rw [bytewiseScanFrom_textRun starts hrun, scanFrom_textRun starts hrun, hrest,
              of_bind_pure]

theorem bytewiseScan_eq (source : String) : bytewiseScan source = .of (scan source) :=
  bytewiseScanFrom_eq source.length [] source.toList

end Condition

namespace Atom

/-- An operator is found by its first two characters, which are as many bytes. -/
theorem operator?_of_sign? {c : Char} {cs : List Char} {op : Comparison} {n : Nat}
    (h : sign? c (cs.head? == some '=') = some (op, n)) :
    operator? (c :: cs) = some (op, cs.drop (n - 1)) ∧ byteSize (c :: cs.take (n - 1)) = n := by
  cases hnext : cs.head? == some '=' with
  | true =>
    rw [hnext] at h
    obtain ⟨cs, rfl⟩ := List.head?_eq_some_iff.mp (beq_iff_eq.mp hnext)
    unfold sign? at h
    split at h <;> cases h <;> first | exact ⟨rfl, rfl⟩ | contradiction
  | false =>
    rw [hnext] at h
    have hne : cs.head? ≠ some '=' := by simpa using hnext
    unfold sign? at h
    split at h <;> cases h <;> first | contradiction | refine ⟨?_, rfl⟩
    all_goals
      unfold operator?
      split <;> simp_all

theorem operator?_of_sign?_none {c : Char} {cs : List Char}
    (h : sign? c (cs.head? == some '=') = none) : operator? (c :: cs) = none := by
  cases hnext : cs.head? == some '=' <;>
  · rw [hnext] at h
    unfold operator?
    split <;> first | rfl | (rename_i heq; cases heq; first | exact absurd h (by decide) | simp at hnext)

/-- The first comparison operator is found at its byte. -/
theorem operatorAt?_ofText (start : Nat) (cs : List Char) : match divide? cs with
    | none => operatorAt? (ofText start cs) = none
    | some (left, op, right) => ∃ word, cs = left ++ word ++ right ∧
        operatorAt? (ofText start cs) = some (start + byteSize left, op, byteSize word) := by
  induction cs generalizing start with
  | nil => rfl
  | cons c cs ih =>
    have hrest := ih (start + c.utf8Size)
    rw [divide?, ofText, operatorAt?, next?_ofText]
    cases hsign : sign? c (cs.head? == some '=') with
    | some found =>
      obtain ⟨op, n⟩ := found
      obtain ⟨hop, hsize⟩ := operator?_of_sign? hsign
      rw [hop]
      refine ⟨c :: cs.take (n - 1), ?_, ?_⟩
      · simp
      · simp [hsize]
    | none =>
      rw [operator?_of_sign?_none hsign]
      cases hdivide : divide? cs with
      | none =>
        rw [hdivide] at hrest
        exact hrest
      | some found =>
        obtain ⟨left, op, right⟩ := found
        rw [hdivide] at hrest
        obtain ⟨word, rfl, hop⟩ := hrest
        refine ⟨word, rfl, ?_⟩
        rw [byteSize_cons, ← Nat.add_assoc]
        exact hop

theorem isCutOutBy_eq {quote : Char} (h : isQuote quote = true) (cs : List Char) :
    isCutOutBy quote cs = isQuotedBy quote cs := by
  unfold isCutOutBy isQuotedBy
  match cs with
  | [] => rfl
  | [c] =>
    by_cases hc : c = quote
    · obtain rfl | rfl := isQuote_iff.mp h <;> subst hc <;> rfl
    · simp [hc]
  | c :: d :: cs =>
    have hbytes : 2 ≤ byteSize (c :: d :: cs) := by
      have hc := c.utf8Size_pos
      have hd := d.utf8Size_pos
      simp only [byteSize_cons]
      omega
    have hlength : 2 ≤ (c :: d :: cs).length := Nat.le_add_left ..
    simp only [ge_iff_le, hbytes, hlength, decide_true]

/-- What stands between two quotes is cut out between their bytes. -/
theorem cut_of_isQuotedBy {quote : Char} (hquote : isQuote quote = true) {cs : List Char}
    (h : isQuotedBy quote cs = true) : cut cs 1 (byteSize cs - 1) = pure cs.tail.dropLast := by
  simp only [isQuotedBy, Bool.and_eq_true, decide_eq_true_eq, beq_iff_eq] at h
  obtain ⟨⟨hlength, hhead⟩, hlast⟩ := h
  obtain ⟨rest, rfl⟩ := List.head?_eq_some_iff.mp hhead
  have hne : rest ≠ [] := by
    rintro rfl
    simp at hlength
  obtain ⟨body, hbody⟩ := List.getLast?_eq_some_iff.mp (List.getLast?_cons_of_ne_nil hne ▸ hlast)
  subst hbody
  have hsize : quote.utf8Size = 1 := by obtain rfl | rfl := isQuote_iff.mp hquote <;> rfl
  refine cut_eq [quote] [quote] ?_ ?_ ?_
  · simp
  · simp [hsize]
  · simp only [byteSize_cons, byteSize_append, byteSize_nil, hsize, List.tail_cons,
      List.dropLast_concat]
    omega

theorem bytewiseLiteral_eq (cs : List Char) : bytewiseLiteral cs = pure (literal cs) := by
  unfold bytewiseLiteral literal
  rw [isCutOutBy_eq rfl, isCutOutBy_eq rfl]
  split
  · rename_i hquoted
    obtain h | h := Bool.or_eq_true_iff.mp hquoted
    · rw [cut_of_isQuotedBy rfl h]
      rfl
    · rw [cut_of_isQuotedBy rfl h]
      rfl
  · rfl

/-- **A test is read by bytes** as it is by characters, and every cut can be made. -/
theorem bytewiseParse_eq (text : String) (span : Span) :
    bytewiseParse text span = .of (parse text span) := by
  have hoperator := operatorAt?_ofText 0 text.toList
  unfold bytewiseParse parse
  cases hdivide : divide? text.toList with
  | none =>
    rw [hdivide] at hoperator
    simp only [hoperator]
    cases checkPath text span <;> rfl
  | some found =>
    obtain ⟨left, op, right⟩ := found
    rw [hdivide] at hoperator
    obtain ⟨word, htext, hoperator⟩ := hoperator
    have hleft : cut text.toList 0 (0 + byteSize left) = pure left :=
      cut_eq [] (word ++ right) (by simp [htext]) rfl rfl
    have hright : cut text.toList (0 + byteSize left + byteSize word) (byteSize text.toList) =
        pure right := by
      refine cut_eq (left ++ word) [] (by simp [htext]) ?_ ?_
      · simp
      · rw [htext, byteSize_append]
    simp only [hoperator, hleft, hright, bytewiseLiteral_eq, pure_bind]
    split
    · rfl
    split
    · rfl
    rw [Nat.zero_add, spanFrom]
    cases checkPath (String.ofList (Text.trim left)) ⟨span.start, span.start + byteSize left⟩ <;> rfl

end Atom

namespace Condition

theorem bytewiseInfixOf_eq (t : Spanned Token) : bytewiseInfixOf t = .of (infixOf t) := by
  obtain ⟨token, span⟩ := t
  cases token with
  | atom text =>
    simp only [bytewiseInfixOf, infixOf, Atom.bytewiseParse_eq]
    exact of_bind_pure _ _
  | opening | closing | and | or | not => rfl

/-- **A condition is read by bytes** as it is by characters, and every cut can be made. -/
theorem bytewiseParse_eq (source : String) : bytewiseParse source = .of (parse source) := by
  unfold bytewiseParse parse
  rw [bytewiseScan_eq]
  refine of_bind fun tokens => ?_
  split
  · rfl
  rw [mapM_of bytewiseInfixOf_eq]
  refine of_bind fun parts => of_bind fun program => ?_
  split <;> rfl

end Condition

end Storyworld.Script
