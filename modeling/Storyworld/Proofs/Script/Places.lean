import Storyworld.Proofs.Script.Bytes.Cursor
import Storyworld.Proofs.Script.Eagerness
import Storyworld.Proofs.Script.Escaping

/-! # Where tokens stand

The words of a source stand in it one behind the other, with nothing but blanks around them: `Laid`
says so by going through the source, and `Laid.covers` by the places of the words. Both scanners find
words that are laid out so (`Condition.Scans.laid`, `Expression.Scans.laid`), and each token is read
from the word at its place.
-/

namespace Storyworld.Script

/-! ## Texts at places -/

/-- A text stands at a place of a longer one that begins at a byte. -/
def StandsAt (start : Nat) (cs : List Char) (s : Span) (text : List Char) : Prop :=
  ∃ before after, cs = before ++ text ++ after ∧ s = spanFrom (start + byteSize before) text

theorem standsAt_zero_iff {cs text : List Char} {s : Span} :
    StandsAt 0 cs s text ↔ slice? cs s = some text := by
  simp only [StandsAt, Nat.zero_add, slice?_eq_some_iff]

theorem standsAt_front (start : Nat) (as bs : List Char) :
    StandsAt start (as ++ bs) (spanFrom start as) as :=
  ⟨[], bs, rfl, rfl⟩

theorem standsAt_self (start : Nat) (cs : List Char) : StandsAt start cs (spanFrom start cs) cs :=
  ⟨[], [], (List.append_nil cs).symm, rfl⟩

/-- What stands in a part of a text stands in the text. -/
theorem StandsAt.within {start : Nat} {cs text : List Char} {s : Span} (before : List Char)
    (h : StandsAt (start + byteSize before) cs s text) (after : List Char) :
    StandsAt start (before ++ cs ++ after) s text := by
  obtain ⟨front, back, rfl, rfl⟩ := h
  refine ⟨before ++ front, back ++ after, by simp, ?_⟩
  rw [byteSize_append, Nat.add_assoc]

theorem StandsAt.behind {start : Nat} {cs text : List Char} {s : Span} (before : List Char)
    (h : StandsAt (start + byteSize before) cs s text) : StandsAt start (before ++ cs) s text := by
  have hwithin := h.within before []
  rwa [List.append_nil] at hwithin

/-- A place in a text is between its ends. -/
theorem StandsAt.bounds {start : Nat} {cs text : List Char} {s : Span}
    (h : StandsAt start cs s text) : start ≤ s.start ∧ s.stop ≤ start + byteSize cs := by
  obtain ⟨before, after, rfl, rfl⟩ := h
  simp only [spanFrom, byteSize_append]
  omega

theorem StandsAt.start_lt_stop {start : Nat} {cs text : List Char} {s : Span}
    (h : StandsAt start cs s text) (hne : text ≠ []) : s.start < s.stop := by
  obtain ⟨before, after, -, rfl⟩ := h
  obtain ⟨c, rest, rfl⟩ := List.exists_cons_of_ne_nil hne
  have hpos := c.utf8Size_pos
  simp only [spanFrom, byteSize_cons]
  omega

/-! ## Words between blanks -/

/-- A word and its place. -/
abbrev Placed := Span × List Char

/-- Words of a source that begins at a byte, each in its place, with blanks around them. -/
inductive Laid : Nat → List Char → List Placed → Prop
  | nil (start : Nat) : Laid start [] []
  | blank {start : Nat} {c : Char} {cs : List Char} {words : List Placed}
      (hblank : Text.isBlank c = true) (after : Laid (start + c.utf8Size) cs words) :
      Laid start (c :: cs) words
  | word {start : Nat} {word rest : List Char} {words : List Placed} (hne : word ≠ [])
      (after : Laid (start + byteSize word) rest words) :
      Laid start (word ++ rest) ((spanFrom start word, word) :: words)

/-- Places in a source. Each can be cut out of it and is before the next, and nothing but blanks is
left outside of them. -/
structure Covers (cs : List Char) (spans : List Span) : Prop where
  cut : ∀ s ∈ spans, ∃ text, slice? cs s = some text ∧ text ≠ []
  inOrder : InOrder spans
  blank : ∀ before c after, cs = before ++ c :: after →
    (∀ s ∈ spans, byteSize before < s.start ∨ s.stop ≤ byteSize before) → Text.isBlank c = true

namespace Laid

variable {start : Nat} {cs : List Char} {words : List Placed}

theorem blanks {before : List Char} (hblank : before.all Text.isBlank = true)
    (h : Laid (start + byteSize before) cs words) : Laid start (before ++ cs) words := by
  induction before generalizing start with
  | nil => exact h
  | cons c before ih =>
    obtain ⟨hc, hbefore⟩ := Bool.and_eq_true_iff.mp hblank
    rw [byteSize_cons, ← Nat.add_assoc] at h
    exact .blank hc (ih hbefore h)

theorem standsAt (h : Laid start cs words) {w : Placed} (hw : w ∈ words) :
    StandsAt start cs w.1 w.2 ∧ w.2 ≠ [] := by
  induction h with
  | nil => cases hw
  | @blank start c cs words hblank after ih =>
    obtain ⟨hstands, hne⟩ := ih hw
    exact ⟨StandsAt.behind [c] hstands, hne⟩
  | @word start word rest words hne after ih =>
    obtain rfl | hw := List.mem_cons.mp hw
    · exact ⟨standsAt_front start word rest, hne⟩
    · exact ⟨(ih hw).1.behind word, (ih hw).2⟩

theorem start_le (h : Laid start cs words) {w : Placed} (hw : w ∈ words) : start ≤ w.1.start :=
  (h.standsAt hw).1.bounds.1

theorem inOrder (h : Laid start cs words) : InOrder (words.map Prod.fst) := by
  induction h with
  | nil => exact .nil
  | blank _ _ ih => exact ih
  | word hne after ih => exact .cons (List.forall_mem_map.mpr fun w hw => after.start_le hw) ih

/-- A character outside of all words is blank. -/
theorem isBlank (h : Laid start cs words) {before after : List Char} {c : Char}
    (hcs : cs = before ++ c :: after)
    (houtside : ∀ w ∈ words, start + byteSize before < w.1.start ∨
      w.1.stop ≤ start + byteSize before) : Text.isBlank c = true := by
  induction h generalizing before with
  | nil =>
    cases before <;> cases hcs
  | @blank start d cs words hblank _ ih =>
    cases before with
    | nil =>
      cases hcs
      exact hblank
    | cons e before =>
      cases hcs
      rw [byteSize_cons, ← Nat.add_assoc] at houtside
      exact ih rfl houtside
  | @word start word rest words hne _ ih =>
    obtain ⟨hword, hwords⟩ := List.forall_mem_cons.mp houtside
    obtain ⟨front, rfl, hrest⟩ | ⟨back, rfl, hback⟩ := List.append_eq_append_iff.mp hcs
    · rw [byteSize_append, ← Nat.add_assoc] at hwords
      exact ih hrest hwords
    · cases back with
      | nil =>
        rw [List.append_nil] at ih
        exact @ih [] hback.symm hwords
      | cons d back =>
        -- the character stands inside of the word
        have hpos := d.utf8Size_pos
        simp only [spanFrom, byteSize_append, byteSize_cons] at hword
        omega

theorem covers (h : Laid 0 cs words) : Covers cs (words.map Prod.fst) where
  cut := by
    refine List.forall_mem_map.mpr fun w hw => ?_
    obtain ⟨hstands, hne⟩ := h.standsAt hw
    exact ⟨w.2, standsAt_zero_iff.mp hstands, hne⟩
  inOrder := h.inOrder
  blank := by
    intro before c after hcs houtside
    refine h.isBlank hcs fun w hw => ?_
    rw [Nat.zero_add]
    exact houtside w.1 (List.mem_map_of_mem hw)

end Laid

/-! ## Tokens of conditions -/

namespace Condition

/-- A token, as a word. -/
def placed (t : Spanned Token) : Placed :=
  (t.span, t.token.word)

theorem StartsWith.word_ne_nil {token : Token} {rest : List Char} (h : StartsWith token rest) :
    token.word ≠ [] :=
  List.ne_nil_of_length_pos h.length_pos

/-- A run of text does not start with a blank, so something is left of it. -/
theorem trimEnd_textRun_ne_nil {cs : List Char} (h : StartsRun cs) :
    Text.trimEnd (textRun none cs) ≠ [] := by
  cases h with
  | @cons c cs hblank hdelimiter hnot =>
    have hfront : [] ++ [c] <+: textRun none (c :: cs) := by
      rw [textRun, if_neg (by simp [hdelimiter])]
      split
      · split <;> simp
      · simp
    obtain ⟨more, hmore⟩ := Text.prefix_trimEnd hblank hfront
    rw [← hmore]
    simp

/-- The tokens of a condition are words with blanks around them. -/
theorem Scans.laid {start : Nat} {cs : List Char} {tokens : List (Spanned Token)}
    (h : Scans start cs tokens) : Laid start cs (tokens.map placed) := by
  induction h with
  | nil start => exact .nil start
  | blank hblank _ ih => exact .blank hblank ih
  | logic starts _ ih => exact .word starts.word_ne_nil ih
  | @run start cs rest tokens starts cut _ ih =>
    obtain ⟨blanks, hrun, hblanks⟩ := Text.exists_trimEnd (textRun none cs)
    have hbehind : Laid (start + byteSize (Text.trimEnd (textRun none cs))) (blanks ++ rest)
        (tokens.map placed) := by
      refine .blanks hblanks ?_
      rwa [Nat.add_assoc, ← byteSize_append, ← hrun]
    have hword := Laid.word (trimEnd_textRun_ne_nil starts) hbehind
    rw [← List.append_assoc, ← hrun, cut] at hword
    simpa [placed, Token.word] using hword

end Condition

/-! ## Tokens of expressions -/

namespace Expression

/-- The tokens of an expression are words with blanks around them; a name is the word at its place. -/
theorem Scans.laid {start : Nat} {cs : List Char} {tokens : List (Spanned Token)}
    (h : Scans start cs tokens) : ∃ words, Laid start cs words ∧
      words.map Prod.fst = tokens.map (·.span) ∧
      ∀ path span, ⟨.name path, span⟩ ∈ tokens → (span, path.toList) ∈ words := by
  induction h with
  | nil start => exact ⟨[], .nil start, rfl, nofun⟩
  | blank hblank _ ih =>
    obtain ⟨words, hlaid, hspans, hnames⟩ := ih
    exact ⟨words, .blank hblank hlaid, hspans, hnames⟩
  | @token start c word rest t tokens hblank read _ ih =>
    obtain ⟨words, hlaid, hspans, hnames⟩ := ih
    refine ⟨(spanFrom start (c :: word), c :: word) :: words,
      .word (List.cons_ne_nil c word) hlaid, ?_, ?_⟩
    · rw [List.map_cons, List.map_cons, hspans]
    · intro path span hmem
      obtain heq | hmem := List.mem_cons.mp hmem
      · cases heq
        obtain ⟨-, hpath, hrest⟩ := nameRun_of_token read
        have hrun := (nameRun_spec (c :: (word ++ rest))).1
        rw [← hrest] at hrun
        have hword : nameRun (c :: (word ++ rest)) = c :: word :=
          List.append_cancel_right (hrun.trans List.cons_append.symm)
        rw [hpath, hword]
        exact List.mem_cons_self
      · exact List.mem_cons_of_mem _ (hnames path span hmem)

end Expression

end Storyworld.Script
