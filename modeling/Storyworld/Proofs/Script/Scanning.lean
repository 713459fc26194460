import Storyworld.Proofs.Script.Literal

/-! # Conditions in parentheses are scanned as they are alone

`Scans` is what scanning a condition comes to, without its bound. A text keeps its tokens where a
closing parenthesis and more follows (`Scans.append`), unless it has a quote without a partner that
finds one in what follows: then a run of text goes on beyond the end of the text (`Scans.overrun`).
-/

namespace Storyworld.Script

/-! ## Places further on -/

/-- The place a number of bytes further on. -/
def Span.shift (n : Nat) (s : Span) : Span :=
  ⟨s.start + n, s.stop + n⟩

theorem spanFrom_add (start n : Nat) (cs : List Char) :
    spanFrom (start + n) cs = (spanFrom start cs).shift n := by
  simp only [spanFrom, Span.shift, Span.mk.injEq, true_and]
  omega

/-- A token a number of bytes further on. -/
def Spanned.shift {τ : Type} (n : Nat) (t : Spanned τ) : Spanned τ :=
  ⟨t.token, t.span.shift n⟩

namespace Condition

/-! ## Scanning as a relation -/

/-- What a token is written as. -/
def Token.word : Token → List Char
  | opening => ['(']
  | closing => [')']
  | and => ['&', '&']
  | or => ['|', '|']
  | not => ['!']
  | atom text => text.toList

/-- A token of logic may stand in front of a text. An exclamation mark belongs to the equals sign
behind it. -/
inductive StartsWith : Token → List Char → Prop
  | opening (rest : List Char) : StartsWith .opening rest
  | closing (rest : List Char) : StartsWith .closing rest
  | and (rest : List Char) : StartsWith .and rest
  | or (rest : List Char) : StartsWith .or rest
  | not {rest : List Char} (alone : rest.head? ≠ some '=') : StartsWith .not rest

/-- A run of text starts a source. -/
inductive StartsRun : List Char → Prop
  | cons {c : Char} {cs : List Char} (hblank : Text.isBlank c = false)
      (hdelimiter : isDelimiter c = false) (hnot : c = '!' → cs.head? = some '=') :
      StartsRun (c :: cs)

/-- The tokens of a source that begins at a byte. -/
inductive Scans : Nat → List Char → List (Spanned Token) → Prop
  | nil (start : Nat) : Scans start [] []
  | blank {start : Nat} {c : Char} {cs : List Char} {tokens : List (Spanned Token)}
      (hblank : Text.isBlank c = true) (after : Scans (start + c.utf8Size) cs tokens) :
      Scans start (c :: cs) tokens
  | logic {start : Nat} {token : Token} {rest : List Char} {tokens : List (Spanned Token)}
      (starts : StartsWith token rest) (after : Scans (start + byteSize token.word) rest tokens) :
      Scans start (token.word ++ rest) (⟨token, spanFrom start token.word⟩ :: tokens)
  | run {start : Nat} {cs rest : List Char} {tokens : List (Spanned Token)}
      (starts : StartsRun cs) (cut : textRun none cs ++ rest = cs)
      (after : Scans (start + byteSize (textRun none cs)) rest tokens) :
      Scans start cs (⟨.atom (String.ofList (Text.trimEnd (textRun none cs))),
        spanFrom start (Text.trimEnd (textRun none cs))⟩ :: tokens)

theorem logic?_eq_ok_some_iff {start : Nat} {cs rest : List Char} {token : Token} :
    logic? start cs = .ok (some (token, rest)) ↔
      cs = token.word ++ rest ∧ StartsWith token rest := by
  constructor
  · intro h
    unfold logic? at h
    split at h <;> cases h
    case h_1 => exact ⟨rfl, .opening _⟩
    case h_2 => exact ⟨rfl, .closing _⟩
    case h_3 => exact ⟨rfl, .and _⟩
    case h_4 => exact ⟨rfl, .or _⟩
    case h_8 hne =>
      refine ⟨rfl, .not fun hhead => ?_⟩
      obtain ⟨cs, rfl⟩ := List.head?_eq_some_iff.mp hhead
      exact hne cs rfl
  · rintro ⟨rfl, starts⟩
    cases starts with
    | opening | closing | and | or => rfl
    | not alone =>
      rw [Token.word, List.singleton_append, logic?]
      rintro cs rfl
      exact alone rfl

theorem logic?_eq_ok_none_iff {start : Nat} {c : Char} {cs : List Char} :
    logic? start (c :: cs) = .ok none ↔
      isDelimiter c = false ∧ (c = '!' → cs.head? = some '=') := by
  constructor
  · intro h
    refine ⟨?_, ?_⟩
    · rw [← Bool.not_eq_true]
      exact fun hdelimiter => logic?_ne_none hdelimiter cs h
    · rintro rfl
      by_contra hhead
      have hnot : logic? start (Token.not.word ++ cs) = .ok (some (.not, cs)) :=
        logic?_eq_ok_some_iff.mpr ⟨rfl, .not hhead⟩
      rw [Token.word, List.singleton_append, h] at hnot
      cases hnot
  · rintro ⟨hdelimiter, hnot⟩
    by_cases hc : c = '!'
    · subst hc
      obtain ⟨cs, rfl⟩ := List.head?_eq_some_iff.mp (hnot rfl)
      rfl
    · exact logic?_eq_none hdelimiter hc cs

theorem length_textRun_pos {cs : List Char} (h : StartsRun cs) : 0 < (textRun none cs).length := by
  cases h with
  | cons hblank hdelimiter hnot =>
    rw [textRun, if_neg (by simp [hdelimiter])]
    split
    · split <;> exact Nat.succ_pos _
    · exact Nat.succ_pos _

theorem drop_textRun {quote : Option Char} {cs rest : List Char}
    (h : textRun quote cs ++ rest = cs) : cs.drop (textRun quote cs).length = rest := by
  have hdrop : (textRun quote cs ++ rest).drop (textRun quote cs).length = rest := List.drop_left
  rwa [h] at hdrop

theorem StartsWith.length_pos {token : Token} {rest : List Char} (h : StartsWith token rest) :
    0 < token.word.length := by
  cases h <;> decide

theorem StartsWith.isBlank {token : Token} {rest : List Char} (h : StartsWith token rest)
    {c : Char} {cs : List Char} (hcs : token.word ++ rest = c :: cs) : Text.isBlank c = false := by
  cases h <;> cases hcs <;> decide

theorem scanFrom_logic {token : Token} {rest : List Char} (h : StartsWith token rest)
    (fuel start : Nat) : scanFrom (fuel + 1) start (token.word ++ rest) =
      (scanFrom fuel (start + byteSize token.word) rest).map
        (⟨token, spanFrom start token.word⟩ :: ·) := by
  have hlogic : logic? start (token.word ++ rest) = .ok (some (token, rest)) :=
    logic?_eq_ok_some_iff.mpr ⟨rfl, h⟩
  have hsize : byteSize (token.word ++ rest) - byteSize rest = byteSize token.word := by
    rw [byteSize_append]
    omega
  obtain ⟨c, cs, hcs⟩ := List.exists_cons_of_length_pos (l := token.word ++ rest)
    (by rw [List.length_append]; exact Nat.lt_of_lt_of_le h.length_pos (Nat.le_add_right _ _))
  have hblank := h.isBlank hcs
  rw [hcs] at hlogic hsize ⊢
  rw [scanFrom, if_neg (by simp [hblank]), hlogic]
  simp only [hsize]
  rfl

theorem scanFrom_textRun {cs rest : List Char} (h : StartsRun cs)
    (cut : textRun none cs ++ rest = cs) (fuel start : Nat) : scanFrom (fuel + 1) start cs =
      (scanFrom fuel (start + byteSize (textRun none cs)) rest).map
        (⟨.atom (String.ofList (Text.trimEnd (textRun none cs))),
          spanFrom start (Text.trimEnd (textRun none cs))⟩ :: ·) := by
  cases h with
  | cons hblank hdelimiter hnot =>
    rw [scanFrom, if_neg (by simp [hblank]), logic?_eq_ok_none_iff.mpr ⟨hdelimiter, hnot⟩]
    simp only [drop_textRun cut]

/-- **Scanning a source** within its bound comes to its tokens. -/
theorem scanFrom_eq_ok_iff {fuel start : Nat} {cs : List Char} {tokens : List (Spanned Token)}
    (hfuel : cs.length ≤ fuel) : scanFrom fuel start cs = .ok tokens ↔ Scans start cs tokens := by
  constructor
  · intro h
    induction fuel generalizing start cs tokens with
    | zero =>
      obtain rfl := List.length_eq_zero_iff.mp (Nat.le_zero.mp hfuel)
      cases h
      exact .nil start
    | succ fuel ih =>
      cases cs with
      | nil =>
        cases h
        exact .nil start
      | cons c cs =>
        cases hblank : Text.isBlank c with
        | true =>
          rw [scanFrom, if_pos hblank] at h
          exact .blank hblank (ih (Nat.le_of_succ_le_succ hfuel) h)
        | false =>
          cases hlogic : logic? start (c :: cs) with
          | error e =>
            rw [scanFrom, if_neg (by simp [hblank]), hlogic] at h
            cases h
          | ok logic =>
            cases logic with
            | some logic =>
              obtain ⟨hcs, starts⟩ := logic?_eq_ok_some_iff.mp hlogic
              rw [hcs, scanFrom_logic starts] at h
              obtain ⟨tokens', hscan, rfl⟩ := Except.map_eq_ok h
              have hpos := starts.length_pos
              rw [hcs, List.length_append] at hfuel
              rw [hcs]
              exact .logic starts (ih (by omega) hscan)
            | none =>
              obtain ⟨hdelimiter, hnot⟩ := logic?_eq_ok_none_iff.mp hlogic
              have starts : StartsRun (c :: cs) := .cons hblank hdelimiter hnot
              obtain ⟨rest, cut⟩ := textRun_isPrefix none (c :: cs)
              rw [scanFrom_textRun starts cut] at h
              obtain ⟨tokens', hscan, rfl⟩ := Except.map_eq_ok h
              have hpos := length_textRun_pos starts
              have hlength := congrArg List.length cut
              rw [List.length_append] at hlength
              exact .run starts cut (ih (by omega) hscan)
  · intro h
    induction h generalizing fuel with
    | nil start => cases fuel <;> rfl
    | blank hblank after ih =>
      obtain ⟨fuel, rfl⟩ := Nat.exists_eq_add_one_of_ne_zero (Nat.ne_zero_of_lt hfuel)
      rw [scanFrom, if_pos hblank]
      exact ih (Nat.le_of_succ_le_succ hfuel)
    | logic starts after ih =>
      have hpos := starts.length_pos
      rw [List.length_append] at hfuel
      obtain ⟨fuel, rfl⟩ := Nat.exists_eq_add_one_of_ne_zero (n := fuel) (by omega)
      rw [scanFrom_logic starts, ih (by omega)]
      rfl
    | run starts cut after ih =>
      have hpos := length_textRun_pos starts
      have hlength := congrArg List.length cut
      rw [List.length_append] at hlength
      obtain ⟨fuel, rfl⟩ := Nat.exists_eq_add_one_of_ne_zero (n := fuel) (by omega)
      rw [scanFrom_textRun starts cut, ih (by omega)]
      rfl

theorem scan_eq_ok_iff {source : String} {tokens : List (Spanned Token)} :
    scan source = .ok tokens ↔ Scans 0 source.toList tokens :=
  scanFrom_eq_ok_iff (Nat.le_of_eq String.length_toList)

namespace Scans

variable {start : Nat} {cs rest : List Char} {tokens : List (Spanned Token)}

/-! A source has one list of tokens, so a way to begin with one is the only way. -/

theorem of_blank {c : Char} (hblank : Text.isBlank c = true) (h : Scans start (c :: cs) tokens) :
    Scans (start + c.utf8Size) cs tokens := by
  have hscan := (scanFrom_eq_ok_iff (Nat.le_refl _)).mpr h
  rw [List.length_cons, scanFrom, if_pos hblank] at hscan
  exact (scanFrom_eq_ok_iff (Nat.le_refl _)).mp hscan

theorem of_logic {token : Token} (starts : StartsWith token rest)
    (h : Scans start (token.word ++ rest) tokens) :
    ∃ tokens', tokens = ⟨token, spanFrom start token.word⟩ :: tokens' ∧
      Scans (start + byteSize token.word) rest tokens' := by
  have hscan := (scanFrom_eq_ok_iff (Nat.le_succ _)).mpr h
  rw [scanFrom_logic starts] at hscan
  obtain ⟨tokens', hafter, rfl⟩ := Except.map_eq_ok hscan
  exact ⟨tokens', rfl, (scanFrom_eq_ok_iff (by simp)).mp hafter⟩

theorem of_run (starts : StartsRun cs) (cut : textRun none cs ++ rest = cs)
    (h : Scans start cs tokens) :
    ∃ tokens', tokens = ⟨.atom (String.ofList (Text.trimEnd (textRun none cs))),
        spanFrom start (Text.trimEnd (textRun none cs))⟩ :: tokens' ∧
      Scans (start + byteSize (textRun none cs)) rest tokens' := by
  have hscan := (scanFrom_eq_ok_iff (Nat.le_succ _)).mpr h
  rw [scanFrom_textRun starts cut] at hscan
  obtain ⟨tokens', hafter, rfl⟩ := Except.map_eq_ok hscan
  have hlength := congrArg List.length cut
  rw [List.length_append] at hlength
  exact ⟨tokens', rfl, (scanFrom_eq_ok_iff (by omega)).mp hafter⟩

/-- Further on, the same tokens are scanned. -/
theorem shift (h : Scans start cs tokens) (n : Nat) :
    Scans (start + n) cs (tokens.map (Spanned.shift n)) := by
  induction h with
  | nil start => exact .nil _
  | blank hblank after ih =>
    rw [Nat.add_right_comm] at ih
    exact .blank hblank ih
  | logic starts after ih =>
    rw [Nat.add_right_comm] at ih
    have hlogic := Scans.logic starts ih
    rwa [spanFrom_add] at hlogic
  | run starts cut after ih =>
    rw [Nat.add_right_comm] at ih
    have hrun := Scans.run starts cut ih
    rwa [spanFrom_add] at hrun

end Scans

/-! ## Quotes without a partner -/

/-- Where in a source a character stands: outside of literals, inside one that a quote closes, or
behind a quote that has no partner, up to the next delimiter. -/
inductive Surroundings where
  | outside
  | inside (quote : Char)
  | behindUnpaired

/-- The quotes of a source outside of literals that have no partner behind them. -/
def unpairedFrom : Surroundings → List Char → List Char
  | _, [] => []
  | .outside, c :: cs =>
    if isQuote c then
      if c ∈ cs then unpairedFrom (.inside c) cs else c :: unpairedFrom .behindUnpaired cs
    else unpairedFrom .outside cs
  | .inside quote, c :: cs => unpairedFrom (if c = quote then .outside else .inside quote) cs
  | .behindUnpaired, c :: cs =>
    unpairedFrom (if isDelimiter c then .outside else .behindUnpaired) cs

/-- The quotes of a condition that have no partner in it. -/
def unpaired (source : String) : List Char :=
  unpairedFrom .outside source.toList

/-- No quote without a partner in the first text would find one in the second. -/
def Separate (s t : String) : Prop :=
  ∀ quote ∈ unpaired s, quote ∉ t.toList

instance (s t : String) : Decidable (Separate s t) :=
  List.decidableBAll (· ∉ t.toList) (unpaired s)

/-- The surroundings of a run of text that waits for a partner, or for none. -/
def Surroundings.waiting : Option Char → Surroundings
  | none => outside
  | some quote => inside quote

theorem isQuote_of_mem_unpairedFrom {place : Surroundings} {cs : List Char} {quote : Char}
    (h : quote ∈ unpairedFrom place cs) : isQuote quote = true := by
  induction cs generalizing place with
  | nil => cases place <;> cases h
  | cons c cs ih =>
    cases place with
    | inside | behindUnpaired => exact ih h
    | outside =>
      rw [unpairedFrom] at h
      split at h
      · split at h
        · exact ih h
        · obtain rfl | h := List.mem_cons.mp h
          · assumption
          · exact ih h
      · exact ih h

theorem unpairedFrom_of_not_isQuote {c : Char} (h : isQuote c = false) (cs : List Char) :
    unpairedFrom .outside (c :: cs) = unpairedFrom .outside cs := by
  rw [unpairedFrom, if_neg (by simp [h])]

theorem unpairedFrom_of_isBlank {c : Char} (h : Text.isBlank c = true) (cs : List Char) :
    unpairedFrom .outside (c :: cs) = unpairedFrom .outside cs := by
  refine unpairedFrom_of_not_isQuote ?_ cs
  rw [← Bool.not_eq_true]
  intro hquote
  rw [isBlank_of_isQuote hquote] at h
  cases h

theorem unpairedFrom_behindUnpaired (cs : List Char) :
    unpairedFrom .behindUnpaired cs = unpairedFrom .outside (cs.dropWhile (!isDelimiter ·)) := by
  induction cs with
  | nil => rfl
  | cons c cs ih =>
    rw [unpairedFrom]
    cases hdelimiter : isDelimiter c with
    | true =>
      have hquote : isQuote c = false := by
        rw [← Bool.not_eq_true]
        intro hquote
        rw [isDelimiter_of_isQuote hquote] at hdelimiter
        cases hdelimiter
      rw [if_pos rfl, List.dropWhile_cons_of_neg (by simp [hdelimiter]),
        unpairedFrom_of_not_isQuote hquote]
    | false => simpa [hdelimiter] using ih

theorem unpairedFrom_word {token : Token} {rest : List Char} (h : StartsWith token rest) :
    unpairedFrom .outside (token.word ++ rest) = unpairedFrom .outside rest := by
  cases h <;> simp [Token.word, unpairedFrom, isQuote]

/-- Without its partner, a quote keeps a run of text from ending. -/
theorem prefix_textRun_inside {quote : Char} {cs : List Char} (h : quote ∉ cs) (rest : List Char) :
    cs <+: textRun (some quote) (cs ++ rest) := by
  induction cs with
  | nil => exact List.nil_prefix
  | cons c cs ih =>
    have hc : c ≠ quote := Ne.symm (List.ne_of_not_mem_cons h)
    rw [List.cons_append, textRun, if_neg hc]
    exact List.cons_prefix_cons.mpr ⟨rfl, ih (List.not_mem_of_not_mem_cons h)⟩

/-- A run of text in front of a closing parenthesis ends as it does alone, and none of its quotes
finds a partner behind the parenthesis: those that could all stand after the run. -/
structure EndsAlike (waiting : Option Char) (cs rest : List Char) : Prop where
  run : textRun waiting (cs ++ ')' :: rest) = textRun waiting cs
  unpaired : ∀ quote ∈ rest, (quote ∈ unpairedFrom (.waiting waiting) cs ↔
    quote ∈ unpairedFrom .outside (cs.drop (textRun waiting cs).length))

/-- A run of text has a quote that finds its partner behind a closing parenthesis, and goes on
beyond that. -/
structure GoesOn (waiting : Option Char) (cs rest : List Char) : Prop where
  run : cs ++ [')'] <+: textRun waiting (cs ++ ')' :: rest)
  partner : ∃ quote ∈ rest, quote ∈ unpairedFrom (.waiting waiting) cs

section

variable {waiting : Option Char} {c : Char} {cs rest : List Char}

/-- What a run of text does is up to what stands behind its first character. -/
theorem endsAlike_or_goesOn_cons (waiting' : Option Char)
    (hrun : ∀ more, textRun waiting (c :: (cs ++ more)) = c :: textRun waiting' (cs ++ more))
    (hunpaired : unpairedFrom (.waiting waiting) (c :: cs) = unpairedFrom (.waiting waiting') cs)
    (h : EndsAlike waiting' cs rest ∨ GoesOn waiting' cs rest) :
    EndsAlike waiting (c :: cs) rest ∨ GoesOn waiting (c :: cs) rest := by
  have halone : textRun waiting (c :: cs) = c :: textRun waiting' cs := by
    simpa using hrun []
  obtain ⟨run, unpaired⟩ | ⟨run, quote, hrest, hquote⟩ := h
  · refine .inl ⟨by rw [List.cons_append, hrun, run, halone], fun quote hrest => ?_⟩
    rw [halone, hunpaired]
    exact unpaired quote hrest
  · refine .inr ⟨?_, quote, hrest, hunpaired ▸ hquote⟩
    rw [List.cons_append, List.cons_append, hrun]
    exact List.cons_prefix_cons.mpr ⟨rfl, run⟩

/-- A quote without a partner before the parenthesis may have one behind it. -/
theorem endsAlike_or_goesOn_unpaired (hquote : isQuote c = true) (hpartner : c ∉ cs) :
    EndsAlike none (c :: cs) rest ∨ GoesOn none (c :: cs) rest := by
  have hdelimiter : ¬isDelimiter c = true := by simp [isDelimiter_of_isQuote hquote]
  have hparenthesis : c ≠ ')' := by
    rintro rfl
    exact hdelimiter rfl
  have hunpaired : unpairedFrom .outside (c :: cs) = c :: unpairedFrom .behindUnpaired cs := by
    rw [unpairedFrom, if_pos hquote, if_neg hpartner]
  by_cases hrest : c ∈ rest
  · refine .inr ⟨?_, c, hrest, hunpaired ▸ List.mem_cons_self⟩
    have hbehind : c ∉ cs ++ [')'] := by simp [hpartner, hparenthesis]
    rw [List.cons_append, List.cons_append, textRun, if_neg hdelimiter, if_pos hquote,
      if_pos (by simp [hrest])]
    have hinside := prefix_textRun_inside hbehind rest
    rw [List.append_assoc] at hinside
    exact List.cons_prefix_cons.mpr ⟨rfl, hinside⟩
  · have hnone : c ∉ cs ++ ')' :: rest := by simp [hpartner, hparenthesis, hrest]
    have halone : textRun none (c :: cs) = c :: cs.takeWhile (!isDelimiter ·) := by
      rw [textRun, if_neg hdelimiter, if_pos hquote, if_neg hpartner]
    have htake : (cs ++ ')' :: rest).takeWhile (!isDelimiter ·) =
        cs.takeWhile (!isDelimiter ·) := by
      rw [List.takeWhile_append]
      split
      · rename_i hall
        rw [List.takeWhile_cons_of_neg (by decide), List.append_nil,
          (List.takeWhile_prefix _).eq_of_length hall]
      · rfl
    refine .inl ⟨?_, fun quote hmem => ?_⟩
    · rw [List.cons_append, textRun, if_neg hdelimiter, if_pos hquote, if_neg hnone, halone, htake]
    · rw [halone, List.length_cons, List.drop_succ_cons]
      have hdrop : cs.drop (cs.takeWhile (!isDelimiter ·)).length =
          cs.dropWhile (!isDelimiter ·) := by
        have hleft : (cs.takeWhile (!isDelimiter ·) ++ cs.dropWhile (!isDelimiter ·)).drop
            (cs.takeWhile (!isDelimiter ·)).length = cs.dropWhile (!isDelimiter ·) := List.drop_left
        rwa [List.takeWhile_append_dropWhile] at hleft
      have hne : quote ≠ c := by
        rintro rfl
        exact hrest hmem
      rw [hdrop, ← unpairedFrom_behindUnpaired, Surroundings.waiting, hunpaired, List.mem_cons,
        or_iff_right hne]

theorem endsAlike_or_goesOn (closes : ∀ quote ∈ waiting, quote ∈ cs) :
    EndsAlike waiting cs rest ∨ GoesOn waiting cs rest := by
  induction cs generalizing waiting with
  | nil =>
    cases waiting with
    | some quote => cases closes quote rfl
    | none => exact .inl ⟨by simp [textRun, isDelimiter], fun _ _ => .rfl⟩
  | cons c cs ih =>
    cases waiting with
    | some quote =>
      refine endsAlike_or_goesOn_cons (if c = quote then none else some quote)
        (fun more => by rw [textRun]) (by rw [Surroundings.waiting, unpairedFrom]; split <;> rfl)
        (ih ?_)
      intro q hq
      split at hq
      · cases hq
      · rename_i hc
        cases hq
        exact (List.mem_cons.mp (closes quote rfl)).resolve_left (Ne.symm hc)
    | none =>
      cases hdelimiter : isDelimiter c with
      | true =>
        refine .inl ⟨by simp [textRun, hdelimiter], fun quote _ => ?_⟩
        rw [textRun, if_pos hdelimiter]
        rfl
      | false =>
        cases hquote : isQuote c with
        | false =>
          exact endsAlike_or_goesOn_cons none
            (fun more => by rw [textRun, if_neg (by simp [hdelimiter]), if_neg (by simp [hquote])])
            (unpairedFrom_of_not_isQuote hquote cs) (ih fun q hq => by cases hq)
        | true =>
          by_cases hpartner : c ∈ cs
          · refine endsAlike_or_goesOn_cons (some c) (fun more => ?_) ?_
              (ih fun q hq => by cases hq; exact hpartner)
            · rw [textRun, if_neg (by simp [hdelimiter]), if_pos hquote,
                if_pos (by simp [hpartner])]
            · rw [Surroundings.waiting, unpairedFrom, if_pos hquote, if_pos hpartner]
              rfl
          · exact endsAlike_or_goesOn_unpaired hquote hpartner

theorem endsAlike_or_goesOn_outside (cs rest : List Char) :
    EndsAlike none cs rest ∨ GoesOn none cs rest :=
  endsAlike_or_goesOn fun q hq => by cases hq

end

/-! ## What stands in front of a closing parenthesis -/

namespace StartsWith

theorem append {token : Token} {cs : List Char} (h : StartsWith token cs) (rest : List Char) :
    StartsWith token (cs ++ ')' :: rest) := by
  cases h with
  | opening | closing | and | or => constructor
  | not alone =>
    refine .not ?_
    cases cs with
    | nil => simp
    | cons c cs => exact alone

end StartsWith

theorem StartsRun.append {cs : List Char} (h : StartsRun cs) (rest : List Char) :
    StartsRun (cs ++ ')' :: rest) := by
  cases h with
  | cons hblank hdelimiter hnot =>
    refine .cons hblank hdelimiter fun hc => ?_
    obtain ⟨cs, rfl⟩ := List.head?_eq_some_iff.mp (hnot hc)
    rfl

namespace Scans

variable {start : Nat} {cs rest : List Char} {ts us : List (Spanned Token)}

/-- **A text keeps its tokens in front of a closing parenthesis**, if none of its quotes without a
partner finds one behind. -/
theorem append (h : Scans start cs ts) (hrest : ∀ quote ∈ unpairedFrom .outside cs, quote ∉ rest)
    (after : Scans (start + byteSize cs) (')' :: rest) us) :
    Scans start (cs ++ ')' :: rest) (ts ++ us) := by
  induction h with
  | nil start => exact after
  | blank hblank _ ih =>
    rw [byteSize_cons, ← Nat.add_assoc] at after
    rw [unpairedFrom_of_isBlank hblank] at hrest
    exact .blank hblank (ih hrest after)
  | @logic start token cs ts starts _ ih =>
    rw [byteSize_append, ← Nat.add_assoc] at after
    rw [unpairedFrom_word starts] at hrest
    rw [List.append_assoc]
    exact .logic (starts.append rest) (ih hrest after)
  | @run start cs cs' ts starts cut _ ih =>
    obtain ⟨run, unpaired⟩ | ⟨-, quote, hmem, hquote⟩ := endsAlike_or_goesOn_outside cs rest
    · rw [drop_textRun cut] at unpaired
      have hsize := congrArg byteSize cut
      rw [byteSize_append] at hsize
      rw [← hsize, ← Nat.add_assoc] at after
      have hapart : ∀ quote ∈ unpairedFrom .outside cs', quote ∉ rest := fun quote hquote hmem =>
        hrest quote ((unpaired quote hmem).mpr hquote) hmem
      have hbehind := ih hapart after
      have hcut : textRun none (cs ++ ')' :: rest) ++ (cs' ++ ')' :: rest) = cs ++ ')' :: rest := by
        rw [run, ← List.append_assoc, cut]
      have hrun := Scans.run (starts.append rest) hcut (by rwa [run])
      rwa [run] at hrun
    · exact absurd hmem (hrest quote hquote)

/-- **A quote that finds its partner behind a closing parenthesis** makes a test of what stands on
either side of the parenthesis. -/
theorem exists_overrun (h : Scans start cs ts) {quote : Char}
    (hquote : quote ∈ unpairedFrom .outside cs) (hrest : quote ∈ rest)
    (hus : Scans start (cs ++ ')' :: rest) us) :
    ∃ u ∈ us, (∃ text, u.token = .atom text) ∧ u.span.start ≤ start + byteSize cs ∧
      start + byteSize cs < u.span.stop := by
  induction h generalizing us with
  | nil start => cases hquote
  | blank hblank _ ih =>
    rw [unpairedFrom_of_isBlank hblank] at hquote
    rw [byteSize_cons, ← Nat.add_assoc]
    exact ih hquote (hus.of_blank hblank)
  | logic starts _ ih =>
    rw [unpairedFrom_word starts] at hquote
    rw [List.append_assoc] at hus
    obtain ⟨us', rfl, hafter⟩ := hus.of_logic (starts.append rest)
    obtain ⟨u, hu, hoverrun⟩ := ih hquote hafter
    rw [byteSize_append, ← Nat.add_assoc]
    exact ⟨u, List.mem_cons_of_mem _ hu, hoverrun⟩
  | @run start cs cs' ts starts cut _ ih =>
    obtain ⟨run, unpaired⟩ | ⟨run, -⟩ := endsAlike_or_goesOn_outside cs rest
    · rw [drop_textRun cut] at unpaired
      have hcut : textRun none (cs ++ ')' :: rest) ++ (cs' ++ ')' :: rest) = cs ++ ')' :: rest := by
        rw [run, ← List.append_assoc, cut]
      obtain ⟨us', rfl, hafter⟩ := hus.of_run (starts.append rest) hcut
      rw [run] at hafter
      obtain ⟨u, hu, hoverrun⟩ := ih ((unpaired quote hrest).mp hquote) hafter
      have hsize := congrArg byteSize cut
      rw [byteSize_append] at hsize
      rw [← hsize, ← Nat.add_assoc]
      exact ⟨u, List.mem_cons_of_mem _ hu, hoverrun⟩
    · obtain ⟨behind, cut⟩ := textRun_isPrefix none (cs ++ ')' :: rest)
      obtain ⟨us', rfl, -⟩ := hus.of_run (starts.append rest) cut
      obtain ⟨more, hmore⟩ := Text.prefix_trimEnd (by decide) run
      refine ⟨_, List.mem_cons_self, ⟨_, rfl⟩, Nat.le_add_right _ _, ?_⟩
      rw [spanFrom, ← hmore]
      simp only [byteSize_append, byteSize_cons]
      have hpos := Char.utf8Size_pos ')'
      omega

/-- A text in parentheses has its tokens between theirs. -/
theorem group (start : Nat) (h : Scans 0 cs ts)
    (hrest : ∀ quote ∈ unpairedFrom .outside cs, quote ∉ rest)
    (after : Scans (start + 1 + byteSize cs + 1) rest us) :
    Scans start ('(' :: cs ++ ')' :: rest)
      (⟨.opening, spanFrom start ['(']⟩ :: (ts.map (Spanned.shift (start + 1)) ++
        ⟨.closing, spanFrom (start + 1 + byteSize cs) [')']⟩ :: us)) := by
  have hinner := h.shift (start + 1)
  rw [Nat.zero_add] at hinner
  exact .logic (.opening _) (hinner.append hrest (.logic (.closing _) after))

end Scans

end Condition

end Storyworld.Script
