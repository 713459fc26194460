import Storyworld.Proofs.Terminal.Link

/-! # Fragments as plain text

A fragment is texts, each with a complete tag behind it, and a rest in which no tag is complete
(`Cut`, `exists_cut`). A terminal tells each text once and puts a line break or the number of a link
in the place of a tag. It tells the rest as well, but first once more what stands before a bracket in
it: `flatten_repeats_iff`.
-/

namespace Storyworld

namespace Text

theorem replaceFrom_eq_nil_iff {pattern replacement cs : List Char} (h : replacement ≠ []) :
    replaceFrom pattern replacement 0 cs = [] ↔ cs = [] := by
  cases cs with
  | nil => exact iff_of_true rfl rfl
  | cons c cs =>
    rw [replaceFrom]
    split <;> simp [h]

/-- A replacement that is not empty leaves something of a text that is not. -/
theorem replaceAll_eq_empty_iff {pattern replacement s : String} (h : replacement ≠ "") :
    replaceAll pattern replacement s = "" ↔ s = "" := by
  have hlist : replacement.toList ≠ [] := by simpa using h
  rw [replaceAll, ← String.toList_inj, String.toList_ofList, String.toList_empty,
    replaceFrom_eq_nil_iff hlist, String.toList_eq_nil_iff]

end Text

namespace Terminal

open Story

theorem unescape_eq_empty_iff {s : String} : unescape s = "" ↔ s = "" := by
  unfold unescape
  iterate 5 rw [Text.replaceAll_eq_empty_iff (by decide)]

/-! ## Complete tags -/

theorem divideAt?_of_not_mem {sep : Char} {cs : List Char} (h : sep ∉ cs) :
    divideAt? sep cs = none := by
  induction cs with
  | nil => rfl
  | cons c cs ih =>
    have hc : c ≠ sep := Ne.symm (List.ne_of_not_mem_cons h)
    rw [divideAt?, if_neg hc, ih (List.not_mem_of_not_mem_cons h)]
    rfl

/-- A fragment as texts, each with the tag behind it, and a rest. A tag goes from a bracket that opens
to the next one that closes; in the rest, none closes behind one that opens. -/
structure Cut (cs : List Char) (marks : List (List Char × List Char)) (rest : List Char) : Prop where
  whole : cs = markup marks ++ rest
  apart : ∀ m ∈ marks, '<' ∉ m.1 ∧ '>' ∉ m.2
  incomplete : ∀ before after, rest = before ++ '<' :: after → '>' ∉ after

theorem Cut.of_not_mem {cs : List Char} (h : '<' ∉ cs) : Cut cs [] cs where
  whole := rfl
  apart := List.forall_mem_nil _
  incomplete before after hcs := absurd (hcs ▸ by simp) h

theorem Cut.cons {text tag cs rest : List Char} {marks : List (List Char × List Char)}
    (htext : '<' ∉ text) (htag : '>' ∉ tag) (h : Cut cs marks rest) :
    Cut (text ++ '<' :: (tag ++ '>' :: cs)) ((text, tag) :: marks) rest where
  whole := by simp [h.whole, markup]
  apart := List.forall_mem_cons.mpr ⟨⟨htext, htag⟩, h.apart⟩
  incomplete := h.incomplete

/-- Behind the first bracket that opens, no bracket closes. -/
theorem Cut.of_incomplete {before after : List Char} (hbefore : '<' ∉ before) (hafter : '>' ∉ after) :
    Cut (before ++ '<' :: after) [] (before ++ '<' :: after) where
  whole := rfl
  apart := List.forall_mem_nil _
  incomplete before' after' hsame := by
    obtain ⟨more, hmore⟩ : ∃ more, after = more ++ after' := by
      obtain ⟨more, rfl, hmore⟩ | ⟨more, rfl, hmore⟩ := List.append_eq_append_iff.mp hsame
      · cases more with
        | nil => exact ⟨[], (List.cons.inj hmore).2⟩
        | cons c more =>
          obtain ⟨rfl, rfl⟩ := List.cons.inj hmore
          exact ⟨more ++ ['<'], by simp⟩
      · cases more with
        | nil => exact ⟨[], (List.cons.inj hmore).2.symm⟩
        | cons c more =>
          obtain ⟨rfl, -⟩ := List.cons.inj hmore
          simp at hbefore
    exact fun hmem => hafter (hmore ▸ List.mem_append_right more hmem)

theorem exists_cut (cs : List Char) : ∃ marks rest, Cut cs marks rest := by
  induction hlength : cs.length using Nat.strong_induction_on generalizing cs with
  | _ length ih =>
    by_cases hopen : '<' ∈ cs
    · obtain ⟨before, after, rfl, hbefore⟩ := List.eq_append_cons_of_mem hopen
      by_cases hclose : '>' ∈ after
      · obtain ⟨tag, behind, rfl, htag⟩ := List.eq_append_cons_of_mem hclose
        have hshorter : behind.length < length := by
          simp only [← hlength, List.length_append, List.length_cons]
          omega
        obtain ⟨marks, rest, hcut⟩ := ih _ hshorter behind rfl
        exact ⟨_, _, hcut.cons hbefore htag⟩
      · exact ⟨_, _, .of_incomplete hbefore hclose⟩
    · exact ⟨_, _, .of_not_mem hopen⟩

/-! ## What is told -/

/-- What stands in the place of a tag, when so many links have been numbered before it. -/
def standIn (numbered : Nat) (tag : List Char) : String :=
  if (Piece.link? (.tag tag)).isSome then "[" ++ toString (numbered + 1) ++ "] "
  else if tagName tag ∈ lineBreaks then "\n"
  else ""

/-- Texts, each once and with what stands in the place of the tag behind it. -/
def plainTexts (numbered : Nat) : List (List Char × List Char) → String
  | [] => ""
  | (text, tag) :: marks =>
    unescape (String.ofList text) ++ standIn numbered tag ++
      plainTexts (if (Piece.link? (.tag tag)).isSome then numbered + 1 else numbered) marks

/-- What stands before the first bracket that opens, if there is one. -/
def stray (cs : List Char) : List Char :=
  if '<' ∈ cs then cs.takeWhile (· != '<') else []

theorem stray_of_not_mem {cs : List Char} (h : '<' ∉ cs) : stray cs = [] :=
  if_neg h

theorem stray_append {before : List Char} (h : '<' ∉ before) (after : List Char) :
    stray (before ++ '<' :: after) = before := by
  have hbefore : ∀ c ∈ before, (c != '<') = true := fun c hc =>
    bne_iff_ne.mpr (ne_of_mem_of_not_mem hc h)
  rw [stray, if_pos (by simp), List.takeWhile_append_of_pos hbefore,
    List.takeWhile_cons_of_neg (by decide), List.append_nil]

/-- Nothing stands before a bracket exactly if there is none, or one comes first. -/
theorem stray_eq_nil_iff {cs : List Char} :
    stray cs = [] ↔ '<' ∉ cs ∨ cs.head? = some '<' := by
  by_cases hopen : '<' ∈ cs
  · obtain ⟨before, after, rfl, hbefore⟩ := List.eq_append_cons_of_mem hopen
    rw [stray_append hbefore, or_iff_right (not_not_intro hopen)]
    cases before with
    | nil => simp
    | cons c before =>
      have hc : c ≠ '<' := Ne.symm (List.ne_of_not_mem_cons hbefore)
      simp [hc]
  · simp [stray_of_not_mem hopen, hopen]

/-- A rest without a complete tag is told once more up to its first bracket, and then all of it. -/
theorem flattenPieces_rest {rest : List Char}
    (h : ∀ before after, rest = before ++ '<' :: after → '>' ∉ after) {fuel : Nat}
    (hfuel : rest.length ≤ fuel) (links : List Link) :
    flattenPieces links (pieces fuel rest) =
      (unescape (String.ofList (stray rest)) ++ unescape (String.ofList rest), links) := by
  have hempty : unescape "" = "" := unescape_eq_empty_iff.mpr rfl
  by_cases hopen : '<' ∈ rest
  · obtain ⟨before, after, rfl, hbefore⟩ := List.eq_append_cons_of_mem hopen
    obtain ⟨fuel, rfl⟩ : ∃ f, fuel = f + 1 :=
      Nat.exists_eq_add_one_of_ne_zero (by simp at hfuel; omega)
    rw [pieces, divideAt?_append hbefore]
    dsimp only
    rw [divideAt?_of_not_mem (h _ _ rfl), stray_append hbefore]
    simp [flattenPieces, flattenPiece]
  · have hpieces : pieces fuel rest = [.text rest] := by
      cases fuel with
      | zero => rfl
      | succ fuel => rw [pieces, divideAt?_of_not_mem hopen]
    simp [hpieces, flattenPieces, flattenPiece, stray_of_not_mem hopen, hempty]

theorem flattenPiece_tag (links : List Link) (tag : List Char) :
    flattenPiece links (.tag tag) =
      (standIn links.length tag, links ++ (Piece.link? (.tag tag)).toList) := by
  simp only [flattenPiece, standIn, Piece.link?]
  split
  · rename_i hname
    have hbreak : tagName tag ∉ lineBreaks := by
      rw [hname]
      decide
    cases Terminal.link? tag <;> simp [hbreak]
  · split <;> simp_all

/-- What is told of texts and tags, and what of the pieces behind them. -/
theorem flattenPieces_marks (marks : List (List Char × List Char)) (ps : List Piece)
    (links : List Link) :
    let linked := links ++ marks.filterMap fun m => Piece.link? (.tag m.2)
    flattenPieces links (marks.flatMap (fun m => [.text m.1, .tag m.2]) ++ ps) =
      (plainTexts links.length marks ++ (flattenPieces linked ps).1, (flattenPieces linked ps).2) := by
  induction marks generalizing links with
  | nil => simp [plainTexts]
  | cons m marks ih =>
    obtain ⟨text, tag⟩ := m
    have hlength : (links ++ (Piece.link? (.tag tag)).toList).length =
        if (Piece.link? (.tag tag)).isSome then links.length + 1 else links.length := by
      cases Piece.link? (.tag tag) <;> simp
    have hlinked : links ++ (Piece.link? (.tag tag)).toList ++
        marks.filterMap (fun m => Piece.link? (.tag m.2)) =
          links ++ ((text, tag) :: marks).filterMap fun m => Piece.link? (.tag m.2) := by
      rw [List.filterMap_cons]
      cases Piece.link? (.tag tag) <;> simp
    have hrest := ih (links ++ (Piece.link? (.tag tag)).toList)
    rw [hlength, hlinked] at hrest
    have htext : flattenPiece links (.text text) = (unescape (String.ofList text), links) := rfl
    simp only [List.flatMap_cons, List.cons_append, List.nil_append, flattenPieces,
      flattenPiece_tag, htext, hrest, plainTexts, String.append_assoc]

theorem flatten_of_cut {html : String} {marks : List (List Char × List Char)} {rest : List Char}
    (cut : Cut html.toList marks rest) (links : List Link) :
    flatten links html =
      (plainTexts links.length marks ++
        (unescape (String.ofList (stray rest)) ++ unescape (String.ofList rest)),
      links ++ marks.filterMap fun m => Piece.link? (.tag m.2)) := by
  have hlength : html.length = (markup marks ++ rest).length := by
    rw [← cut.whole, String.length_toList]
  have hmarks := length_le_markup marks
  rw [List.length_append] at hlength
  rw [flatten, cut.whole, pieces_markup_append cut.apart (by omega), flattenPieces_marks,
    flattenPieces_rest cut.incomplete (by omega)]

/-- **Text is told twice exactly where it stands before a bracket that is never closed.** Every
fragment is texts with complete tags behind them and a rest without one. Each of the texts is told
once, with a line break or a number in the place of its tag, and the links are those of the tags. The
rest is told once too, unless something stands before a bracket in it: that is told once more. -/
theorem flatten_repeats_iff (html : String) :
    (∃ marks rest, Cut html.toList marks rest) ∧
    ∀ marks rest, Cut html.toList marks rest → ∀ links,
      (flatten links html).2 = links ++ marks.filterMap (fun m => Piece.link? (.tag m.2)) ∧
      (flatten links html).1 = plainTexts links.length marks ++
        (unescape (String.ofList (stray rest)) ++ unescape (String.ofList rest)) ∧
      ((flatten links html).1 = plainTexts links.length marks ++ unescape (String.ofList rest) ↔
        '<' ∉ rest ∨ rest.head? = some '<') := by
  refine ⟨exists_cut html.toList, fun marks rest cut links => ?_⟩
  have hflatten := flatten_of_cut cut links
  refine ⟨congrArg Prod.snd hflatten, congrArg Prod.fst hflatten, ?_⟩
  rw [hflatten, ← stray_eq_nil_iff]
  have hstray : unescape (String.ofList (stray rest)) = "" ↔ stray rest = [] := by
    rw [unescape_eq_empty_iff, ← String.toList_inj, String.toList_ofList, String.toList_empty]
  rw [← hstray, String.append_right_inj]
  constructor
  · intro h
    simpa using congrArg String.toList h
  · intro h
    rw [h, String.empty_append]

/-- Where no bracket stands behind the last tag, nothing is told twice. -/
theorem flatten_repeats_iff_sum :
    Cut "<p>1 &lt; 2</p>Yes".toList [([], ['p']), ("1 &lt; 2".toList, ['/', 'p'])] "Yes".toList ∧
      (flatten [] "<p>1 &lt; 2</p>Yes").1 = "1 < 2\nYes" := by
  have hnone : '<' ∉ "Yes".toList := by decide
  have cut : Cut "<p>1 &lt; 2</p>Yes".toList [([], ['p']), ("1 &lt; 2".toList, ['/', 'p'])]
      "Yes".toList := by
    have hopened : '<' ∉ [] ∧ '>' ∉ ['p'] := by decide
    have hclosed : '<' ∉ "1 &lt; 2".toList ∧ '>' ∉ ['/', 'p'] := by decide
    exact .cons hopened.1 hopened.2 (.cons hclosed.1 hclosed.2 (.of_not_mem hnone))
  exact ⟨cut, (((flatten_repeats_iff _).2 _ _ cut []).2.2).mpr (.inl hnone)⟩

/-- What stands before a bracket that is never closed is told twice, where no tag is. -/
theorem flatten_ne_warm :
    Cut "warm < cold".toList [] "warm < cold".toList ∧
      (flatten [] "warm < cold").1 = "warm warm < cold" ∧ unescape "warm < cold" = "warm < cold" ∧
      (render [⟨"warm < cold", none⟩]).1 = "warm warm < cold\n\n" := by
  have hbefore : '<' ∉ "warm ".toList := by decide
  have hafter : '>' ∉ " cold".toList := by decide
  exact ⟨.of_incomplete hbefore hafter, by decide +kernel, by decide +kernel, by decide +kernel⟩

end Terminal

end Storyworld
