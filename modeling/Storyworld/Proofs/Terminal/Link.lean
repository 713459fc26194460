import Mathlib.Tactic.FinCases
import Storyworld.Proofs.Json.Record
import Storyworld.Proofs.Story.Answer
import Storyworld.Proofs.Story.Markup
import Storyworld.Terminal.Screen

/-! # Links on a terminal

A list of links is text and tags in turn (`markup`), of which only the tags of the links themselves
perform anything. What is escaped holds no bracket and no quote, so each tag and each attribute ends
where its writer ended it, and the links that a terminal numbers are the ones that were written, in
order: `links_of_batch`.
-/

namespace Storyworld

namespace Text

theorem length_le_of_after? {pattern cs rest : List Char} (h : after? pattern cs = some rest) :
    pattern.length ≤ cs.length := by
  induction cs with
  | nil =>
    cases pattern with
    | nil => exact Nat.le_refl 0
    | cons c pattern => cases h
  | cons c cs ih =>
    rw [after?] at h
    split at h
    · rename_i hp
      exact (List.isPrefixOf_iff_prefix.mp hp).length_le
    · exact Nat.le_succ_of_le (ih h)

/-- A pattern that first stands at the end of a text stands there first if the text goes on. -/
theorem after?_append {pattern cs : List Char} (h : after? pattern cs = some [])
    (rest : List Char) : after? pattern (cs ++ rest) = some rest := by
  induction cs with
  | nil =>
    cases pattern with
    | nil => cases rest <;> rfl
    | cons c pattern => cases h
  | cons c cs ih =>
    rw [after?] at h
    rw [List.cons_append, after?]
    split at h
    · rename_i hp
      have hprefix := List.isPrefixOf_iff_prefix.mp hp
      have hall : pattern = c :: cs :=
        hprefix.eq_of_length_le (List.drop_eq_nil_iff.mp (Option.some.inj h))
      have hstart : pattern.isPrefixOf (c :: (cs ++ rest)) :=
        List.isPrefixOf_iff_prefix.mpr (hall ▸ List.prefix_append (c :: cs) rest)
      rw [if_pos hstart, hall]
      have hrest : (c :: cs ++ rest).drop (c :: cs).length = rest := List.drop_left
      exact congrArg some hrest
    · rename_i hp
      rw [if_neg fun hlonger => hp ?_, ih h]
      -- the pattern is no longer than what it first stands in, so it would stand here already
      have hprefix := List.isPrefixOf_iff_prefix.mp hlonger
      have hlength := length_le_of_after? h
      exact List.isPrefixOf_iff_prefix.mpr (List.prefix_of_prefix_length_le hprefix
        (List.prefix_append (c :: cs) rest) (Nat.le_succ_of_le hlength))

end Text

namespace Terminal

open Story

/-! ## Tags -/

theorem divideAt?_append {sep : Char} {left : List Char} (h : sep ∉ left) (right : List Char) :
    divideAt? sep (left ++ sep :: right) = some (left, right) := by
  induction left with
  | nil => simp [divideAt?]
  | cons c left ih =>
    have hc : c ≠ sep := fun hc => h (hc ▸ List.mem_cons_self)
    have hleft : sep ∉ left := fun hsep => h (List.mem_cons_of_mem c hsep)
    simp [divideAt?, hc, ih hleft]

/-- Texts, each with the tag behind it. -/
def markup (marks : List (List Char × List Char)) : List Char :=
  marks.flatMap fun m => m.1 ++ '<' :: (m.2 ++ ['>'])

theorem pieces_markup_append {marks : List (List Char × List Char)}
    (h : ∀ m ∈ marks, '<' ∉ m.1 ∧ '>' ∉ m.2) {fuel : Nat} (hfuel : marks.length ≤ fuel)
    (rest : List Char) : pieces fuel (markup marks ++ rest) =
      marks.flatMap (fun m => [.text m.1, .tag m.2]) ++ pieces (fuel - marks.length) rest := by
  induction marks generalizing fuel with
  | nil => rfl
  | cons m marks ih =>
    obtain ⟨fuel, rfl⟩ : ∃ f, fuel = f + 1 :=
      ⟨fuel - 1, by simp only [List.length_cons] at hfuel; omega⟩
    obtain ⟨⟨htext, htag⟩, hrest⟩ := List.forall_mem_cons.mp h
    have hmarkup : markup (m :: marks) ++ rest =
        m.1 ++ '<' :: (m.2 ++ '>' :: (markup marks ++ rest)) := by
      simp [markup]
    rw [hmarkup, pieces, divideAt?_append htext]
    dsimp only
    rw [divideAt?_append htag]
    dsimp only
    rw [ih hrest (Nat.le_of_succ_le_succ hfuel), List.length_cons, Nat.add_sub_add_right]
    rfl

theorem pieces_markup {marks : List (List Char × List Char)}
    (h : ∀ m ∈ marks, '<' ∉ m.1 ∧ '>' ∉ m.2) {fuel : Nat} (hfuel : marks.length ≤ fuel) :
    pieces fuel (markup marks) = marks.flatMap (fun m => [.text m.1, .tag m.2]) ++ [.text []] := by
  have hnone : ∀ fuel, pieces fuel [] = [.text []] := fun fuel => by cases fuel <;> rfl
  have happend := pieces_markup_append h hfuel []
  rwa [List.append_nil, hnone] at happend

theorem length_le_markup (marks : List (List Char × List Char)) :
    marks.length ≤ (markup marks).length := by
  induction marks with
  | nil => exact Nat.le_refl 0
  | cons m marks ih =>
    simp only [markup, List.flatMap_cons, List.length_append, List.length_cons] at ih ⊢
    omega

/-! ## Links in order -/

/-- The link of a piece, if it is a tag that performs an action. -/
def Piece.link? : Piece → Option Link
  | .text _ => none
  | .tag cs => if tagName cs = "a" then Terminal.link? cs else none

theorem links_flattenPieces (links : List Link) (ps : List Piece) :
    (flattenPieces links ps).2 = links ++ ps.filterMap Piece.link? := by
  induction ps generalizing links with
  | nil => simp [flattenPieces]
  | cons p ps ih =>
    have hpiece : (flattenPiece links p).2 = links ++ p.link?.toList := by
      cases p with
      | text cs => simp [flattenPiece, Piece.link?]
      | tag cs =>
        simp only [flattenPiece, Piece.link?]
        split
        · cases Terminal.link? cs <;> simp
        · split <;> simp
    simp only [flattenPieces, ih, hpiece, List.filterMap_cons]
    cases p.link? <;> simp

/-- The links of a fragment. -/
def linksIn (html : String) : List Link :=
  (flatten [] html).2

theorem links_flatten (links : List Link) (html : String) :
    (flatten links html).2 = links ++ linksIn html := by
  simp only [linksIn, flatten, links_flattenPieces, List.nil_append]

/-- **Links are numbered through all outputs in order.** -/
theorem links_render (outputs : List Output) :
    (render outputs).2 = outputs.flatMap fun o => linksIn o.text := by
  have hshow : ∀ links, (showOutputs links outputs).2 =
      links ++ outputs.flatMap fun o => linksIn o.text := by
    induction outputs with
    | nil => simp [showOutputs]
    | cons o rest ih =>
      intro links
      simp only [showOutputs, ih, links_flatten, List.flatMap_cons, List.append_assoc]
  rw [render, hshow, List.nil_append]

/-! ## Links as they are written -/

/-- A link as it is offered: what it performs, and the words that it shows. -/
structure Offer where
  verb : Verb
  param : String
  label : String

namespace Offer

def html (o : Offer) : String :=
  actionLink o.verb.word o.param o.label

def action (o : Offer) : Action :=
  ⟨o.verb, .text o.param⟩

/-- The verb is one of those that the game knows. -/
def IsKnown (o : Offer) : Prop :=
  ∀ typed, o.verb ≠ .unknown typed

/-- What the tag of a link starts with. -/
def beforeVerb : List Char := "a class=\"game-action\" data-action=\"".toList

def beforeParam : List Char := "\" data-param=\"".toList

/-- What stands in the tag that opens the link. -/
def tag (o : Offer) : List Char :=
  beforeVerb ++ (escape o.verb.word).toList ++ beforeParam ++ (escape o.param).toList ++ ['"']

/-- The link as an item of a list, in texts and tags. -/
def marks (o : Offer) : List (List Char × List Char) :=
  [([], ['l', 'i']), ([], o.tag), ((escape o.label).toList, ['/', 'a']), ([], ['/', 'l', 'i'])]

theorem toList_item (o : Offer) : ("<li>" ++ o.html ++ "</li>").toList = markup o.marks := by
  have hverb : "<a class=\"game-action\" data-action=\"".toList = '<' :: beforeVerb := rfl
  have hparam : "\" data-param=\"".toList = beforeParam := rfl
  unfold html actionLink
  simp [hverb, hparam, markup, marks, tag]

theorem marks_apart (o : Offer) : ∀ m ∈ o.marks, '<' ∉ m.1 ∧ '>' ∉ m.2 := by
  have hclosing : ∀ s, '>' ∉ (escape s).toList := not_mem_escape (by decide) (by decide)
  have hopening : '<' ∉ (escape o.label).toList := not_mem_escape (by decide) (by decide) _
  have hverb : '>' ∉ beforeVerb := by decide
  have hparam : '>' ∉ beforeParam := by decide
  simp [marks, tag, hclosing, hopening, hverb, hparam]

/-! ### Attributes of a link -/

/-- An attribute that is found has the value up to its closing quote. -/
theorem attribute?_of_after? {tag : List Char} {name value : String} {rest : List Char}
    (h : Text.after? (name ++ "=\"").toList tag = some ((escape value).toList ++ '"' :: rest)) :
    attribute? tag name = some value := by
  have hquote : '"' ∉ (escape value).toList := not_mem_escape (by decide) (by decide) value
  have hvalue : unescape (String.ofList (escape value).toList) = value := by
    rw [String.ofList_toList, unescape_escape]
  simp only [attribute?, h, Option.bind_eq_bind, Option.bind_some, divideAt?_append hquote]
  exact congrArg some hvalue

theorem attribute?_action (o : Offer) : attribute? o.tag "data-action" = some o.verb.word := by
  have hfirst : Text.after? ("data-action" ++ "=\"").toList beforeVerb = some [] := by decide
  have hfound : Text.after? ("data-action" ++ "=\"").toList o.tag = some
      ((escape o.verb.word).toList ++
        '"' :: (beforeParam.tail ++ (escape o.param).toList ++ ['"'])) := by
    simp only [tag, List.append_assoc]
    exact Text.after?_append hfirst _
  exact attribute?_of_after? hfound

/-- No word for a verb of the game looks like the name of the attribute behind it. -/
theorem after?_beforeParam {verb : Verb} (h : ∀ typed, verb ≠ .unknown typed) :
    Text.after? ("data-param" ++ "=\"").toList
      (beforeVerb ++ (escape verb.word).toList ++ beforeParam) = some [] := by
  cases verb with
  | unknown typed => exact absurd rfl (h typed)
  | _ => decide +kernel

theorem attribute?_param {o : Offer} (h : o.IsKnown) :
    attribute? o.tag "data-param" = some o.param := by
  have hfirst := after?_beforeParam h
  have hfound : Text.after? ("data-param" ++ "=\"").toList o.tag =
      some ((escape o.param).toList ++ ['"']) := by
    rw [tag, List.append_assoc]
    exact Text.after?_append hfirst _
  exact attribute?_of_after? hfound

/-- The link that a terminal finds. -/
def link (o : Offer) : Link :=
  ⟨o.verb.word, o.param⟩

theorem ofWord_word {verb : Verb} (h : ∀ typed, verb ≠ .unknown typed) :
    Verb.ofWord verb.word = verb := by
  cases verb with
  | unknown typed => exact absurd rfl (h typed)
  | _ => decide +kernel

theorem perform_link {o : Offer} (h : o.IsKnown) : o.link.perform = o.action :=
  congrArg (Story.Action.mk · (.text o.param)) (ofWord_word h)

theorem link?_tag {o : Offer} (h : o.IsKnown) : Piece.link? (.tag o.tag) = some o.link := by
  have hname : tagName o.tag = "a" := by
    simp only [tag, List.append_assoc]
    rfl
  simp [Piece.link?, hname, Terminal.link?, attribute?_action, attribute?_param h, link]

theorem link?_marks {o : Offer} (h : o.IsKnown) :
    (o.marks.flatMap fun m => [Piece.text m.1, .tag m.2]).filterMap Piece.link? = [o.link] := by
  have hitem : Piece.link? (.tag ['l', 'i']) = none := by decide
  have hclose : Piece.link? (.tag ['/', 'a']) = none := by decide
  have hdone : Piece.link? (.tag ['/', 'l', 'i']) = none := by decide
  have htext : ∀ cs, Piece.link? (.text cs) = none := fun _ => rfl
  simp [marks, htext, hitem, link?_tag h, hclose, hdone]

/-! ## Lists of links -/

/-- A list of links, in texts and tags. -/
def listMarks (offers : List Offer) : List (List Char × List Char) :=
  ([], ['u', 'l']) :: (offers.flatMap marks ++ [([], ['/', 'u', 'l'])])

theorem toList_bulletList {offers : List Offer} (h : offers ≠ []) :
    (bulletList (offers.map html)).toList = markup (listMarks offers) := by
  have hitems : (offers.map html).flatMap (fun item => ("<li>" ++ item ++ "</li>").toList) =
      markup (offers.flatMap marks) := by
    rw [List.flatMap_map, markup, List.flatMap_assoc]
    exact congrArg offers.flatMap (funext toList_item)
  unfold bulletList
  rw [if_neg (by simpa using h)]
  simp only [String.toList_append, String.toList_join, List.flatMap_map] at hitems ⊢
  rw [hitems]
  simp [markup, listMarks]

/-- **The links of a list are those that were put into it**, in order. -/
theorem linksIn_bulletList {offers : List Offer} (h : ∀ o ∈ offers, o.IsKnown) :
    linksIn (bulletList (offers.map html)) = offers.map link := by
  by_cases hnone : offers = []
  · subst hnone
    rfl
  have hapart : ∀ m ∈ listMarks offers, '<' ∉ m.1 ∧ '>' ∉ m.2 := by
    have hitems : ∀ m ∈ offers.flatMap marks, '<' ∉ m.1 ∧ '>' ∉ m.2 := by
      intro m hm
      obtain ⟨o, -, hm⟩ := List.mem_flatMap.mp hm
      exact o.marks_apart m hm
    intro m hm
    rcases List.mem_cons.mp hm with rfl | hm
    · decide
    rcases List.mem_append.mp hm with hm | hm
    · exact hitems m hm
    · exact List.mem_singleton.mp hm ▸ by decide
  have hitems : ((offers.flatMap marks).flatMap fun m => [Piece.text m.1, .tag m.2]).filterMap
      Piece.link? = offers.map link := by
    clear hnone hapart
    induction offers with
    | nil => rfl
    | cons o rest ih =>
      obtain ⟨ho, hrest⟩ := List.forall_mem_cons.mp h
      rw [List.flatMap_cons, List.flatMap_append, List.filterMap_append, link?_marks ho, ih hrest]
      rfl
  have hopen : Piece.link? (.tag ['u', 'l']) = none := by decide
  have hclose : Piece.link? (.tag ['/', 'u', 'l']) = none := by decide
  have htext : ∀ cs, Piece.link? (.text cs) = none := fun _ => rfl
  rw [linksIn, flatten, links_flattenPieces, ← String.length_toList, toList_bulletList hnone,
    pieces_markup hapart (length_le_markup _)]
  simp [listMarks, htext, hopen, hclose, hitems]

end Offer

/-! ## Batches of links -/

/-- An output that carries a list of links, or is free of links. -/
inductive Carries : Output → List Offer → Prop
  | list (place : Option Section) {offers : List Offer} (known : ∀ o ∈ offers, o.IsKnown) :
    Carries ⟨bulletList (offers.map Offer.html), place⟩ offers
  | free {output : Output} (unlinked : linksIn output.text = []) : Carries output []

theorem Carries.linksIn_text {output : Output} {offers : List Offer} (h : Carries output offers) :
    (linksIn output.text).map Link.perform = offers.map Offer.action := by
  cases h with
  | list place known =>
    rw [Offer.linksIn_bulletList known, List.map_map]
    exact List.map_congr_left fun o ho => Offer.perform_link (known o ho)
  | free unlinked => rw [unlinked, List.map_nil, List.map_nil]

theorem perform_render {batch : List (Output × List Offer)} (h : ∀ x ∈ batch, Carries x.1 x.2) :
    (render (batch.map Prod.fst)).2.map Link.perform =
      (batch.flatMap Prod.snd).map Offer.action := by
  rw [links_render, List.flatMap_map]
  induction batch with
  | nil => rfl
  | cons x rest ih =>
    obtain ⟨hx, hrest⟩ := List.forall_mem_cons.mp h
    simp only [List.flatMap_cons, List.map_append, hx.linksIn_text, ih hrest]

/-! ## Links of a dialogue -/

/-- The parameter of a link for a response is read back as the ids that it was written from. -/
theorem ofText?_linkParam (character entry response : String) :
    Choice.ofText? (Dialogue.linkParam character entry response) =
      some ⟨character, some entry, response⟩ := by
  have hplain : (Json.record [("characterId", .whole character), ("choiceId", .whole response),
      ("entryId", .whole entry)]).Plain :=
    Json.plain_record fun m hm => by
      fin_cases hm <;> exact Json.plain_whole _
  rw [Choice.ofText?, Dialogue.linkParam, Json.parse?_compact hplain]
  rfl

/-- What a character offers, as links. -/
def dialogueOffers (w : World) (character : String) (e : DialogueEntry) : List Offer :=
  (e.responses.filter (Dialogue.isOpen w)).map fun r =>
    ⟨.choose, Dialogue.linkParam character (e.id.getD "") r.id, r.text.getD r.id⟩

theorem perform_offers (w : World) (character : String) (e : DialogueEntry) :
    (render (Dialogue.offers w character e)).2.map Link.perform =
      (dialogueOffers w character e).map Offer.action := by
  have hlinks : (e.responses.filter (Dialogue.isOpen w)).map (Dialogue.optionLink character e) =
      (dialogueOffers w character e).map Offer.html := by
    rw [dialogueOffers, List.map_map]
    rfl
  have known : ∀ o ∈ dialogueOffers w character e, o.IsKnown := by
    intro o ho
    obtain ⟨r, -, rfl⟩ := List.mem_map.mp ho
    exact nofun
  rw [Dialogue.offers, hlinks]
  cases hnone : dialogueOffers w character e with
  | nil => rfl
  | cons o rest =>
    have batch : ∀ x ∈ [(Output.append (bulletList ((o :: rest).map Offer.html)), o :: rest)],
        Carries x.1 x.2 := List.forall_mem_singleton.mpr (.list none (hnone ▸ known))
    simpa using perform_render batch

/-- **A terminal performs the links that were written.** However many lists of links there are in a
batch, and whatever the parameters and labels of the links hold, the link of a number is the one at
that place among all links; what was escaped is read back as it was, and the link of an answer in a
dialogue names the ids of its character, entry and response. -/
theorem links_of_batch {batch : List (Output × List Offer)} (h : ∀ x ∈ batch, Carries x.1 x.2) :
    (linkAt? (render (batch.map Prod.fst)).2 0 = none ∧
      ∀ k, (linkAt? (render (batch.map Prod.fst)).2 (k + 1)).map Link.perform =
        (batch.flatMap Prod.snd)[k]?.map Offer.action) ∧
    (∀ s, unescape (escape s) = s) ∧
    (∀ w character e, (render (Dialogue.offers w character e)).2.map Link.perform =
      (dialogueOffers w character e).map Offer.action) ∧
    ∀ character entry response, Choice.ofText? (Dialogue.linkParam character entry response) =
      some ⟨character, some entry, response⟩ := by
  refine ⟨⟨rfl, fun k => ?_⟩, unescape_escape, perform_offers, ofText?_linkParam⟩
  rw [linkAt?, ← List.getElem?_map, perform_render h, List.getElem?_map]

/-- A label and a parameter may look like markup, or like what is escaped. -/
theorem links_of_batch_quoted :
    let inkwell : Offer := ⟨.take, "ink\" data-param=\"well", "<a>&quot;&amp;lt;"⟩
    let exit : Offer := ⟨.go, "&#39;north' > &", ""⟩
    (∀ x ∈ [(Output.message "Well <done>", []),
        (.replace .take (bulletList [inkwell.html]), [inkwell]),
        (.replace .go (bulletList [exit.html, exit.html]), [exit, exit])], Carries x.1 x.2) ∧
      (linkAt? (render [.message "Well <done>", .replace .take (bulletList [inkwell.html]),
        .replace .go (bulletList [exit.html, exit.html])]).2 2).map Link.perform =
          some ⟨.go, .text "&#39;north' > &"⟩ := by
  intro inkwell exit
  have inkwell_known : inkwell.IsKnown := nofun
  have exit_known : exit.IsKnown := nofun
  have carries : ∀ x ∈ [(Output.message "Well <done>", []),
      (.replace .take (bulletList [inkwell.html]), [inkwell]),
      (.replace .go (bulletList [exit.html, exit.html]), [exit, exit])], Carries x.1 x.2 := by
    intro x hx
    fin_cases hx
    · exact .free (by decide +kernel)
    · exact .list (some .take) (List.forall_mem_singleton.mpr inkwell_known)
    · exact .list (some .go)
        (List.forall_mem_cons.mpr ⟨exit_known, List.forall_mem_singleton.mpr exit_known⟩)
  exact ⟨carries, (links_of_batch carries).1.2 1⟩

end Terminal

end Storyworld
