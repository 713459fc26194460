import Mathlib.Data.List.Nodup
import Storyworld.Proofs.Result
import Storyworld.World.Load

/-! # What the loader accepts

`check` finds the first fault among ids, player and references. `check_eq_ok_iff` says without an
order of faults when there is none: the document is `WellFormed`. A flag or a value never matters.
-/

namespace Storyworld

/-- A text that may be an id. -/
def IsId (s : String) : Prop :=
  Text.isBlankText s = false ∧ ':' ∉ s.toList

theorem IsId.ne_empty {s : String} (h : IsId s) : s ≠ "" := by
  rintro rfl
  exact absurd h.1 (by decide)

theorem placed_eq_some_iff {reference : Option String} {s : String} :
    placed reference = some s ↔ reference = some s ∧ s ≠ "" := by
  simp [placed, Option.filter_eq_some_iff]

namespace Document

/-- Ids name one entity each, the player stands somewhere, and every reference that is not empty
leads to an entity of the kind it is to. -/
structure WellFormed (d : Document) : Prop where
  ids : ∀ id ∈ d.ids, IsId id
  distinct : d.ids.Nodup
  player : ∃ c ∈ d.characters, c.id = playerId ∧ ∃ l ∈ d.locations, c.location = some l.id
  connections : ∀ l ∈ d.locations, ∀ c ∈ l.connections, ∃ t ∈ d.locations, t.id = c.target
  characters : ∀ c ∈ d.characters, ∀ place, placed c.location = some place →
    ∃ l ∈ d.locations, l.id = place
  items : ∀ i ∈ d.items, ∀ owner, placed i.owner = some owner →
    (∃ l ∈ d.locations, l.id = owner) ∨ ∃ c ∈ d.characters, c.id = owner

theorem hasLocation_iff {d : Document} {id : String} :
    d.hasLocation id = true ↔ ∃ l ∈ d.locations, l.id = id := by
  simp [hasLocation]

theorem hasCharacter_iff {d : Document} {id : String} :
    d.hasCharacter id = true ↔ ∃ c ∈ d.characters, c.id = id := by
  simp [hasCharacter]

theorem checkIds_eq_ok_iff {seen ids : List String} :
    checkIds seen ids = .ok () ↔
      (∀ id ∈ ids, IsId id) ∧ ids.Nodup ∧ ∀ id ∈ ids, id ∉ seen := by
  induction ids generalizing seen with
  | nil => simp [checkIds]
  | cons id rest ih =>
    unfold checkIds
    split
    · rename_i hblank
      simp [IsId, hblank]
    · rename_i hblank
      split
      · rename_i hcolon
        simp [IsId, hcolon]
      · rename_i hcolon
        split
        · rename_i hseen
          simp [hseen]
        · rename_i hseen
          have hid : IsId id := ⟨by simpa using hblank, hcolon⟩
          rw [ih]
          simp only [List.mem_cons, forall_eq_or_imp, not_or, List.nodup_cons, hid, hseen,
            not_false_eq_true, true_and]
          constructor
          · intro hall
            obtain ⟨hids, hnodup, hfresh⟩ := hall
            exact ⟨hids, ⟨fun hm => (hfresh id hm).1 rfl, hnodup⟩, fun x hx => (hfresh x hx).2⟩
          · intro hall
            obtain ⟨hids, ⟨hnew, hnodup⟩, hfresh⟩ := hall
            exact ⟨hids, hnodup, fun x hx => ⟨fun he => hnew (he ▸ hx), hfresh x hx⟩⟩

/-- With distinct ids the character that is found is the only one there is to be found. -/
theorem checkPlayer_eq_ok_iff {d : Document} (hd : (d.characters.map (·.id)).Nodup) :
    d.checkPlayer = .ok () ↔
      ∃ c ∈ d.characters, c.id = playerId ∧ ∃ l ∈ d.locations, c.location = some l.id := by
  unfold checkPlayer
  cases hfind : d.characters.find? (·.id == playerId) with
  | none =>
    have hnone := List.find?_eq_none.mp hfind
    simp only [reduceCtorEq, false_iff]
    intro htarget
    obtain ⟨c, hc, hid, -⟩ := htarget
    exact hnone c hc (by simpa using hid)
  | some player =>
    have hmem := List.mem_of_find?_eq_some hfind
    have hid : player.id = playerId := by simpa using List.find?_some hfind
    have honly : ∀ c ∈ d.characters, c.id = playerId → c = player := fun c hc h =>
      List.inj_on_of_nodup_map hd hc hmem (h.trans hid.symm)
    constructor
    · intro h
      cases hplace : player.location with
      | none => simp [hplace] at h
      | some place =>
        simp only [hplace] at h
        split at h
        · rename_i hhas
          obtain ⟨l, hl, rfl⟩ := hasLocation_iff.mp hhas
          exact ⟨player, hmem, hid, l, hl, hplace⟩
        · cases h
    · intro hplayer
      obtain ⟨c, hc, hcid, l, hl, hplace⟩ := hplayer
      rw [honly c hc hcid] at hplace
      simp [hplace, hasLocation_iff.mpr ⟨l, hl, rfl⟩]

theorem checkConnections_eq_ok_iff {d : Document} :
    d.checkConnections = .ok () ↔
      ∀ l ∈ d.locations, ∀ c ∈ l.connections, ∃ t ∈ d.locations, t.id = c.target := by
  simp only [checkConnections, Except.forM_eq_ok_iff, ← hasLocation_iff]
  simp

theorem checkCharacters_eq_ok_iff {d : Document} :
    d.checkCharacters = .ok () ↔ ∀ c ∈ d.characters, ∀ place, placed c.location = some place →
      ∃ l ∈ d.locations, l.id = place := by
  simp only [checkCharacters, Except.forM_eq_ok_iff, ← hasLocation_iff]
  refine forall₂_congr fun c _ => ?_
  cases placed c.location <;> simp

theorem checkItems_eq_ok_iff {d : Document} :
    d.checkItems = .ok () ↔ ∀ i ∈ d.items, ∀ owner, placed i.owner = some owner →
      (∃ l ∈ d.locations, l.id = owner) ∨ ∃ c ∈ d.characters, c.id = owner := by
  simp only [checkItems, Except.forM_eq_ok_iff, ← hasLocation_iff, ← hasCharacter_iff]
  refine forall₂_congr fun i _ => ?_
  cases placed i.owner with
  | none => simp
  | some owner => simp [Decidable.or_iff_not_imp_left]

theorem nodup_characters {d : Document} (h : d.ids.Nodup) :
    (d.characters.map (·.id)).Nodup := by
  simp only [ids, List.nodup_append] at h
  exact h.1.1.2.1

/-- **The loader refuses nothing else.** -/
theorem check_eq_ok_iff {d : Document} : d.check = .ok () ↔ d.WellFormed := by
  simp only [check, Except.checks_eq_ok_iff, checkIds_eq_ok_iff, checkConnections_eq_ok_iff,
    checkCharacters_eq_ok_iff, checkItems_eq_ok_iff]
  constructor
  · intro hall
    obtain ⟨⟨hids, hdistinct, -⟩, hplayer, hconnections, hcharacters, hitems⟩ := hall
    exact ⟨hids, hdistinct, (checkPlayer_eq_ok_iff (nodup_characters hdistinct)).mp hplayer,
      hconnections, hcharacters, hitems⟩
  · intro h
    exact ⟨⟨h.ids, h.distinct, by simp⟩,
      (checkPlayer_eq_ok_iff (nodup_characters h.distinct)).mpr h.player,
      h.connections, h.characters, h.items⟩

end Document

namespace World

theorem load_eq_ok_iff {d : Document} {w : World} :
    World.load d = .ok w ↔ d.WellFormed ∧ d.world = w := by
  rw [← Document.check_eq_ok_iff]
  unfold load
  cases d.check with
  | error e => simp [bind, Except.bind]
  | ok u => simp [bind, Except.bind, pure, Except.pure]

end World

end Storyworld
