import Storyworld.Document.Codec
import Storyworld.Proofs.Attribute

/-! # Documents read back

Each record is brought into the form in which its fields can be read one by one (`toJson_eq`). A
record of texts reads as it was written. One that holds values or an attribute tree is restored as
far as these are, and for a whole document `Document.restores_iff` says how far that is: its numbers
have to read back, and its trees must not be nested too deeply.
-/

namespace Storyworld

open Json

deriving instance BEq for ItemDraft, CharacterDraft, Document

/-! ## Records of texts -/

namespace Description

theorem toJson_eq (d : Description) : d.toJson = record (written
    ["default", "condition", "description"]
    [d.base.map whole, d.condition.map whole, d.addition.map whole]) := by
  simp [toJson, written_cons, written_nil]

theorem plain_toJson (d : Description) : d.toJson.Plain := by
  rw [toJson_eq]
  exact plain_written (by simp)

theorem decode_toJson (d : Description) (n : Nat) : decode (n + 1) d.toJson = some d := by
  rw [toJson_eq, decode, fields?_written_bind (by decide)]
  simp (disch := decide)

end Description

namespace Connection

theorem toJson_eq (c : Connection) : c.toJson = record (written ["direction", "target"]
    [some (whole c.direction), some (whole c.target)]) := by
  simp [toJson, written_cons, written_nil]

theorem plain_toJson (c : Connection) : c.toJson.Plain := by
  rw [toJson_eq]
  exact plain_written (by simp)

theorem decode_toJson (c : Connection) (n : Nat) : decode (n + 1) c.toJson = some c := by
  rw [toJson_eq, decode, fields?_written_bind (by decide)]
  simp (disch := decide)

end Connection

namespace Rule

theorem toJson_eq (r : Rule) : r.toJson = record (written ["condition", "description", "set"]
    [r.condition.map whole, r.narration.map whole, r.assignments.map whole]) := by
  simp [toJson, written_cons, written_nil]

theorem plain_toJson (r : Rule) : r.toJson.Plain := by
  rw [toJson_eq]
  exact plain_written (by simp)

theorem decode_toJson (r : Rule) (n : Nat) : decode (n + 1) r.toJson = some r := by
  rw [toJson_eq, decode, fields?_written_bind (by decide)]
  simp (disch := decide)

end Rule

namespace Response

theorem toJson_eq (r : Response) : r.toJson = record (written
    ["id", "text", "condition", "set", "next"]
    [some (whole r.id), r.text.map whole, r.condition.map whole, r.assignments.map whole,
      r.next.map whole]) := by
  simp [toJson, written_cons, written_nil]

theorem plain_toJson (r : Response) : r.toJson.Plain := by
  rw [toJson_eq]
  exact plain_written (by simp)

theorem decode_toJson (r : Response) (n : Nat) : decode (n + 1) r.toJson = some r := by
  rw [toJson_eq, decode, fields?_written_bind (by decide)]
  simp (disch := decide)

end Response

namespace DialogueEntry

theorem toJson_eq (e : DialogueEntry) : e.toJson = record (written
    ["id", "condition", "description", "set", "responses"]
    [e.id.map whole, e.condition.map whole, e.speech.map whole, e.assignments.map whole,
      listSlot Response.toJson e.responses]) := by
  simp [toJson, written_cons, written_nil]

theorem plain_toJson (e : DialogueEntry) : e.toJson.Plain := by
  rw [toJson_eq]
  exact plain_written (by simp [plainSlot_listSlot, Response.plain_toJson])

theorem decode_toJson (e : DialogueEntry) (n : Nat) : decode (n + 3) e.toJson = some e := by
  have responses : e.responses.mapM (fun r => Response.decode (n + 1) r.toJson) =
      some e.responses := mapM_eq_some_self fun r _ => r.decode_toJson n
  rw [toJson_eq, decode, fields?_written_bind (by decide)]
  simp (disch := decide) [responses]

end DialogueEntry

namespace Metadata

theorem toJson_eq (m : Metadata) : m.toJson = record (written
    ["title", "author", "version", "description", "language"]
    [some (whole m.title), m.author.map whole, m.version.map whole, m.description.map whole,
      m.language.map whole]) := by
  simp [toJson, written_cons, written_nil]

theorem plain_toJson (m : Metadata) : m.toJson.Plain := by
  rw [toJson_eq]
  exact plain_written (by simp)

theorem decode_toJson (m : Metadata) (n : Nat) : decode (n + 1) m.toJson = some m := by
  rw [toJson_eq, decode, fields?_written_bind (by decide)]
  simp (disch := decide)

end Metadata

theorem pageToJson_eq (page : String) :
    pageToJson page = record (written ["page"] [some (whole page)]) := by
  simp [pageToJson, written_cons, written_nil]

theorem decodePage_pageToJson (page : String) (n : Nat) :
    decodePage (n + 1) (pageToJson page) = some page := by
  rw [pageToJson_eq, decodePage, fields?_written_bind (by decide)]
  simp (disch := decide)

/-! ## Entities -/

/-- What a value that may be absent reads as. -/
def Value.rereadOptional (depth : Nat) (v : Option Value) : Option (Option Value) :=
  v.elim (some none) (Decoder.nullable Value.decode depth ∘ Value.toJson)

theorem Value.restores_rereadOptional_iff {depth : Nat} {v : Option Value} :
    Restores (rereadOptional depth v) v ↔ ∀ w ∈ v, ∀ x ∈ w.numbers, Number.ReadsBack x := by
  cases v with
  | none => exact iff_of_true ⟨none, rfl, rfl⟩ fun w hw => nomatch hw
  | some w =>
    have hall : (∀ u ∈ some w, ∀ x ∈ u.numbers, Number.ReadsBack x) ↔
        Restores (Value.decode depth w.toJson) w := by
      rw [Value.restores_iff]
      simp
    rw [hall]
    by_cases hnull : w.toJson = .null
    · have hread : rereadOptional depth (some w) = some none := by
        simp [rereadOptional, hnull, Decoder.nullable]
      rw [hread, hnull]
      exact iff_of_false (fun ⟨u, hu, heq⟩ => by cases hu; cases heq) (not_restores_none _)
    · have hread : rereadOptional depth (some w) = (Value.decode depth w.toJson).map some := by
        simp only [rereadOptional, Option.elim_some, Function.comp_apply]
        cases hj : w.toJson <;> first | exact absurd hj hnull | rfl
      rw [hread]
      cases Value.decode depth w.toJson with
      | none => exact iff_of_false (not_restores_none _) (not_restores_none _)
      | some u => simp [Restores]

namespace Location

theorem toJson_eq (l : Location) : l.toJson = record (written
    ["id", "name", "descriptions", "connections", "attributes"]
    [some (whole l.id), some (whole l.name),
      some (.array (l.descriptions.map Description.toJson)),
      listSlot Connection.toJson l.connections, l.attributes.member]) := by
  simp [toJson, descriptionsToJson, Attributes.toJson_eq_slot, written_cons, written_nil]

theorem plain_toJson (l : Location) : l.toJson.Plain := by
  rw [toJson_eq]
  exact plain_written (by
    simp [plain_array, plainSlot_listSlot, Description.plain_toJson, Connection.plain_toJson])

theorem decode_toJson (l : Location) (n : Nat) :
    decode (n + 3) l.toJson = (do
      let as ← l.attributes.reread (n + 2)
      pure { l with attributes := as }) := by
  have descriptions : l.descriptions.mapM (fun d => Description.decode (n + 1) d.toJson) =
      some l.descriptions := mapM_eq_some_self fun d _ => d.decode_toJson n
  have connections : l.connections.mapM (fun c => Connection.decode (n + 1) c.toJson) =
      some l.connections := mapM_eq_some_self fun c _ => c.decode_toJson n
  rw [toJson_eq, decode, fields?_written_bind (by decide)]
  simp (disch := decide) [descriptions, connections, Attributes.reread]

theorem restores_iff {l : Location} {n : Nat} :
    Restores (decode (n + 3) l.toJson) l ↔ Restores (l.attributes.reread (n + 2)) l.attributes := by
  rw [decode_toJson]
  refine restores_field_iff fun as => ?_
  have hbeq : ({ l with attributes := as } == l) =
      (l.id == l.id && (l.name == l.name && (l.descriptions == l.descriptions &&
        (l.connections == l.connections && as == l.attributes)))) := rfl
  simp [hbeq]

end Location

namespace ItemDraft

theorem toJson_eq (i : ItemDraft) : i.toJson = record (written
    ["id", "name", "owner", "visible", "movable", "descriptions", "onTake", "onDrop", "onUse",
      "onSee", "attributes"]
    [some (whole i.id), some (whole i.name), i.owner.map whole, i.visible.map Value.toJson,
      i.movable.map Value.toJson, some (.array (i.descriptions.map Description.toJson)),
      listSlot Rule.toJson i.onTake, listSlot Rule.toJson i.onDrop,
      listSlot Rule.toJson i.onUse, listSlot Rule.toJson i.onSee, i.attributes.member]) := by
  simp [toJson, descriptionsToJson, Attributes.toJson_eq_slot, written_cons, written_nil]

theorem plain_toJson (i : ItemDraft) : i.toJson.Plain := by
  rw [toJson_eq]
  exact plain_written (by
    simp [plain_array, plainSlot_listSlot, Description.plain_toJson, Rule.plain_toJson,
      Value.plain_toJson])

theorem decode_toJson (i : ItemDraft) (n : Nat) :
    decode (n + 3) i.toJson = (do
      let visible ← Value.rereadOptional (n + 2) i.visible
      let movable ← Value.rereadOptional (n + 2) i.movable
      let as ← i.attributes.reread (n + 2)
      pure { i with visible := visible, movable := movable, attributes := as }) := by
  have descriptions : i.descriptions.mapM (fun d => Description.decode (n + 1) d.toJson) =
      some i.descriptions := mapM_eq_some_self fun d _ => d.decode_toJson n
  have rules : ∀ rs : List Rule, rs.mapM (fun r => Rule.decode (n + 1) r.toJson) = some rs :=
    fun rs => mapM_eq_some_self fun r _ => r.decode_toJson n
  rw [toJson_eq, decode, fields?_written_bind (by decide)]
  simp (disch := decide) [descriptions, rules, Attributes.reread, Value.rereadOptional]

theorem restores_iff {i : ItemDraft} {n : Nat} :
    Restores (decode (n + 3) i.toJson) i ↔
      Restores (Value.rereadOptional (n + 2) i.visible) i.visible ∧
      Restores (Value.rereadOptional (n + 2) i.movable) i.movable ∧
      Restores (i.attributes.reread (n + 2)) i.attributes := by
  rw [decode_toJson]
  have hbeq : ∀ v m as, ({ i with visible := v, movable := m, attributes := as } == i) =
      (i.id == i.id && (i.name == i.name && (i.owner == i.owner && (v == i.visible &&
        (m == i.movable && (i.descriptions == i.descriptions && (i.onTake == i.onTake &&
          (i.onDrop == i.onDrop && (i.onUse == i.onUse && (i.onSee == i.onSee &&
            as == i.attributes)))))))))) := fun _ _ _ => rfl
  constructor
  · intro hread
    obtain ⟨j, hj, heq⟩ := hread
    simp only [Option.bind_eq_bind, Option.bind_eq_some_iff] at hj
    obtain ⟨v, hv, m, hm, as, has, hj⟩ := hj
    cases hj
    simp only [hbeq, BEq.rfl, Bool.true_and, Bool.and_eq_true] at heq
    exact ⟨⟨v, hv, heq.1⟩, ⟨m, hm, heq.2.1⟩, as, has, heq.2.2⟩
  · intro hparts
    obtain ⟨⟨v, hv, hveq⟩, ⟨m, hm, hmeq⟩, as, has, haseq⟩ := hparts
    refine ⟨_, by rw [hv, hm, has]; rfl, ?_⟩
    simp only [hbeq, BEq.rfl, hveq, hmeq, haseq, Bool.true_and]

end ItemDraft

namespace CharacterDraft

theorem toJson_eq (c : CharacterDraft) : c.toJson = record (written
    ["id", "name", "location", "visible", "descriptions", "onTalk", "attributes"]
    [some (whole c.id), some (whole c.name), c.location.map whole, c.visible.map Value.toJson,
      listSlot Description.toJson c.descriptions, listSlot DialogueEntry.toJson c.onTalk,
      c.attributes.member]) := by
  simp [toJson, Attributes.toJson_eq_slot, written_cons, written_nil]

theorem plain_toJson (c : CharacterDraft) : c.toJson.Plain := by
  rw [toJson_eq]
  exact plain_written (by
    simp [plainSlot_listSlot, Description.plain_toJson, DialogueEntry.plain_toJson,
      Value.plain_toJson])

theorem decode_toJson (c : CharacterDraft) (n : Nat) :
    decode (n + 5) c.toJson = (do
      let visible ← Value.rereadOptional (n + 4) c.visible
      let as ← c.attributes.reread (n + 4)
      pure { c with visible := visible, attributes := as }) := by
  have descriptions : c.descriptions.mapM (fun d => Description.decode (n + 3) d.toJson) =
      some c.descriptions := mapM_eq_some_self fun d _ => d.decode_toJson (n + 2)
  have entries : c.onTalk.mapM (fun e => DialogueEntry.decode (n + 3) e.toJson) =
      some c.onTalk := mapM_eq_some_self fun e _ => e.decode_toJson n
  rw [toJson_eq, decode, fields?_written_bind (by decide)]
  simp (disch := decide) [descriptions, entries, Attributes.reread, Value.rereadOptional]

theorem restores_iff {c : CharacterDraft} {n : Nat} :
    Restores (decode (n + 5) c.toJson) c ↔
      Restores (Value.rereadOptional (n + 4) c.visible) c.visible ∧
      Restores (c.attributes.reread (n + 4)) c.attributes := by
  rw [decode_toJson]
  have hbeq : ∀ v as, ({ c with visible := v, attributes := as } == c) =
      (c.id == c.id && (c.name == c.name && (c.location == c.location && (v == c.visible &&
        (c.descriptions == c.descriptions && (c.onTalk == c.onTalk &&
          as == c.attributes)))))) := fun _ _ => rfl
  constructor
  · intro hread
    obtain ⟨d, hd, heq⟩ := hread
    simp only [Option.bind_eq_bind, Option.bind_eq_some_iff] at hd
    obtain ⟨v, hv, as, has, hd⟩ := hd
    cases hd
    simp only [hbeq, BEq.rfl, Bool.true_and, Bool.and_eq_true] at heq
    exact ⟨⟨v, hv, heq.1⟩, as, has, heq.2⟩
  · intro hparts
    obtain ⟨⟨v, hv, hveq⟩, as, has, haseq⟩ := hparts
    refine ⟨_, by rw [hv, has]; rfl, ?_⟩
    simp only [hbeq, BEq.rfl, hveq, haseq, Bool.true_and]

end CharacterDraft

namespace Ending

theorem toJson_eq (e : Ending) : e.toJson = record (written ["id", "descriptions", "attributes"]
    [some (whole e.id), some (.array (e.descriptions.map Description.toJson)),
      e.attributes.member]) := by
  simp [toJson, descriptionsToJson, Attributes.toJson_eq_slot, written_cons, written_nil]

theorem plain_toJson (e : Ending) : e.toJson.Plain := by
  rw [toJson_eq]
  exact plain_written (by
    simp [plain_array, Description.plain_toJson])

theorem decode_toJson (e : Ending) (n : Nat) :
    decode (n + 3) e.toJson = (do
      let as ← e.attributes.reread (n + 2)
      pure { e with attributes := as }) := by
  have descriptions : e.descriptions.mapM (fun d => Description.decode (n + 1) d.toJson) =
      some e.descriptions := mapM_eq_some_self fun d _ => d.decode_toJson n
  rw [toJson_eq, decode, fields?_written_bind (by decide)]
  simp (disch := decide) [descriptions, Attributes.reread]

theorem restores_iff {e : Ending} {n : Nat} :
    Restores (decode (n + 3) e.toJson) e ↔ Restores (e.attributes.reread (n + 2)) e.attributes := by
  rw [decode_toJson]
  refine restores_field_iff fun as => ?_
  have hbeq : ({ e with attributes := as } == e) =
      (e.id == e.id && (e.descriptions == e.descriptions && as == e.attributes)) := rfl
  simp [hbeq]

end Ending

namespace Variable

theorem toJson_eq (v : Variable) : v.toJson = record (written ["id", "value", "attributes"]
    [some (whole v.id), some v.value.toJson, v.attributes.member]) := by
  simp [toJson, Attributes.toJson_eq_slot, written_cons, written_nil]

theorem plain_toJson (v : Variable) : v.toJson.Plain := by
  rw [toJson_eq]
  exact plain_written (by simp [Value.plain_toJson])

theorem decode_toJson (v : Variable) (n : Nat) :
    decode (n + 1) v.toJson = (do
      let value ← Value.decode n v.value.toJson
      let as ← v.attributes.reread n
      pure { v with value := value, attributes := as }) := by
  rw [toJson_eq, decode, fields?_written_bind (by decide)]
  simp (disch := decide) [Attributes.reread]

theorem restores_iff {v : Variable} {n : Nat} :
    Restores (decode (n + 1) v.toJson) v ↔
      Restores (Value.decode n v.value.toJson) v.value ∧
      Restores (v.attributes.reread n) v.attributes := by
  rw [decode_toJson]
  have hbeq : ∀ x as, ({ v with value := x, attributes := as } == v) =
      (v.id == v.id && (x == v.value && as == v.attributes)) := fun _ _ => rfl
  constructor
  · intro hread
    obtain ⟨w, hw, heq⟩ := hread
    simp only [Option.bind_eq_bind, Option.bind_eq_some_iff] at hw
    obtain ⟨x, hx, as, has, hw⟩ := hw
    cases hw
    simp only [hbeq, BEq.rfl, Bool.true_and, Bool.and_eq_true] at heq
    exact ⟨⟨x, hx, heq.1⟩, as, has, heq.2⟩
  · intro hparts
    obtain ⟨⟨x, hx, hxeq⟩, as, has, haseq⟩ := hparts
    refine ⟨_, by rw [hx, has]; rfl, ?_⟩
    simp only [hbeq, BEq.rfl, hxeq, haseq, Bool.true_and]

end Variable

/-! ## Documents -/

namespace Document

/-- The attribute trees of all entities. -/
def trees (d : Document) : List Attributes :=
  d.locations.map (·.attributes) ++ d.items.map (·.attributes) ++
    d.characters.map (·.attributes) ++ d.endings.map (·.attributes) ++ d.vars.map (·.attributes)

/-- The values outside the attribute trees. -/
def values (d : Document) : List Value :=
  d.items.flatMap (fun i => i.visible.toList ++ i.movable.toList) ++
    d.characters.flatMap (·.visible.toList) ++ d.vars.map (·.value)

/-- All numbers. -/
def numbers (d : Document) : List Float :=
  d.values.flatMap Value.numbers ++ d.trees.flatMap fun as => (Attribute.map as).numbers

theorem toJson_eq (d : Document) : d.toJson = record (written
    ["metadata", "intro", "locations", "items", "characters", "endings", "variables"]
    [some d.metadata.toJson, listSlot pageToJson d.intro,
      some (.array (d.locations.map Location.toJson)),
      some (.array (d.items.map ItemDraft.toJson)),
      some (.array (d.characters.map CharacterDraft.toJson)),
      some (.array (d.endings.map Ending.toJson)),
      some (.array (d.vars.map Variable.toJson))]) := by
  simp [toJson, written_cons, written_nil]

theorem plain_toJson (d : Document) : d.toJson.Plain := by
  rw [toJson_eq]
  have pages : ∀ page, (pageToJson page).Plain := by
    intro page
    rw [pageToJson_eq]
    exact plain_written (by simp)
  exact plain_written (by
    simp [plain_array, plainSlot_listSlot, pages, Metadata.plain_toJson, Location.plain_toJson,
      ItemDraft.plain_toJson, CharacterDraft.plain_toJson, Ending.plain_toJson,
      Variable.plain_toJson])

theorem decode_toJson (d : Document) (n : Nat) :
    decode (n + 7) d.toJson = (do
      let locations ← d.locations.mapM fun l => Location.decode (n + 5) l.toJson
      let items ← d.items.mapM fun i => ItemDraft.decode (n + 5) i.toJson
      let characters ← d.characters.mapM fun c => CharacterDraft.decode (n + 5) c.toJson
      let endings ← d.endings.mapM fun e => Ending.decode (n + 5) e.toJson
      let vars ← d.vars.mapM fun v => Variable.decode (n + 5) v.toJson
      pure { d with
        locations := locations, items := items, characters := characters, endings := endings,
        vars := vars }) := by
  have intro : d.intro.mapM (fun page => decodePage (n + 5) (pageToJson page)) = some d.intro :=
    mapM_eq_some_self fun page _ => decodePage_pageToJson page (n + 4)
  have metadata : Metadata.decode (n + 6) d.metadata.toJson = some d.metadata :=
    d.metadata.decode_toJson (n + 5)
  rw [toJson_eq, decode, fields?_written_bind (by decide)]
  simp (disch := decide) [intro, metadata]

/-- A document is restored if its entities are. -/
theorem restores_iff_lists {d : Document} {n : Nat} :
    Restores (decode (n + 7) d.toJson) d ↔
      (∀ l ∈ d.locations, Restores (Location.decode (n + 5) l.toJson) l) ∧
      (∀ i ∈ d.items, Restores (ItemDraft.decode (n + 5) i.toJson) i) ∧
      (∀ c ∈ d.characters, Restores (CharacterDraft.decode (n + 5) c.toJson) c) ∧
      (∀ e ∈ d.endings, Restores (Ending.decode (n + 5) e.toJson) e) ∧
      (∀ v ∈ d.vars, Restores (Variable.decode (n + 5) v.toJson) v) := by
  simp only [← restores_mapM_iff]
  rw [decode_toJson]
  have hbeq : ∀ ls is cs es vs,
      ({ d with locations := ls, items := is, characters := cs, endings := es, vars := vs } == d) =
        (d.metadata == d.metadata && (d.intro == d.intro && (ls == d.locations &&
          (is == d.items && (cs == d.characters && (es == d.endings && vs == d.vars)))))) :=
    fun _ _ _ _ _ => rfl
  constructor
  · intro hread
    obtain ⟨d', hd', heq⟩ := hread
    simp only [Option.bind_eq_bind, Option.bind_eq_some_iff] at hd'
    obtain ⟨ls, hls, is, his, cs, hcs, es, hes, vs, hvs, hd'⟩ := hd'
    cases hd'
    simp only [hbeq, BEq.rfl, Bool.true_and, Bool.and_eq_true] at heq
    exact ⟨⟨ls, hls, heq.1⟩, ⟨is, his, heq.2.1⟩, ⟨cs, hcs, heq.2.2.1⟩, ⟨es, hes, heq.2.2.2.1⟩,
      vs, hvs, heq.2.2.2.2⟩
  · intro hparts
    obtain ⟨⟨ls, hls, hl⟩, ⟨is, his, hi⟩, ⟨cs, hcs, hc⟩, ⟨es, hes, he⟩, vs, hvs, hv⟩ := hparts
    refine ⟨_, by rw [hls, his, hcs, hes, hvs]; rfl, ?_⟩
    simp only [hbeq, BEq.rfl, hl, hi, hc, he, hv, Bool.true_and]

/-- **A document is restored** if and only if its numbers read back and none of its trees is nested
too deeply. -/
theorem restores_iff {d : Document} {n : Nat} :
    Restores (decode (n + 7) d.toJson) d ↔
      (∀ x ∈ d.numbers, Number.ReadsBack x) ∧
        ∀ as ∈ d.trees, (Attribute.map as).depth ≤ n + 4 := by
  have tree : ∀ as : Attributes, Restores (as.reread (n + 4)) as ↔
      (Attribute.map as).depth ≤ n + 4 ∧
        ∀ x ∈ (Attribute.map as).numbers, Number.ReadsBack x :=
    fun _ => Attributes.restores_reread_iff
  simp only [restores_iff_lists, Location.restores_iff, ItemDraft.restores_iff,
    CharacterDraft.restores_iff, Ending.restores_iff, Variable.restores_iff, tree,
    Value.restores_rereadOptional_iff, Value.restores_iff]
  simp only [numbers, values, trees, List.forall_mem_append, List.forall_mem_flatMap,
    List.forall_mem_map, Option.mem_toList, forall_and]
  constructor
  · rintro ⟨⟨l, ln⟩, ⟨iv, im, i, iN⟩, ⟨cv, c, cn⟩, ⟨e, en⟩, vv, v, vn⟩
    exact ⟨⟨⟨⟨⟨iv, im⟩, cv⟩, vv⟩, ⟨⟨⟨ln, iN⟩, cn⟩, en⟩, vn⟩, ⟨⟨⟨l, i⟩, c⟩, e⟩, v⟩
  · rintro ⟨⟨⟨⟨⟨iv, im⟩, cv⟩, vv⟩, ⟨⟨⟨ln, iN⟩, cn⟩, en⟩, vn⟩, ⟨⟨⟨l, i⟩, c⟩, e⟩, v⟩
    exact ⟨⟨l, ln⟩, ⟨iv, im, i, iN⟩, ⟨cv, c, cn⟩, ⟨e, en⟩, vv, v, vn⟩

end Document

end Storyworld
