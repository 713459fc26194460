import Storyworld.Proofs.World.Default

/-! # Scalars in the way

A path may lead through a node of an entity on the way to where another one leads (`Path.Above`).
Nothing is below a scalar, and nothing can be written below it. So the only write that takes a scalar
away is one above it (`lookup_set_of_not_above`), and what is written there bars the way from then on
(`Barred.set`).
-/

namespace Storyworld

namespace Path

/-- A path leads to a node of an entity on the way to where another one leads. A path of one segment
leads to a variable, which is on the way to nothing. -/
def Above (source other : String) : Prop :=
  2 ≤ (segments source).length ∧ segments source <+: segments other ∧
    segments source ≠ segments other

instance (source other : String) : Decidable (Above source other) :=
  inferInstanceAs (Decidable (_ ∧ _ ∧ _))

theorem Above.trans {first second third : String} (h : Above first second)
    (h' : Above second third) : Above first third := by
  refine ⟨h.1, h.2.1.trans h'.2.1, fun heq => h.2.2 ?_⟩
  have hback : segments second <+: segments first := heq ▸ h'.2.1
  exact h.2.1.eq_of_length_le hback.length_le

/-- The keys of a path are in front of those of a path below. -/
theorem Above.keys {source other : String} {p q : Path} (h : Above source other)
    (hp : ofText? source = some p) (hq : ofText? other = some q) :
    p.root = q.root ∧ ∃ key rest k r, p.keys = key :: rest ∧ q.keys = p.keys ++ k :: r := by
  obtain ⟨hlength, ⟨tail, htail⟩, hne⟩ := h
  rw [(segments_of_ofText? hp).1] at hlength htail hne
  rw [(segments_of_ofText? hq).1] at htail hne
  obtain ⟨hroot, hkeys⟩ := List.cons.inj htail
  obtain ⟨key, rest, hcons⟩ := List.exists_cons_of_length_pos (Nat.lt_of_succ_lt_succ hlength)
  cases tail with
  | nil => exact absurd (List.append_nil (_ :: _) ▸ htail) hne
  | cons k r => exact ⟨hroot, key, rest, k, r, hcons, hkeys.symm⟩

end Path

/-! ## Reading -/

namespace World

variable {w : World} {source other key : String} {rest : List String} {p q : Path} {u v : Value}

theorem exists_path_of_lookup (h : w.lookup source = .ok u) : ∃ p, Path.ofText? source = some p := by
  cases hp : Path.ofText? source with
  | none =>
    rw [lookup, path, hp] at h
    cases h
  | some p => exact ⟨p, rfl⟩

theorem exists_variable_of_lookup (hp : Path.ofText? source = some p) (hkeys : p.keys = [])
    (h : w.lookup source = .ok u) : ∃ x, w.variableNamed? p.root = some x := by
  cases hvar : w.variableNamed? p.root with
  | none =>
    rw [lookup, path_eq_ok_iff.mpr hp] at h
    simp [bind, Except.bind, hkeys, hvar] at h
  | some x => exact ⟨x, rfl⟩

theorem exists_entity_of_lookup (hp : Path.ofText? source = some p) (hkeys : p.keys = key :: rest)
    (h : w.lookup source = .ok u) :
    ∃ e, w.find? p.root = some e ∧ readBelow e source key rest = .ok u := by
  cases hfind : w.find? p.root with
  | none =>
    rw [lookup_of_absent hp (hkeys ▸ List.cons_ne_nil key rest) hfind] at h
    cases h
  | some e =>
    rw [lookup_below hp hkeys hfind] at h
    exact ⟨e, rfl, h⟩

/-- A scalar is read along every text that writes its path. -/
theorem lookup_of_segments (hsame : Path.segments source = Path.segments other)
    (h : w.lookup source = .ok u) : w.lookup other = .ok u := by
  obtain ⟨p, hp⟩ := exists_path_of_lookup h
  have hq : Path.ofText? other = some p := by rw [← hp, Path.ofText?, Path.ofText?, hsame]
  cases hkeys : p.keys with
  | nil =>
    obtain ⟨x, hvar⟩ := exists_variable_of_lookup hp hkeys h
    rw [lookup_bare hq hkeys hvar, ← lookup_bare hp hkeys hvar, h]
  | cons key rest =>
    obtain ⟨e, hfind, hread⟩ := exists_entity_of_lookup hp hkeys h
    rw [lookup_below hq hkeys hfind]
    exact readBelow_eq_ok_iff.mpr (readBelow_eq_ok_iff.mp hread)

/-- There is nothing below a scalar. -/
theorem lookup_ne_ok_of_above (habove : Path.Above source other) (h : w.lookup source = .ok u) :
    w.lookup other ≠ .ok v := by
  intro hother
  obtain ⟨p, hp⟩ := exists_path_of_lookup h
  obtain ⟨q, hq⟩ := exists_path_of_lookup hother
  obtain ⟨hroot, key, rest, k, r, hkeys, hbelow⟩ := habove.keys hp hq
  rw [hkeys, List.cons_append] at hbelow
  obtain ⟨e, hfind, hread⟩ := exists_entity_of_lookup hp hkeys h
  obtain ⟨e', hfind', hread'⟩ := exists_entity_of_lookup hq hbelow hother
  cases (hroot ▸ hfind).symm.trans hfind'
  obtain ⟨hnil, -⟩ | ⟨hfield', hnode'⟩ := readBelow_eq_ok_iff.mp hread'
  · cases rest <;> cases hnil
  obtain ⟨-, hfield⟩ | ⟨-, hnode⟩ := readBelow_eq_ok_iff.mp hread
  · cases hfield.symm.trans hfield'
  · have hnothing := Attribute.read_append_of_ok hnode k r
    rw [List.cons_append, hnode'] at hnothing
    cases hnothing

/-- Where a variable gets another value, there are scalars below its name where there were some. -/
theorem exists_readBelow_value {x : Variable} (h : readBelow (.variable x) source key rest = .ok u)
    (v : Value) : ∃ u', readBelow (.variable { x with value := v }) source key rest = .ok u' := by
  have hwrote : (Entity.variable x).Wrote "value" v (.variable { x with value := v }) :=
    ⟨rfl, rfl, rfl⟩
  obtain ⟨hnil, hfield⟩ | ⟨hfield, hnode⟩ := readBelow_eq_ok_iff.mp h
  · by_cases hkey : key = "value"
    · exact ⟨_, readBelow_eq_ok_iff.mpr
        (.inl ⟨hnil, (hwrote.field? key).trans (if_pos hkey)⟩)⟩
    · exact ⟨u, readBelow_eq_ok_iff.mpr
        (.inl ⟨hnil, (hwrote.field? key).trans ((if_neg hkey).trans hfield)⟩)⟩
  · have hkey : key ≠ "value" := by
      rintro rfl
      cases hfield
    exact ⟨u, readBelow_eq_ok_iff.mpr
      (.inr ⟨(hwrote.field? key).trans ((if_neg hkey).trans hfield), hnode⟩)⟩

/-- No variable is taken away. -/
theorem exists_variableNamed?_replace {id : String} {x : Variable}
    (h : w.variableNamed? id = some x) (e : Entity) :
    ∃ y, (w.replace e).variableNamed? id = some y := by
  by_cases hid : id = e.id
  · cases e with
    | «variable» y =>
      subst hid
      refine ⟨y, (find?_overwrite_self Variable.id y w.vars).trans ?_⟩
      rw [show w.vars.find? (Variable.id · == y.id) = some x from h]
      rfl
    | _ => exact ⟨x, h⟩
  · exact ⟨x, (variableNamed?_replace_of_ne hid).trans h⟩

end World

/-! ## Writing -/

namespace Store

open World

variable {w w' : World} {source other : String} {p q : Path} {u v : Value}

/-- Nothing is written below a scalar. -/
theorem lookup_ne_ok_of_set (h : set source v w = (.ok (), w')) (habove : Path.Above other source) :
    w.lookup other ≠ .ok u := by
  intro hother
  obtain ⟨p, hp⟩ := exists_path_of_set h
  obtain ⟨q, hq⟩ := exists_path_of_lookup hother
  obtain ⟨hroot, key, rest, k, r, hkeys, hbelow⟩ := habove.keys hq hp
  rw [hkeys, List.cons_append] at hbelow
  have hresult := set_result source v w
  generalize set source v w = left at hresult h
  cases hresult with
  | refused => cases h
  | assigned path bare | created path bare =>
    obtain rfl := Option.some.inj (hp.symm.trans path)
    cases hbelow.symm.trans bare
  | field path keys =>
    obtain rfl := Option.some.inj (hp.symm.trans path)
    have hnil := (List.cons.inj (hbelow.symm.trans keys)).2
    cases rest <;> cases hnil
  | inTree below =>
    obtain rfl := Option.some.inj (hp.symm.trans below.path)
    cases hbelow.symm.trans below.keys
    obtain ⟨as, hput, -⟩ := inAttributes_eq_ok h
    obtain ⟨e, hfind, hread⟩ := exists_entity_of_lookup hq hkeys hother
    cases (hroot ▸ hfind).symm.trans below.found
    obtain ⟨-, hfield⟩ | ⟨-, hnode⟩ := readBelow_eq_ok_iff.mp hread
    · cases hfield.symm.trans below.notField
    · exact Attributes.Change.read_ne_ok_of_atEnd hput (List.prefix_append _ _) (by simp) u hnode

theorem exists_lookup_of_set_bare (h : set source v w = (.ok (), w'))
    (hp : Path.ofText? source = some p) (hbare : p.keys = []) (hq : Path.ofText? other = some q)
    (hroot : p.root = q.root) (hkeys : q.keys ≠ []) (hother : w.lookup other = .ok u) :
    ∃ u', w'.lookup other = .ok u' := by
  obtain ⟨key, rest, hcons⟩ := List.exists_cons_of_ne_nil hkeys
  obtain ⟨e, hfind, hread⟩ := exists_entity_of_lookup hq hcons hother
  obtain ⟨x, hx, rfl⟩ | ⟨hfresh, -⟩ := set_bare h hp hbare
  · cases (hroot ▸ hx).symm.trans hfind
    obtain ⟨u', hread'⟩ := exists_readBelow_value hread v
    have hnew : (w.replace (.variable { x with value := v })).find? q.root =
        some (.variable { x with value := v }) := find?_replace_self hfind rfl rfl
    exact ⟨u', (lookup_below hq hcons hnew).trans hread'⟩
  · cases (hroot ▸ hfresh).symm.trans hfind

theorem exists_lookup_of_set_below (h : set source v w = (.ok (), w'))
    (hp : Path.ofText? source = some p) (hkeys : p.keys ≠ []) (hq : Path.ofText? other = some q)
    (hbare : q.keys = []) (hother : w.lookup other = .ok u) : ∃ u', w'.lookup other = .ok u' := by
  obtain ⟨key, rest, hcons⟩ := List.exists_cons_of_ne_nil hkeys
  obtain ⟨_, e', -, -, -, rfl, -⟩ := set_below h hp hcons
  obtain ⟨x, hvar⟩ := exists_variable_of_lookup hq hbare hother
  obtain ⟨y, hy⟩ := exists_variableNamed?_replace hvar e'
  exact ⟨y.value, lookup_bare hq hbare hy⟩

/-- **A scalar stays where it is**, or another one in its place, unless the write is above it. -/
theorem lookup_set_of_not_above (h : set source v w = (.ok (), w')) (hother : w.lookup other = .ok u)
    (hnot : ¬Path.Above source other) : ∃ u', w'.lookup other = .ok u' := by
  obtain ⟨p, hp⟩ := exists_path_of_set h
  obtain ⟨q, hq⟩ := exists_path_of_lookup hother
  have hp' := (Path.segments_of_ofText? hp).1
  have hq' := (Path.segments_of_ofText? hq).1
  by_cases hsame : Path.segments source = Path.segments other
  · exact ⟨_, lookup_of_segments hsame (lookup_set_self h hp)⟩
  by_cases hdown : Path.segments source <+: Path.segments other
  · have hbare : p.keys = [] := by
      by_contra hkeys
      refine hnot ⟨?_, hdown, hsame⟩
      rw [hp']
      exact Nat.succ_le_succ (List.length_pos_iff.mpr hkeys)
    rw [hp', hq', List.cons_prefix_cons] at hdown
    rw [hp', hq', hbare, hdown.1] at hsame
    exact exists_lookup_of_set_bare h hp hbare hq hdown.1 (fun hnil => hsame (hnil ▸ rfl)) hother
  by_cases hup : Path.segments other <+: Path.segments source
  · have hbare : q.keys = [] := by
      by_contra hkeys
      refine lookup_ne_ok_of_set h ⟨?_, hup, Ne.symm hsame⟩ hother
      rw [hq']
      exact Nat.succ_le_succ (List.length_pos_iff.mpr hkeys)
    rw [hp', hq', List.cons_prefix_cons] at hup
    rw [hp', hq', hbare, hup.1] at hsame
    exact exists_lookup_of_set_below h hp (fun hnil => hsame (hnil ▸ rfl)) hq hbare hother
  · have hkept := lookup_set_of_not_prefix h hdown hup
    exact ⟨u, hkept.trans hother⟩

end Store

/-! ## What bars the way -/

namespace World

/-- A scalar is in the way of a path. -/
def Barred (w : World) (other : String) : Prop :=
  ∃ source u, Path.Above source other ∧ w.lookup source = .ok u

variable {w w' : World} {source other : String} {v : Value}

theorem Barred.lookup_ne_ok (h : w.Barred other) : w.lookup other ≠ .ok v := by
  obtain ⟨source, u, habove, hread⟩ := h
  exact lookup_ne_ok_of_above habove hread

/-- What is written above a path bars it. -/
theorem barred_of_set (h : Store.set source v w = (.ok (), w')) (habove : Path.Above source other) :
    w'.Barred other := by
  obtain ⟨p, hp⟩ := Store.exists_path_of_set h
  exact ⟨source, _, habove, Store.lookup_set_self h hp⟩

/-- **A way that is barred stays barred.** -/
theorem Barred.set (h : w.Barred other) (hset : Store.set source v w = (.ok (), w')) :
    w'.Barred other := by
  obtain ⟨between, u, habove, hread⟩ := h
  by_cases hhigher : Path.Above source between
  · exact barred_of_set hset (hhigher.trans habove)
  · obtain ⟨u', hread'⟩ := Store.lookup_set_of_not_above hset hread hhigher
    exact ⟨between, u', habove, hread'⟩

end World

end Storyworld
