import Storyworld.Proofs.Script.Acceptance
import Storyworld.Proofs.World.ReadWrite
import Storyworld.Script.Condition

/-! # What a condition depends on

A condition comes to what its tests come to, whatever operators stand between them
(`Condition.evaluate_congr`), and its tests are the runs of text that its source was cut into
(`Condition.exists_token_of_mem_atoms`), so the literal of a test is a part of the source. Of a
variable, a test sees the value or something that the value has no part in (`lookup_revalue`).
-/

namespace Storyworld.Script

/-! ## Operands of a program -/

section

variable {α ο : Type} {T : OperatorTable ο}

/-- The operand that a token is, if it is one. -/
def Infix.operand? : Infix α ο → Option α
  | .operand a => some a
  | .operator _ | .opening _ | .closing _ => none

theorem operands_append (first second : List (Postfix α ο)) :
    operands (first ++ second) = operands first ++ operands second :=
  List.filterMap_append

theorem operands_operators (released : List ο) :
    operands (released.map (Postfix.operator (α := α))) = [] := by
  simp [operands]

/-- The reordering keeps the operands, and their order. -/
theorem operands_of_convert {tokens : List (Infix α ο)} {stack : List (Pending ο)}
    {program : List (Postfix α ο)} (h : convert T tokens stack = .ok program) :
    operands program = tokens.filterMap Infix.operand? := by
  induction tokens generalizing stack program with
  | nil =>
    obtain ⟨released, -, rfl⟩ := Except.map_eq_ok h
    exact operands_operators released
  | cons token tokens ih =>
    obtain ⟨out, stack', rest, hstep, hrest, rfl⟩ := convert_cons_eq_ok h
    rw [operands_append, ih hrest]
    cases hstep with
    | operand a | opening span => rfl
    | operator o released kept | closing span opened released kept =>
      rw [operands_operators]
      rfl

variable {m : Type → Type} [Monad m] {β : Type}

/-- What a program comes to depends on what its operands come to. -/
theorem runOn_congr {f g : α → m β} {apply : ο → List β → m β} {underflow : m β}
    {program : List (Postfix α ο)} (h : ∀ a ∈ operands program, f a = g a) (stack : List β) :
    runOn T f apply underflow program stack = runOn T g apply underflow program stack := by
  induction program generalizing stack with
  | nil =>
    match stack with
    | [] | [_] | _ :: _ :: _ => rfl
  | cons step program ih =>
    cases step with
    | operand a =>
      have hhead : f a = g a := h a List.mem_cons_self
      have htail := ih fun b hb => h b (List.mem_cons_of_mem a hb)
      simp only [runOn, hhead, htail]
    | operator o =>
      have htail := ih fun b hb => h b hb
      simp only [runOn, htail]

end

namespace Condition

theorem evaluate_congr {c : Condition} {w w' : World}
    (h : ∀ a ∈ c.atoms, a.evaluate w' = a.evaluate w) : c.evaluate w' = c.evaluate w :=
  runOn_congr h []

/-! ## Tests and runs of text -/

/-- Reading a condition is scanning it, reading its tests, and bringing them into order. -/
theorem parse_eq_ok_iff {source : String} {c : Condition} :
    parse source = .ok c ↔ ∃ tokens parts program, scan source = .ok tokens ∧
      tokens.mapM infixOf = .ok parts ∧ toPostfix Logic.table parts = .ok program ∧
      isWellFormed Logic.table program = true ∧ c = ⟨source, program⟩ := by
  constructor
  · intro h
    obtain ⟨tokens, hscan, h⟩ := Except.bind_eq_ok h
    split at h
    · cases h
    obtain ⟨parts, hparts, h⟩ := Except.bind_eq_ok h
    obtain ⟨program, hreordered, h⟩ := Except.bind_eq_ok h
    cases hprogram : toPostfix Logic.table parts with
    | error e =>
      rw [hprogram] at hreordered
      cases hreordered
    | ok program' =>
      rw [hprogram] at hreordered
      cases hreordered
      split at h <;> cases h
      exact ⟨tokens, parts, program, hscan, hparts, hprogram, ‹_›, rfl⟩
  · rintro ⟨tokens, parts, program, hscan, hparts, hprogram, hformed, rfl⟩
    cases tokens with
    | nil =>
      -- without tokens there is a program, but it leaves no value
      cases hparts
      cases hprogram
      cases hformed
    | cons t tokens =>
      simp only [parse, hscan, bind, Except.bind, List.isEmpty_cons, Bool.false_eq_true, if_false,
        hparts, hprogram, Except.mapError, hformed, if_true]

theorem token_of_infixOf_operand {t : Spanned Token} {a : Atom} (h : infixOf t = .ok (.operand a)) :
    ∃ text, t.token = .atom text ∧ Atom.parse text t.span = .ok a := by
  unfold infixOf at h
  split at h
  case h_6 text htoken =>
    obtain ⟨b, hparse, hb⟩ := Except.map_eq_ok h
    cases hb
    exact ⟨text, htoken, hparse⟩
  all_goals cases h

/-- Every test of a condition was read from a run of text. -/
theorem exists_token_of_mem_atoms {source : String} {c : Condition} (h : parse source = .ok c)
    {a : Atom} (ha : a ∈ c.atoms) :
    ∃ tokens, scan source = .ok tokens ∧
      ∃ t ∈ tokens, ∃ text, t.token = .atom text ∧ Atom.parse text t.span = .ok a := by
  obtain ⟨tokens, parts, program, hscan, hparts, hprogram, -, rfl⟩ := parse_eq_ok_iff.mp h
  rw [atoms, operands_of_convert hprogram] at ha
  obtain ⟨part, hpart, hoperand⟩ := List.mem_filterMap.mp ha
  obtain ⟨t, ht, hinfix⟩ := Except.exists_argument_of_mapM hparts hpart
  cases part <;> cases hoperand
  exact ⟨tokens, hscan, t, ht, token_of_infixOf_operand hinfix⟩

/-! ## Runs of text and the source -/

theorem textRun_isPrefix (quote : Option Char) (cs : List Char) : textRun quote cs <+: cs := by
  induction cs generalizing quote with
  | nil => cases quote <;> exact List.prefix_rfl
  | cons c cs ih =>
    cases quote with
    | some q => exact List.cons_prefix_cons.mpr ⟨rfl, ih _⟩
    | none =>
      rw [textRun]
      split
      · exact List.nil_prefix
      split
      · split
        · exact List.cons_prefix_cons.mpr ⟨rfl, ih _⟩
        · exact List.cons_prefix_cons.mpr ⟨rfl, List.takeWhile_prefix _⟩
      · exact List.cons_prefix_cons.mpr ⟨rfl, ih _⟩

/-- A run of text ends where a delimiter stands, or with its source. -/
theorem isDelimiter_of_textRun {quote : Option Char} {cs rest : List Char} {d : Char}
    (h : textRun quote cs ++ d :: rest = cs) : isDelimiter d = true := by
  induction cs generalizing quote with
  | nil => cases quote <;> cases h
  | cons c cs ih =>
    cases quote with
    | some q => exact ih (List.cons.inj h).2
    | none =>
      rw [textRun] at h
      split at h
      · rename_i hdelimiter
        rwa [(List.cons.inj h).1]
      split at h
      · split at h
        · exact ih (List.cons.inj h).2
        · -- behind a quote without a partner, the run ends at the first delimiter
          have hrest := (List.cons.inj h).2
          have hdrop : cs.dropWhile (!isDelimiter ·) = d :: rest :=
            List.append_cancel_left ((List.takeWhile_append_dropWhile).trans hrest.symm)
          have hd := List.head?_dropWhile_not (!isDelimiter ·) cs
          rw [hdrop] at hd
          simpa using hd
      · exact ih (List.cons.inj h).2

theorem logic?_eq_some {start : Nat} {c : Char} {cs rest : List Char} {token : Token}
    (h : logic? start (c :: cs) = .ok (some (token, rest))) :
    rest.Sublist cs ∧ ∀ text, token ≠ .atom text := by
  unfold logic? at h
  split at h <;> cases h
  all_goals
    rename_i heq
    cases heq
    exact ⟨by simp, nofun⟩

/-- Where a delimiter stands, no run of text starts. -/
theorem logic?_ne_none {start : Nat} {c : Char} (h : isDelimiter c = true) (cs : List Char) :
    logic? start (c :: cs) ≠ .ok none := by
  intro hnone
  simp only [isDelimiter, Bool.or_eq_true, beq_iff_eq] at h
  unfold logic? at hnone
  split at hnone
  case h_7 heq =>
    cases heq
    simp at h
  case h_9 opening closing _ _ loneAnd loneOr _ _ =>
    obtain ((rfl | rfl) | rfl) | rfl := h
    · exact opening cs rfl
    · exact closing cs rfl
    · exact loneAnd cs rfl
    · exact loneOr cs rfl
  all_goals cases hnone

/-- Every run of text among the tokens is a part of the source. -/
theorem sublist_of_scanFrom {fuel start : Nat} {cs : List Char} {tokens : List (Spanned Token)}
    (h : scanFrom fuel start cs = .ok tokens) {t : Spanned Token} (ht : t ∈ tokens) {text : String}
    (htoken : t.token = .atom text) : text.toList.Sublist cs := by
  induction fuel generalizing start cs tokens with
  | zero =>
    cases cs <;> cases h <;> cases ht
  | succ fuel ih =>
    cases cs with
    | nil => cases h; cases ht
    | cons c cs =>
      rw [scanFrom] at h
      split at h
      · exact (ih h ht).cons c
      split at h
      · cases h
      · rename_i token rest hlogic
        obtain ⟨hrest, hatom⟩ := logic?_eq_some hlogic
        obtain ⟨tokens', hscan, rfl⟩ := Except.map_eq_ok h
        obtain rfl | ht := List.mem_cons.mp ht
        · exact absurd htoken (hatom text)
        · exact ((ih hscan ht).trans hrest).cons c
      · obtain ⟨tokens', hscan, rfl⟩ := Except.map_eq_ok h
        obtain rfl | ht := List.mem_cons.mp ht
        · cases htoken
          rw [String.toList_ofList]
          exact (Text.trimEnd_sublist _).trans (textRun_isPrefix none _).sublist
        · exact (ih hscan ht).trans (List.drop_sublist _ _)

/-- Where a delimiter comes first, no run of text has a part in it. -/
theorem sublist_of_scanFrom_delimiter {fuel start : Nat} {d : Char} (hd : isDelimiter d = true)
    {cs : List Char} {tokens : List (Spanned Token)}
    (h : scanFrom fuel start (d :: cs) = .ok tokens) {t : Spanned Token} (ht : t ∈ tokens)
    {text : String} (htoken : t.token = .atom text) : text.toList.Sublist cs := by
  cases fuel with
  | zero =>
    cases h
    cases ht
  | succ fuel =>
    rw [scanFrom] at h
    split at h
    · exact sublist_of_scanFrom h ht htoken
    split at h
    · cases h
    · rename_i token rest hlogic
      obtain ⟨hrest, hatom⟩ := logic?_eq_some hlogic
      obtain ⟨tokens', hscan, rfl⟩ := Except.map_eq_ok h
      obtain rfl | ht := List.mem_cons.mp ht
      · exact absurd htoken (hatom text)
      · exact (sublist_of_scanFrom hscan ht htoken).trans hrest
    · rename_i hlogic
      exact absurd hlogic (logic?_ne_none hd cs)

end Condition

/-! ## Literals of tests -/

namespace Atom

theorem operator?_sublist {cs right : List Char} {op : Comparison}
    (h : operator? cs = some (op, right)) : right.Sublist cs := by
  unfold operator? at h
  split at h <;> cases h <;> simp

theorem divide?_sublist {cs left right : List Char} {op : Comparison}
    (h : divide? cs = some (left, op, right)) : right.Sublist cs := by
  induction cs generalizing left with
  | nil => cases h
  | cons c cs ih =>
    rw [divide?] at h
    split at h
    · rename_i hoperator
      cases h
      exact operator?_sublist hoperator
    · obtain ⟨⟨left', op', right'⟩, hdivide, hpair⟩ := Option.map_eq_some_iff.mp h
      cases hpair
      exact (ih hdivide).cons c

theorem toList_of_literal {cs : List Char} {text : String} (h : literal cs = .text text) :
    text.toList.Sublist cs := by
  unfold literal at h
  split at h
  · cases h
    rw [String.toList_ofList]
    exact (List.dropLast_sublist _).trans (List.tail_sublist _)
  · unfold Value.literal at h
    split at h
    · cases h
    split at h
    · cases h
    split at h <;> cases h
    rw [String.toList_ofList]

/-- The text that a test compares with is a part of its own text. -/
theorem literal_sublist {source text : String} {span : Span} {a : Atom} {op : Comparison}
    (h : parse source span = .ok a) (ha : a.comparison = some (op, .text text)) :
    text.toList.Sublist source.toList := by
  unfold parse at h
  split at h
  · obtain ⟨_, -, h⟩ := Except.bind_eq_ok h
    cases h
    cases ha
  · rename_i left op' right hdivide
    dsimp only at h
    split at h
    · cases h
    split at h
    · cases h
    obtain ⟨_, -, h⟩ := Except.bind_eq_ok h
    cases h
    obtain ⟨rfl, hliteral⟩ := Prod.mk.inj (Option.some.inj ha)
    exact (toList_of_literal hliteral).trans
      ((Text.trim_sublist right).trans (divide?_sublist hdivide))

end Atom

/-! ## The value of a variable -/

section

variable {w : World} {id : String} {x : Variable}

/-- What is read of a variable is its value, or the value has no part in it. -/
theorem readBelow_revalue (x : Variable) (source key : String) (rest : List String) :
    (∀ v, World.readBelow (.variable { x with value := v }) source key rest = .ok v) ∨
      ∃ result, ∀ v, World.readBelow (.variable { x with value := v }) source key rest = result := by
  by_cases hkey : key = "value"
  · subst hkey
    cases rest with
    | nil => exact .inl fun v => rfl
    | cons next rest => exact .inr ⟨.error (.notContainer source), fun v => rfl⟩
  · refine .inr ⟨World.readBelow (.variable x) source key rest, fun v => World.readBelow_congr ?_ rfl⟩
    simp [Entity.field?, Entity.fields, List.lookup_cons, beq_false_of_ne hkey]

/-- What is read at a path is the value of a variable, or the value has no part in it. -/
theorem lookup_revalue (found : w.find? id = some (.variable x)) (source : String) :
    (∀ v, (w.replace (.variable { x with value := v })).lookup source = .ok v) ∨
      ∃ result, ∀ v, (w.replace (.variable { x with value := v })).lookup source = result := by
  cases hp : Path.ofText? source with
  | none => exact .inr ⟨w.lookup source, fun v => World.lookup_of_invalid hp⟩
  | some p =>
    by_cases hroot : p.root = id
    · have hfind (v : Value) : (w.replace (.variable { x with value := v })).find? p.root =
          some (.variable { x with value := v }) :=
        hroot ▸ World.find?_replace_self found rfl rfl
      cases hkeys : p.keys with
      | nil => exact .inl fun v => World.lookup_bare hp hkeys (World.variableNamed?_of_find? (hfind v))
      | cons key rest =>
        obtain hvalue | ⟨result, hresult⟩ := readBelow_revalue x source key rest
        · exact .inl fun v => (World.lookup_below hp hkeys (hfind v)).trans (hvalue v)
        · exact .inr ⟨result, fun v => (World.lookup_below hp hkeys (hfind v)).trans (hresult v)⟩
    · have hne : p.root ≠ x.id := by rwa [← show x.id = id from World.id_of_find? found] at hroot
      exact .inr ⟨w.lookup source, fun v => World.lookup_congr hp
        (World.find?_replace_of_ne hne) (World.variableNamed?_replace_of_ne hne)⟩

/-- A test comes to the same for two values of a variable that it compares in the same way. -/
theorem Atom.evaluate_revalue (found : w.find? id = some (.variable x)) {v v' : Value} {a : Atom}
    (htruthy : v'.isTruthy = v.isTruthy)
    (hholds : ∀ op rhs, a.comparison = some (op, rhs) → op.holds v' rhs = op.holds v rhs) :
    a.evaluate (w.replace (.variable { x with value := v' })) =
      a.evaluate (w.replace (.variable { x with value := v })) := by
  obtain hvalue | ⟨result, hresult⟩ := lookup_revalue found a.path
  · rw [Atom.evaluate, Atom.evaluate, hvalue, hvalue]
    cases hcomparison : a.comparison with
    | none => exact congrArg Except.ok htruthy
    | some test => exact congrArg Except.ok (hholds test.1 test.2 hcomparison)
  · rw [Atom.evaluate, Atom.evaluate, hresult, hresult]

end

/-! ## Two texts that no test tells apart -/

/-- Between a text and the one that is longer by the least character, there is no other. -/
theorem concat_lt_iff {cs ds : List Char} (hself : ds ≠ cs) (hnext : ds ≠ cs ++ ['\x00']) :
    cs ++ ['\x00'] < ds ↔ cs < ds := by
  induction cs generalizing ds with
  | nil =>
    cases ds with
    | nil => exact absurd rfl hself
    | cons d ds =>
      refine iff_of_true (List.cons_lt_cons_iff.mpr ?_) (List.nil_lt_cons d ds)
      by_cases hd : d = '\x00'
      · subst hd
        cases ds with
        | nil => exact absurd rfl hnext
        | cons e ds => exact .inr ⟨rfl, List.nil_lt_cons e ds⟩
      · refine .inl (Char.lt_def.mpr (UInt32.lt_iff_toNat_lt.mpr (Nat.pos_of_ne_zero fun hzero => ?_)))
        exact hd (Char.ext (UInt32.toNat_inj.mp hzero))
  | cons c cs ih =>
    cases ds with
    | nil => simp
    | cons d ds =>
      rw [List.cons_append, List.cons_lt_cons_iff, List.cons_lt_cons_iff]
      refine or_congr_right (and_congr_right fun hcd => ih ?_ ?_)
      · rintro rfl
        exact hself (by rw [hcd])
      · rintro rfl
        exact hnext (by rw [hcd]; rfl)

theorem compare_push {s l : String} (hself : l ≠ s) (hnext : l ≠ s.push '\x00') :
    compare (s.push '\x00') l = compare s l := by
  have hlt : s.push '\x00' < l ↔ s < l := by
    rw [String.lt_iff, String.lt_iff, String.toList_push]
    refine concat_lt_iff (fun h => hself (String.toList_inj.mp h)) fun h => hnext ?_
    rw [← String.toList_inj, h, String.toList_push]
  change compareOfLessAndEq _ _ = compareOfLessAndEq _ _
  simp only [compareOfLessAndEq, hlt, if_neg (Ne.symm hself), if_neg (Ne.symm hnext)]

/-- A text with a delimiter in it writes no number. -/
theorem toNumber?_of_isDelimiter {s : String} {d : Char} (hd : Condition.isDelimiter d = true)
    (h : d ∈ s.toList) : (Value.text s).toNumber? = none := by
  obtain ⟨hblank, hnumeric⟩ : Text.isBlank d = false ∧ Value.isNumericChar d = false := by
    simp only [Condition.isDelimiter, Bool.or_eq_true, beq_iff_eq] at hd
    obtain ((rfl | rfl) | rfl) | rfl := hd <;> decide
  have hall : Text.isBlankText s = false := by
    rw [Text.isBlankText, List.all_eq_false]
    exact ⟨d, h, by simp [hblank]⟩
  have hchars : (Text.trim s.toList).all Value.isNumericChar = false := by
    rw [List.all_eq_false]
    exact ⟨d, Text.mem_trim_of_not_isBlank hblank h, by simp [hnumeric]⟩
  simp [Value.toNumber?, hall, Value.numberOf?, hchars]

/-- A test compares two texts in the same way if neither writes a number and its literal is in the
same order to both. -/
theorem Comparison.holds_congr {op : Comparison} {s s' : String} {rhs : Value}
    (hs : (Value.text s).toNumber? = none) (hs' : (Value.text s').toNumber? = none)
    (hrhs : ∀ l, rhs = .text l → (s' == l) = (s == l) ∧ compare s' l = compare s l) :
    op.holds (.text s') rhs = op.holds (.text s) rhs := by
  have hsame : (Value.text s').looseEq rhs = (Value.text s).looseEq rhs ∧
      (Value.text s').looseOrder? rhs = (Value.text s).looseOrder? rhs := by
    cases rhs with
    | text l =>
      obtain ⟨heq, hcompare⟩ := hrhs l rfl
      exact ⟨heq, congrArg some hcompare⟩
    | bool | number => simp [Value.looseEq, Value.looseOrder?, hs, hs']
  cases op <;> simp only [Comparison.holds, hsame]

end Storyworld.Script
