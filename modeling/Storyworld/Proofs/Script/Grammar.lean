import Storyworld.Proofs.Script.Acceptance
import Storyworld.Proofs.Text.Blank

/-! # Which texts the parsers accept

`Derives` is the grammar of both languages, over the tokens of a text: sums of products of factors,
where a language says which of its tokens can play which part. What derives is what the parser
accepts, except that the parser also accepts token lists whose operands and operators are not where
they should be.
-/

namespace Storyworld.Script

/-- The parts that tokens play in a grammar of operators. -/
inductive Role where
  | operand
  | opening
  | closing
  | negation
  | tight
  | loose
  deriving DecidableEq

/-- Whether the part is played where an operand has just ended. -/
def Role.afterOperand : Role → Bool
  | operand | opening | negation => false
  | closing | tight | loose => true

/-- What lists of tokens are derived from. -/
inductive Symbol where
  | sum
  | product
  | factor

/-- The grammar of operators, for the parts that each token can play:
`sum := product (loose product)*`, `product := factor (tight factor)*` and
`factor := negation factor | operand | opening sum closing`. -/
inductive Derives {τ : Type} (roles : τ → List Role) : Symbol → List τ → Prop
  | product {ts : List τ} (h : Derives roles .product ts) : Derives roles .sum ts
  | loose {op : τ} {ls rs : List τ} (hl : Derives roles .sum ls) (hop : .loose ∈ roles op)
      (hr : Derives roles .product rs) : Derives roles .sum (ls ++ op :: rs)
  | factor {ts : List τ} (h : Derives roles .factor ts) : Derives roles .product ts
  | tight {op : τ} {ls rs : List τ} (hl : Derives roles .product ls) (hop : .tight ∈ roles op)
      (hr : Derives roles .factor rs) : Derives roles .product (ls ++ op :: rs)
  | negation {op : τ} {ts : List τ} (hop : .negation ∈ roles op) (h : Derives roles .factor ts) :
      Derives roles .factor (op :: ts)
  | operand {a : τ} (ha : .operand ∈ roles a) : Derives roles .factor [a]
  | group {opened closed : τ} {ts : List τ} (hopened : .opening ∈ roles opened)
      (h : Derives roles .sum ts) (hclosed : .closing ∈ roles closed) :
      Derives roles .factor (opened :: ts ++ [closed])

/-- The parts in a condition: `or` joins loosely, `and` tightly. -/
def Condition.roles : Condition.Token → List Role
  | .opening => [.opening]
  | .closing => [.closing]
  | .and => [.tight]
  | .or => [.loose]
  | .not => [.negation]
  | .atom _ => [.operand]

/-- The parts in an expression. A minus can negate or join. -/
def Expression.roles : Expression.Token → List Role
  | .number _ | .text _ | .bool _ | .name _ => [.operand]
  | .plus => [.loose]
  | .minus => [.negation, .loose]
  | .times | .divide | .percent => [.tight]
  | .opening => [.opening]
  | .closing => [.closing]

/-! ## The grammar and the precedence grammar -/

/-- A language with two strengths of binary operators, which associate to the left. -/
structure OperatorTable.TwoStrengths {ο : Type} (T : OperatorTable ο) : Prop where
  left : ∀ o, T.arity o = 2 → T.rightAssociative o = false
  negation : ∀ o, T.arity o = 1 → T.precedence o = 3

theorem Logic.table_twoStrengths : Logic.table.TwoStrengths where
  left o := by cases o <;> decide
  negation o := by cases o <;> decide

theorem Arithmetic.table_twoStrengths : Arithmetic.table.TwoStrengths where
  left o := by cases o <;> decide
  negation o := by cases o <;> decide

section

variable {α ο τ : Type} {T : OperatorTable ο} {roles : τ → List Role}

/-- The part that a token was taken to play. -/
inductive Infix.Plays (T : OperatorTable ο) : Infix α ο → Role → Prop
  | operand (a : α) : Plays T (.operand a) .operand
  | opening (span : Span) : Plays T (.opening span) .opening
  | closing (span : Span) : Plays T (.closing span) .closing
  | negation {o : ο} (arity : T.arity o = 1) : Plays T (.operator o) .negation
  | tight {o : ο} (arity : T.arity o = 2) (precedence : T.precedence o = 2) :
      Plays T (.operator o) .tight
  | loose {o : ο} (arity : T.arity o = 2) (precedence : T.precedence o = 1) :
      Plays T (.operator o) .loose

/-- Each token was taken to play a part that it can play, and the only such where it stands. -/
inductive Reading (T : OperatorTable ο) (roles : τ → List Role) :
    Bool → List τ → List (Infix α ο) → Prop
  | nil {afterOperand : Bool} : Reading T roles afterOperand [] []
  | cons {afterOperand : Bool} {t : τ} {ts : List τ} {part : Infix α ο} {parts : List (Infix α ο)}
      {r : Role} (plays : part.Plays T r) (can : r ∈ roles t)
      (only : ∀ r' ∈ roles t, r'.afterOperand = afterOperand → r' = r)
      (rest : Reading T roles part.endsOperand ts parts) :
      Reading T roles afterOperand (t :: ts) (part :: parts)

theorem endsOperand_append {first second : List (Infix α ο)} (afterOperand : Bool) :
    endsOperand afterOperand (first ++ second) =
      endsOperand (endsOperand afterOperand first) second := by
  induction first generalizing afterOperand with
  | nil => rfl
  | cons token first ih => exact ih token.endsOperand

theorem Renders.endsOperand {level : Nat} {t : Tree α ο} {ts : List (Infix α ο)}
    (h : Renders T level t ts) (afterOperand : Bool) :
    Script.endsOperand afterOperand ts = true := by
  induction h generalizing afterOperand with
  | operand a => rfl
  | parens opened closed inner ih => rw [endsOperand_append]; rfl
  | unary arity binds inner ih => exact ih _
  | left arity binds associates hl hr ihl ihr => rw [endsOperand_append]; exact ihr _
  | right arity binds associates hl hr ihl ihr => rw [endsOperand_append]; exact ihr _

theorem Renders.join (hT : T.TwoStrengths) {level : Nat} {o : ο} {l r : Tree α ο}
    {ls rs : List (Infix α ο)} (hl : Renders T level l ls) (arity : T.arity o = 2)
    (precedence : T.precedence o = level) (hr : Renders T (level + 1) r rs) :
    Renders T level (.binary o l r) (ls ++ .operator o :: rs) := by
  subst precedence
  exact .left arity (Nat.le_refl _) (hT.left o arity) hl hr

namespace Reading

variable {afterOperand : Bool}

theorem append_left {us vs : List τ} {parts : List (Infix α ο)}
    (h : Reading T roles afterOperand (us ++ vs) parts) :
    ∃ js ks, parts = js ++ ks ∧ Reading T roles afterOperand us js ∧
      Reading T roles (endsOperand afterOperand js) vs ks := by
  induction us generalizing afterOperand parts with
  | nil => exact ⟨[], parts, rfl, .nil, h⟩
  | cons u us ih =>
    cases h with
    | cons plays can only rest =>
      obtain ⟨js, ks, rfl, hus, hvs⟩ := ih rest
      exact ⟨_ :: js, ks, rfl, .cons plays can only hus, hvs⟩

theorem append_right {ts : List τ} {js ks : List (Infix α ο)}
    (h : Reading T roles afterOperand ts (js ++ ks)) :
    ∃ us vs, ts = us ++ vs ∧ Reading T roles afterOperand us js ∧
      Reading T roles (endsOperand afterOperand js) vs ks := by
  induction js generalizing afterOperand ts with
  | nil => exact ⟨[], ts, rfl, .nil, h⟩
  | cons j js ih =>
    cases h with
    | cons plays can only rest =>
      obtain ⟨us, vs, rfl, hjs, hks⟩ := ih rest
      exact ⟨_ :: us, vs, rfl, .cons plays can only hjs, hks⟩

/-- A token plays the part that it can play where it stands. -/
theorem uncons {t : τ} {ts : List τ} {parts : List (Infix α ο)} {r : Role}
    (h : Reading T roles afterOperand (t :: ts) parts) (hr : r ∈ roles t)
    (hafter : r.afterOperand = afterOperand) :
    ∃ part rest, parts = part :: rest ∧ part.Plays T r ∧
      Reading T roles part.endsOperand ts rest := by
  cases h with
  | cons plays can only rest =>
    rw [← only r hr hafter] at plays
    exact ⟨_, _, rfl, plays, rest⟩

/-- Behind what is taken to write a tree, a token plays a part that follows an operand. -/
theorem behind {level : Nat} {op : τ} {ls rs : List τ} {parts : List (Infix α ο)} {r : Role}
    (h : Reading T roles false (ls ++ op :: rs) parts)
    (hls : ∀ {js : List (Infix α ο)}, Reading T roles false ls js → ∃ t, Renders T level t js)
    (hr : r ∈ roles op) (hafter : r.afterOperand = true) :
    ∃ js part rest, parts = js ++ part :: rest ∧ (∃ t, Renders T level t js) ∧ part.Plays T r ∧
      Reading T roles part.endsOperand rs rest := by
  obtain ⟨js, ks, rfl, hjs, hks⟩ := h.append_left
  obtain ⟨t, ht⟩ := hls hjs
  rw [ht.endsOperand] at hks
  obtain ⟨part, rest, rfl, hplays, hrest⟩ := hks.uncons hr hafter
  exact ⟨js, part, rest, rfl, ⟨t, ht⟩, hplays, hrest⟩

end Reading

/-- The level at which a precedence grammar writes what derives from a symbol. -/
def Symbol.level : Symbol → Nat
  | sum => 1
  | product => 2
  | factor => 3

/-- The symbol from which derives what a precedence grammar writes at a level. -/
def Symbol.ofLevel : Nat → Symbol
  | 0 | 1 => sum
  | 2 => product
  | _ => factor

namespace Derives

theorem of_product {ts : List τ} (h : Derives roles .product ts) {level : Nat}
    (hlevel : level ≤ 2) : Derives roles (.ofLevel level) ts := by
  match level, hlevel with
  | 0, _ | 1, _ => exact .product h
  | 2, _ => exact h

theorem of_sum {ts : List τ} (h : Derives roles .sum ts) {level : Nat} (hlevel : level ≤ 1) :
    Derives roles (.ofLevel level) ts := by
  match level, hlevel with
  | 0, _ | 1, _ => exact h

theorem of_factor {ts : List τ} (h : Derives roles .factor ts) (s : Symbol) :
    Derives roles s ts := by
  cases s with
  | sum => exact .product (.factor h)
  | product => exact .factor h
  | factor => exact h

/-- What derives is a rendering, when its tokens have been taken to play their parts. -/
theorem exists_renders (hT : T.TwoStrengths) {s : Symbol} {ts : List τ}
    (h : Derives roles s ts) {parts : List (Infix α ο)} (hparts : Reading T roles false ts parts) :
    ∃ t, Renders T s.level t parts := by
  induction h generalizing parts with
  | product _ ih | factor _ ih =>
    obtain ⟨t, ht⟩ := ih hparts
    exact ⟨t, ht.mono (by decide)⟩
  | loose _ hop _ ihl ihr =>
    obtain ⟨js, part, rest, rfl, hjs, hplays, hrest⟩ := hparts.behind ihl hop rfl
    cases hplays with
    | loose arity precedence =>
      obtain ⟨l, hl⟩ := hjs
      obtain ⟨r, hr⟩ := ihr hrest
      exact ⟨_, hl.join hT arity precedence hr⟩
  | tight _ hop _ ihl ihr =>
    obtain ⟨js, part, rest, rfl, hjs, hplays, hrest⟩ := hparts.behind ihl hop rfl
    cases hplays with
    | tight arity precedence =>
      obtain ⟨l, hl⟩ := hjs
      obtain ⟨r, hr⟩ := ihr hrest
      exact ⟨_, hl.join hT arity precedence hr⟩
  | negation hop _ ih =>
    obtain ⟨part, rest, rfl, hplays, hrest⟩ := hparts.uncons hop rfl
    cases hplays with
    | negation arity =>
      obtain ⟨t, ht⟩ := ih hrest
      have hlevel := hT.negation _ arity
      exact ⟨_, .unary arity (Nat.le_of_eq hlevel.symm) (by rw [hlevel]; exact ht)⟩
  | operand ha =>
    obtain ⟨part, rest, rfl, hplays, hrest⟩ := hparts.uncons ha rfl
    cases hplays
    cases hrest
    exact ⟨_, .operand _⟩
  | group hopened _ hclosed ih =>
    obtain ⟨part, rest, rfl, hplays, hrest⟩ := hparts.uncons hopened rfl
    cases hplays
    obtain ⟨js, part, rest, rfl, ⟨t, ht⟩, hplays, hrest⟩ := hrest.behind ih hclosed rfl
    cases hplays
    cases hrest
    exact ⟨t, .parens _ _ (ht.mono (Nat.zero_le _))⟩

/-- What a precedence grammar writes derives, when it is read off tokens that can play the parts. -/
theorem of_renders (hT : T.TwoStrengths) {level : Nat} {t : Tree α ο} {parts : List (Infix α ο)}
    (h : Renders T level t parts) {ts : List τ} (hparts : Reading T roles false ts parts) :
    Derives roles (.ofLevel level) ts := by
  induction h generalizing ts with
  | operand a =>
    cases hparts with
    | cons plays can only rest =>
      cases plays
      cases rest
      exact of_factor (.operand can) _
  | parens opened closed inner ih =>
    cases hparts with
    | cons plays hopened only rest =>
      cases plays
      obtain ⟨us, vs, rfl, hus, hvs⟩ := rest.append_right
      cases hvs with
      | cons plays hclosed only rest =>
        cases plays
        cases rest
        exact of_factor (.group hopened (ih hus) hclosed) _
  | @unary level o t parts arity binds inner ih =>
    cases hparts with
    | cons plays can only rest =>
      cases plays with
      | negation =>
        have hinner := ih rest
        rw [hT.negation o arity] at hinner
        exact of_factor (.negation can hinner) _
      | tight htwo | loose htwo => rw [arity] at htwo; cases htwo
  | @left level o l r ls rs arity binds associates hl hr ihl ihr =>
    obtain ⟨us, vs, rfl, hus, hvs⟩ := hparts.append_right
    cases hvs with
    | cons plays can only rest =>
      have hleft := ihl hus
      have hright := ihr rest
      cases plays with
      | negation hone => rw [arity] at hone; cases hone
      | loose _ precedence =>
        rw [precedence] at hleft hright binds
        exact of_sum (.loose hleft can hright) binds
      | tight _ precedence =>
        rw [precedence] at hleft hright binds
        exact of_product (.tight hleft can hright) binds
  | right arity binds associates =>
    rw [hT.left _ arity] at associates
    cases associates

/-- What derives is what has a program and leaves one value, if every token stands where it may. -/
theorem iff_of_reading (hG : T.Graded) (hT : T.TwoStrengths) {ts : List τ}
    {parts : List (Infix α ο)} (hparts : Reading T roles false ts parts) :
    Derives roles .sum ts ↔
      (∃ program, toPostfix T parts = .ok program ∧ isWellFormed T program = true) ∧
        placed T false parts = true := by
  rw [← exists_renders_iff hG]
  constructor
  · intro h
    obtain ⟨t, ht⟩ := h.exists_renders hT hparts
    exact ⟨t, ht.mono (Nat.zero_le _)⟩
  · rintro ⟨t, ht⟩
    exact of_renders hT ht hparts

end Derives

/-- What the check at the end of both parsers lets through. -/
theorem exists_checked_iff {β ε : Type} {parts : List (Infix α ο)} (unbalanced : Unbalanced → ε)
    (accept : List (Postfix α ο) → β) (refuse : ε) :
    (∃ b, ((toPostfix T parts).mapError unbalanced >>= fun program =>
        if isWellFormed T program then .ok (accept program) else .error refuse) = .ok b) ↔
      ∃ program, toPostfix T parts = .ok program ∧ isWellFormed T program = true := by
  cases hprogram : toPostfix T parts with
  | error e =>
    change (∃ b, Except.error (unbalanced e) = Except.ok b) ↔ _
    simp
  | ok program =>
    change (∃ b, (if isWellFormed T program then .ok (accept program) else .error refuse)
      = Except.ok b) ↔ _
    cases hformed : isWellFormed T program <;> simp [hformed]

end

/-! ## Conditions -/

namespace Condition

theorem infixOf_plays {t : Spanned Token} {part : Infix Atom Logic} (h : infixOf t = .ok part) :
    ∃ r, part.Plays Logic.table r ∧ roles t.token = [r] := by
  unfold infixOf at h
  split at h
  case h_6 text htoken =>
    obtain ⟨a, -, rfl⟩ := Except.map_eq_ok h
    exact ⟨_, .operand a, by rw [htoken]; rfl⟩
  all_goals
    rename_i htoken
    cases h
    rw [htoken]
  · exact ⟨_, .opening _, rfl⟩
  · exact ⟨_, .closing _, rfl⟩
  · exact ⟨_, .tight rfl rfl, rfl⟩
  · exact ⟨_, .loose rfl rfl, rfl⟩
  · exact ⟨_, .negation rfl, rfl⟩

theorem reading_of_mapM {tokens : List (Spanned Token)} {parts : List (Infix Atom Logic)}
    (h : tokens.mapM infixOf = .ok parts) (afterOperand : Bool) :
    Reading Logic.table roles afterOperand (tokens.map (·.token)) parts := by
  induction tokens generalizing parts afterOperand with
  | nil => cases h; exact .nil
  | cons t tokens ih =>
    rw [List.mapM_cons] at h
    cases hpart : infixOf t with
    | error e => rw [hpart] at h; cases h
    | ok part =>
      cases hrest : tokens.mapM infixOf with
      | error e => rw [hpart, hrest] at h; cases h
      | ok rest =>
        rw [hpart, hrest] at h
        cases h
        obtain ⟨r, hplays, hroles⟩ := infixOf_plays hpart
        refine .cons hplays (by simp [hroles]) ?_ (ih hrest _)
        intro r' hr' _
        rw [hroles] at hr'
        exact List.mem_singleton.mp hr'

theorem parse_isOk_iff {source : String} {tokens : List (Spanned Token)}
    {parts : List (Infix Atom Logic)} (hscan : scan source = .ok tokens)
    (hparts : tokens.mapM infixOf = .ok parts) :
    (∃ c, parse source = .ok c) ↔
      ∃ program, toPostfix Logic.table parts = .ok program ∧
        isWellFormed Logic.table program = true := by
  cases tokens with
  | nil =>
    -- without tokens there is a program, but it leaves no value
    cases hparts
    simp [parse, hscan, bind, Except.bind, toPostfix, convert, Pending.finish, Except.map,
      isWellFormed, depthAfter]
  | cons t tokens =>
    simp only [parse, hscan, hparts, bind, Except.bind, List.isEmpty_cons, Bool.false_eq_true,
      if_false]
    exact exists_checked_iff ..

theorem derives_iff {source : String} {tokens : List (Spanned Token)}
    {parts : List (Infix Atom Logic)} (hscan : scan source = .ok tokens)
    (hparts : tokens.mapM infixOf = .ok parts) :
    Derives roles .sum (tokens.map (·.token)) ↔
      (∃ c, parse source = .ok c) ∧ placed Logic.table false parts = true := by
  rw [parse_isOk_iff hscan hparts]
  exact Derives.iff_of_reading Logic.table_graded Logic.table_twoStrengths
    (reading_of_mapM hparts false)

end Condition

/-! ## Expressions -/

namespace Expression

theorem endsOperand_infixOf (afterOperand : Bool) (t : Spanned Token) :
    (infixOf afterOperand t).endsOperand = t.token.endsOperand := by
  unfold infixOf
  split <;> simp_all [Infix.endsOperand, Token.endsOperand]

theorem infixOf_plays (afterOperand : Bool) (t : Spanned Token) :
    ∃ r, (infixOf afterOperand t).Plays Arithmetic.table r ∧ r ∈ roles t.token ∧
      ∀ r' ∈ roles t.token, r'.afterOperand = afterOperand → r' = r := by
  rcases t with ⟨token, span⟩
  cases token with
  | minus =>
    cases afterOperand with
    | true => exact ⟨_, .loose rfl rfl, by simp [roles], by simp [roles, Role.afterOperand]⟩
    | false => exact ⟨_, .negation rfl, by simp [roles], by simp [roles, Role.afterOperand]⟩
  | plus => exact ⟨_, .loose rfl rfl, by simp [roles], by simp [roles]⟩
  | times | divide | percent => exact ⟨_, .tight rfl rfl, by simp [roles], by simp [roles]⟩
  | opening => exact ⟨_, .opening span, by simp [roles], by simp [roles]⟩
  | closing => exact ⟨_, .closing span, by simp [roles], by simp [roles]⟩
  | number | text | bool | name => exact ⟨_, .operand _, by simp [roles], by simp [roles]⟩

theorem reading_infixes (tokens : List (Spanned Token)) (afterOperand : Bool) :
    Reading Arithmetic.table roles afterOperand (tokens.map (·.token))
      (infixes afterOperand tokens) := by
  induction tokens generalizing afterOperand with
  | nil => exact .nil
  | cons t tokens ih =>
    obtain ⟨r, hplays, hcan, honly⟩ := infixOf_plays afterOperand t
    refine .cons hplays hcan honly ?_
    rw [endsOperand_infixOf]
    exact ih t.token.endsOperand

/-! The names of the booleans are read without their tokens. Blanks around them make no difference
to the tokens either, for no blank belongs to a name. -/

theorem scanFrom_blanks {fuel start : Nat} {cs : List Char} (h : cs.all Text.isBlank = true) :
    scanFrom fuel start cs = .ok [] := by
  induction cs generalizing fuel start with
  | nil => cases fuel <;> rfl
  | cons c cs ih =>
    obtain ⟨hc, hcs⟩ := Bool.and_eq_true_iff.mp h
    cases fuel with
    | zero => rfl
    | succ fuel => rw [scanFrom, if_pos hc, ih hcs]

theorem scanFrom_blanks_append {before : List Char} (h : before.all Text.isBlank = true)
    (fuel start : Nat) (cs : List Char) :
    scanFrom (before.length + fuel) start (before ++ cs) =
      scanFrom fuel (start + byteSize before) cs := by
  induction before generalizing start with
  | nil => simp [byteSize]
  | cons c before ih =>
    obtain ⟨hc, hbefore⟩ := Bool.and_eq_true_iff.mp h
    rw [List.length_cons, Nat.add_right_comm, List.cons_append, scanFrom, if_pos hc, ih hbefore,
      byteSize_cons, Nat.add_assoc]

theorem continuesName_of_isBlank {c : Char} (h : Text.isBlank c = true) (cs : List Char) :
    continuesName (c :: cs) = false := by
  have hne : c ≠ '-' ∧ c ≠ '_' ∧ c ≠ ':' ∧ c ≠ '.' := by
    refine ⟨?_, ?_, ?_, ?_⟩ <;> · rintro rfl; revert h; decide
  obtain ⟨hminus, hunderscore, hcolon, hpoint⟩ := hne
  unfold continuesName
  split
  · rename_i heq; cases heq
  · rename_i heq; cases heq; exact absurd rfl hminus
  · rename_i heq
    cases heq
    simp [Text.isAlphanumeric_of_isBlank h, hunderscore, hcolon, hpoint]

theorem nameRun_blanks {cs : List Char} (h : cs.all Text.isBlank = true) : nameRun cs = [] := by
  cases cs with
  | nil => rfl
  | cons c cs =>
    obtain ⟨hc, -⟩ := Bool.and_eq_true_iff.mp h
    simp [nameRun, continuesName_of_isBlank hc]

theorem token_true {start : Nat} {after : List Char} (h : after.all Text.isBlank = true) :
    token start 't' ('r' :: 'u' :: 'e' :: after) = .ok (.bool true, after) := by
  have hrun : token start 't' ('r' :: 'u' :: 'e' :: after) =
      .ok (nameToken ('t' :: 'r' :: 'u' :: 'e' :: nameRun after),
        after.drop (nameRun after).length) := rfl
  rw [hrun, nameRun_blanks h]
  rfl

theorem token_false {start : Nat} {after : List Char} (h : after.all Text.isBlank = true) :
    token start 'f' ('a' :: 'l' :: 's' :: 'e' :: after) = .ok (.bool false, after) := by
  have hrun : token start 'f' ('a' :: 'l' :: 's' :: 'e' :: after) =
      .ok (nameToken ('f' :: 'a' :: 'l' :: 's' :: 'e' :: nameRun after),
        after.drop (nameRun after).length) := rfl
  rw [hrun, nameRun_blanks h]
  rfl

/-- A text that is one token between blanks. -/
theorem scan_of_token {start : Nat} {before after word : List Char} {c : Char} {t : Token}
    (hbefore : before.all Text.isBlank = true) (hafter : after.all Text.isBlank = true)
    (hc : Text.isBlank c = false) (ht : ∀ start, token start c (word ++ after) = .ok (t, after)) :
    ∃ span, scan start (before ++ (c :: word) ++ after) = .ok [⟨t, span⟩] := by
  have hlength : (before ++ (c :: word) ++ after).length =
      before.length + ((word ++ after).length + 1) := by
    simp only [List.length_append, List.length_cons]
    omega
  rw [scan, hlength, List.append_assoc, scanFrom_blanks_append hbefore, List.cons_append, scanFrom,
    if_neg (by simp [hc]), ht]
  simp only [scanFrom_blanks hafter]
  exact ⟨_, rfl⟩

theorem scan_of_trim {start : Nat} {source : List Char} {b : Bool}
    (h : String.ofList (Text.trim source) = if b then "true" else "false") :
    ∃ span, scan start source = .ok [⟨.bool b, span⟩] := by
  obtain ⟨before, after, hsource, hbefore, hafter⟩ := Text.exists_trim source
  have htrim := congrArg String.toList h
  rw [String.toList_ofList] at htrim
  rw [hsource, htrim]
  cases b with
  | true =>
    have htoken start : token start 't' (['r', 'u', 'e'] ++ after) = .ok (.bool true, after) :=
      token_true hafter
    exact scan_of_token hbefore hafter (by decide) htoken
  | false =>
    have htoken start : token start 'f' (['a', 'l', 's', 'e'] ++ after) =
        .ok (.bool false, after) := token_false hafter
    exact scan_of_token hbefore hafter (by decide) htoken

theorem program_of_trim {start : Nat} {source : List Char} {tokens : List (Spanned Token)}
    {b : Bool} (hscan : scan start source = .ok tokens)
    (h : String.ofList (Text.trim source) = if b then "true" else "false") :
    ∃ program, toPostfix Arithmetic.table (infixes false tokens) = .ok program ∧
      isWellFormed Arithmetic.table program = true := by
  obtain ⟨span, hword⟩ : ∃ span, scan start source = .ok [⟨.bool b, span⟩] := scan_of_trim h
  rw [hword] at hscan
  cases hscan
  exact ⟨[.operand (.literal (.bool b))], rfl, rfl⟩

theorem parse_isOk_iff {start : Nat} {source : List Char} {tokens : List (Spanned Token)}
    (hscan : scan start source = .ok tokens) :
    (∃ e, parse start source = .ok e) ↔
      ∃ program, toPostfix Arithmetic.table (infixes false tokens) = .ok program ∧
        isWellFormed Arithmetic.table program = true := by
  simp only [parse]
  split
  case isTrue htrue =>
    exact iff_of_true ⟨_, rfl⟩ (program_of_trim hscan (b := true) htrue)
  split
  case isTrue hfalse =>
    exact iff_of_true ⟨_, rfl⟩ (program_of_trim hscan (b := false) hfalse)
  cases tokens with
  | nil =>
    simp [hscan, bind, Except.bind, infixes, toPostfix, convert, Pending.finish, Except.map,
      isWellFormed, depthAfter]
  | cons t tokens =>
    rw [hscan]
    exact exists_checked_iff ..

theorem derives_iff {start : Nat} {source : List Char} {tokens : List (Spanned Token)}
    (hscan : scan start source = .ok tokens) :
    Derives roles .sum (tokens.map (·.token)) ↔
      (∃ e, parse start source = .ok e) ∧
        placed Arithmetic.table false (infixes false tokens) = true := by
  rw [parse_isOk_iff hscan]
  exact Derives.iff_of_reading Arithmetic.table_graded Arithmetic.table_twoStrengths
    (reading_infixes tokens false)

end Expression

/-! ## Both languages -/

/-- **A text derives from its grammar exactly if the parser accepts it and every token of it stands
where it may**: operands, negations and opening parentheses where an operand is expected, binary
operators and closing parentheses after one. -/
theorem derives_iff_parse (condition : String) (start : Nat) (expression : List Char) :
    (∀ tokens parts, Condition.scan condition = .ok tokens →
      tokens.mapM Condition.infixOf = .ok parts →
        (Derives Condition.roles .sum (tokens.map (·.token)) ↔
          (∃ c, Condition.parse condition = .ok c) ∧ placed Logic.table false parts = true)) ∧
    ∀ tokens, Expression.scan start expression = .ok tokens →
      (Derives Expression.roles .sum (tokens.map (·.token)) ↔
        (∃ e, Expression.parse start expression = .ok e) ∧
          placed Arithmetic.table false (Expression.infixes false tokens) = true) :=
  ⟨fun _ _ => Condition.derives_iff, fun _ => Expression.derives_iff⟩

/-- `a && b` and `-a * b` derive, and are accepted. -/
theorem derives_iff_parse_binary :
    (∃ tokens, Condition.scan "a && b" = .ok tokens ∧
      Derives Condition.roles .sum (tokens.map (·.token)) ∧
      ∃ c, Condition.parse "a && b" = .ok c) ∧
    ∃ tokens, Expression.scan 0 "-a * b".toList = .ok tokens ∧
      Derives Expression.roles .sum (tokens.map (·.token)) ∧
      ∃ e, Expression.parse 0 "-a * b".toList = .ok e := by
  obtain ⟨hcondition, hexpression⟩ := derives_iff_parse "a && b" 0 "-a * b".toList
  refine ⟨⟨_, rfl, ?_, _, rfl⟩, _, rfl, ?_, _, rfl⟩
  · exact (hcondition _ _ rfl rfl).mpr ⟨⟨_, rfl⟩, rfl⟩
  · exact (hexpression _ rfl).mpr ⟨⟨_, rfl⟩, rfl⟩

/-- The parsers also accept `(a)(b) &&` and `a b +`, of which the operators come too late. -/
theorem parse_late_operator :
    (∃ tokens parts, Condition.scan "(a)(b) &&" = .ok tokens ∧
      tokens.mapM Condition.infixOf = .ok parts ∧
      (∃ c, Condition.parse "(a)(b) &&" = .ok c) ∧
      ¬Derives Condition.roles .sum (tokens.map (·.token))) ∧
    ∃ tokens, Expression.scan 0 "a b +".toList = .ok tokens ∧
      (∃ e, Expression.parse 0 "a b +".toList = .ok e) ∧
      ¬Derives Expression.roles .sum (tokens.map (·.token)) := by
  have hcondition : Condition.scan "(a)(b) &&" = .ok _ := rfl
  have hexpression : Expression.scan 0 "a b +".toList = .ok _ := rfl
  refine ⟨⟨_, _, hcondition, rfl, ⟨_, rfl⟩, fun h => ?_⟩, _, hexpression, ⟨_, rfl⟩, fun h => ?_⟩
  · have hplaced := ((Condition.derives_iff hcondition rfl).mp h).2
    cases hplaced
  · have hplaced := ((Expression.derives_iff hexpression).mp h).2
    cases hplaced

end Storyworld.Script
