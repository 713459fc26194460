import Storyworld.Proofs.Script.Acceptance

/-! # What parentheses keep together

Tokens that have a program put it out in parentheses too, whatever waits outside (`convert_group`),
so two lists of tokens around an operator have the program of both and the operator
(`toPostfix_join`). Well-formed programs are those of trees (`isWellFormed_iff`), also where the
operators of the tokens stand in odd places.
-/

namespace Storyworld.Script

variable {α β γ ο : Type} {T : OperatorTable ο}

/-! ## Other operands, in other places -/

/-- A token with another operand, in another place. -/
def Infix.map (f : α → β) (move : Span → Span) : Infix α ο → Infix β ο
  | operand a => operand (f a)
  | operator o => operator o
  | opening span => opening (move span)
  | closing span => closing (move span)

/-- A step with another operand. -/
def Postfix.map (f : α → β) : Postfix α ο → Postfix β ο
  | operand a => operand (f a)
  | operator o => operator o

/-- What waits, in another place. -/
def Pending.map (move : Span → Span) : Pending ο → Pending ο
  | operator o => operator o
  | opening span => opening (move span)

theorem map_operators (f : α → β) (released : List ο) :
    (released.map Postfix.operator).map (Postfix.map f) = released.map Postfix.operator := by
  rw [List.map_map]
  rfl

/-- The same operators around other operands. -/
def Tree.map (f : α → β) : Tree α ο → Tree β ο
  | operand a => operand (f a)
  | unary o t => unary o (t.map f)
  | binary o l r => binary o (l.map f) (r.map f)

theorem Tree.program_map (f : α → β) (t : Tree α ο) :
    (t.map f).program = t.program.map (Postfix.map f) := by
  induction t with
  | operand a => rfl
  | unary o t ih => simp [map, program, ih, Postfix.map]
  | binary o l r ihl ihr => simp [map, program, ihl, ihr, Postfix.map]

theorem Tree.Fits.map {t : Tree α ο} (h : t.Fits T) (f : α → β) : (t.map f).Fits T := by
  induction t with
  | operand a => trivial
  | unary o t ih => exact ⟨h.1, ih h.2⟩
  | binary o l r ihl ihr => exact ⟨h.1, ihl h.2.1, ihr h.2.2⟩

/-- Where other operands come to the same values, and fail with other errors, so does a tree of
them. -/
theorem Tree.eval_map {ε δ : Type} {value : α → Except ε γ} {value' : β → Except δ γ}
    {apply : ο → List γ → Except ε γ} {apply' : ο → List γ → Except δ γ} {f : α → β} {g : ε → δ}
    (hvalue : ∀ a, value' (f a) = (value a).mapError g)
    (happly : ∀ o vs, vs.length = T.arity o → apply' o vs = (apply o vs).mapError g)
    {t : Tree α ο} (ht : t.Fits T) :
    (t.map f).eval value' apply' = (t.eval value apply).mapError g := by
  induction t with
  | operand a => exact hvalue a
  | unary o t ih =>
    simp only [map, eval, ih ht.2]
    cases t.eval value apply with
    | error e => rfl
    | ok v => exact happly o [v] ht.1.symm
  | binary o l r ihl ihr =>
    simp only [map, eval, ihl ht.2.1, ihr ht.2.2]
    cases l.eval value apply with
    | error e => rfl
    | ok v =>
      cases r.eval value apply with
      | error e => rfl
      | ok w => exact happly o [v, w] ht.1.symm

/-! ## Reading in parentheses -/

namespace Pending

variable {move : Span → Span} {stack outer : List (Pending ο)} {opened : Span}

theorem release_inside (o : ο) (stack outer : List (Pending ο)) (opened : Span) :
    release T o (stack.map (map move) ++ opening opened :: outer) =
      ((release T o stack).1, (release T o stack).2.map (map move) ++ opening opened :: outer) := by
  induction stack with
  | nil => rfl
  | cons top stack ih =>
    cases top with
    | opening span => rfl
    | operator w =>
      simp only [List.map_cons, map, List.cons_append, release, ih]
      split <;> rfl

theorem close_inside {released : List ο} {kept : List (Pending ο)}
    (h : close stack = some (released, kept)) :
    close (stack.map (map move) ++ outer) = some (released, kept.map (map move) ++ outer) := by
  obtain ⟨span, rfl⟩ := close_eq_some h
  have hoperators : (released.map Pending.operator).map (map move) = released.map .operator := by
    rw [List.map_map]
    rfl
  rw [List.map_append, hoperators, List.append_assoc]
  exact close_append released (move span) (kept.map (map move) ++ outer)

/-- What waits at the end is what the closing parenthesis releases. -/
theorem close_finished {released : List ο} (h : finish stack = .ok released) :
    close (stack.map (map move) ++ opening opened :: outer) = some (released, outer) := by
  have hoperators : stack.map (map move) = released.map .operator := by
    rw [finish_eq_ok h, List.map_map]
    rfl
  rw [hoperators, close_append]

end Pending

/-- **In parentheses, tokens put out their program**, whatever waits outside and follows. -/
theorem convert_group {tokens : List (Infix α ο)} {stack : List (Pending ο)}
    {program : List (Postfix α ο)} (h : convert T tokens stack = .ok program) (f : α → β)
    (move : Span → Span) (opened closed : Span) (outer : List (Pending ο))
    (rest : List (Infix β ο)) :
    convert T (tokens.map (Infix.map f move) ++ .closing closed :: rest)
        (stack.map (Pending.map move) ++ .opening opened :: outer) =
      (convert T rest outer).map (program.map (Postfix.map f) ++ ·) := by
  induction tokens generalizing stack program with
  | nil =>
    obtain ⟨released, hfinish, rfl⟩ := Except.map_eq_ok h
    simp only [List.map_nil, List.nil_append, convert, Pending.close_finished hfinish,
      map_operators]
  | cons token tokens ih =>
    cases token with
    | operand a =>
      obtain ⟨program, hrest, rfl⟩ := Except.map_eq_ok h
      simp only [List.map_cons, Infix.map, List.cons_append, convert, ih hrest]
      exact Except.map_map_append _ [Postfix.operand (f a)] _
    | opening span =>
      have hinner : convert T tokens (.opening span :: stack) = .ok program := h
      exact ih hinner
    | operator o =>
      obtain ⟨program, hrest, rfl⟩ := Except.map_eq_ok h
      simp only [List.map_cons, Infix.map, List.cons_append, convert, Pending.release_inside]
      refine (congrArg (Except.map _) (ih hrest)).trans ?_
      rw [Except.map_map_append, List.map_append, map_operators]
    | closing span =>
      simp only [convert] at h
      cases hclose : Pending.close stack with
      | none =>
        rw [hclose] at h
        cases h
      | some closed =>
        rw [hclose] at h
        obtain ⟨program, hrest, rfl⟩ := Except.map_eq_ok h
        simp only [List.map_cons, Infix.map, List.cons_append, convert, Pending.close_inside hclose]
        rw [ih hrest, Except.map_map_append, List.map_append, map_operators]

section

variable {first second : List (Infix α ο)} {p q : List (Postfix α ο)}

/-- **A binary operator between parentheses** comes after the programs of both sides. -/
theorem toPostfix_join (hp : toPostfix T first = .ok p) (hq : toPostfix T second = .ok q) (o : ο)
    (f g : α → β) (move shove : Span → Span) (opened closed opened' closed' : Span) :
    toPostfix T (.opening opened :: (first.map (Infix.map f move) ++
        .closing closed :: .operator o :: .opening opened' :: (second.map (Infix.map g shove) ++
          [.closing closed']))) =
      .ok (p.map (Postfix.map f) ++ q.map (Postfix.map g) ++ [.operator o]) := by
  have hleft := convert_group hp f move opened closed []
    (.operator o :: .opening opened' :: (second.map (Infix.map g shove) ++ [.closing closed']))
  have hright := convert_group hq g shove opened' closed' [.operator o] []
  simp only [List.map_nil, List.nil_append] at hleft hright
  simp only [toPostfix, convert, hleft, hright, Pending.release, Pending.finish]
  simp [Except.map]

/-- Parentheses around everything leave the program as it is. -/
theorem toPostfix_group (hp : toPostfix T first = .ok p) (f : α → β) (move : Span → Span)
    (opened closed : Span) :
    toPostfix T (.opening opened :: (first.map (Infix.map f move) ++ [.closing closed])) =
      .ok (p.map (Postfix.map f)) := by
  have hgroup := convert_group hp f move opened closed [] []
  simp only [List.map_nil, List.nil_append] at hgroup
  simp only [toPostfix, convert, hgroup, Pending.finish]
  simp [Except.map]

/-- An operator in front of parentheses comes after the program of what they hold. -/
theorem toPostfix_front (hp : toPostfix T first = .ok p) (o : ο) (f : α → β) (move : Span → Span)
    (opened closed : Span) :
    toPostfix T (.operator o :: .opening opened ::
        (first.map (Infix.map f move) ++ [.closing closed])) =
      .ok (p.map (Postfix.map f) ++ [.operator o]) := by
  have hgroup := convert_group hp f move opened closed [.operator o] []
  simp only [List.map_nil, List.nil_append] at hgroup
  simp only [toPostfix, convert, hgroup, Pending.release, Pending.finish]
  simp [Except.map]

end

/-! ## Programs of trees -/

/-- The programs of trees whose values stand on a stack, the last one on top. -/
def Tree.programs : List (Tree α ο) → List (Postfix α ο)
  | [] => []
  | t :: trees => programs trees ++ t.program

/-- What a program does with the values of trees is to put trees together. -/
theorem exists_trees (hT : T.Graded) {program : List (Postfix α ο)} {trees : List (Tree α ο)}
    (hfits : ∀ t ∈ trees, t.Fits T) {after : Nat}
    (h : depthAfter T program trees.length = some after) :
    ∃ trees' : List (Tree α ο), trees'.length = after ∧ (∀ t ∈ trees', t.Fits T) ∧
      Tree.programs trees ++ program = Tree.programs trees' := by
  induction program generalizing trees with
  | nil =>
    cases h
    exact ⟨trees, rfl, hfits, List.append_nil _⟩
  | cons step program ih =>
    cases step with
    | operand a =>
      have hgrown : ∀ t ∈ Tree.operand a :: trees, t.Fits T :=
        List.forall_mem_cons.mpr ⟨trivial, hfits⟩
      obtain ⟨trees', hlength, hfits', hprogram⟩ := ih hgrown h
      exact ⟨trees', hlength, hfits', by simpa [Tree.programs, Tree.program] using hprogram⟩
    | operator o =>
      simp only [depthAfter] at h
      split at h
      · cases h
      rename_i henough
      rcases hT.arities o with hone | htwo
      · cases trees with
        | nil => simp [hone] at henough
        | cons t trees =>
          obtain ⟨ht, hfits⟩ := List.forall_mem_cons.mp hfits
          have hgrown : ∀ t' ∈ Tree.unary o t :: trees, t'.Fits T :=
            List.forall_mem_cons.mpr ⟨⟨hone, ht⟩, hfits⟩
          obtain ⟨trees', hlength, hfits', hprogram⟩ := ih hgrown (by simpa [hone] using h)
          exact ⟨trees', hlength, hfits', by simpa [Tree.programs, Tree.program] using hprogram⟩
      · obtain ⟨r, l, trees, rfl⟩ : ∃ r l trees', trees = r :: l :: trees' := by
          rcases trees with - | ⟨r, - | ⟨l, trees⟩⟩
          · simp [htwo] at henough
          · simp [htwo] at henough
          · exact ⟨r, l, trees, rfl⟩
        obtain ⟨hr, hfits⟩ := List.forall_mem_cons.mp hfits
        obtain ⟨hl, hfits⟩ := List.forall_mem_cons.mp hfits
        have hgrown : ∀ t ∈ Tree.binary o l r :: trees, t.Fits T :=
          List.forall_mem_cons.mpr ⟨⟨htwo, hl, hr⟩, hfits⟩
        obtain ⟨trees', hlength, hfits', hprogram⟩ := ih hgrown (by simpa [htwo] using h)
        exact ⟨trees', hlength, hfits', by simpa [Tree.programs, Tree.program] using hprogram⟩

theorem Tree.Fits.isWellFormed {t : Tree α ο} (h : t.Fits T) : isWellFormed T t.program = true := by
  have hdepth := depthAfter_program h [] 0
  rw [List.append_nil] at hdepth
  simp [Script.isWellFormed, hdepth, depthAfter]

/-- **Well-formed programs are the programs of trees.** -/
theorem isWellFormed_iff (hT : T.Graded) {program : List (Postfix α ο)} :
    isWellFormed T program = true ↔ ∃ t : Tree α ο, t.Fits T ∧ t.program = program := by
  constructor
  · intro h
    have hnone : ∀ t ∈ ([] : List (Tree α ο)), t.Fits T := List.forall_mem_nil _
    obtain ⟨trees, hlength, hfits, hprogram⟩ := exists_trees hT hnone (eq_of_beq h)
    obtain ⟨t, rfl⟩ := List.length_eq_one_iff.mp hlength
    exact ⟨t, hfits t List.mem_cons_self, hprogram.symm⟩
  · rintro ⟨t, ht, rfl⟩
    exact ht.isWellFormed

section

variable {o : ο} {p q : List (Postfix α ο)}

theorem isWellFormed_unary (hT : T.Graded) (ho : T.arity o = 1) (hp : isWellFormed T p = true) :
    isWellFormed T (p ++ [.operator o]) = true := by
  obtain ⟨t, ht, rfl⟩ := (isWellFormed_iff hT).mp hp
  exact (isWellFormed_iff hT).mpr ⟨.unary o t, ⟨ho, ht⟩, rfl⟩

theorem isWellFormed_binary (hT : T.Graded) (ho : T.arity o = 2) (hp : isWellFormed T p = true)
    (hq : isWellFormed T q = true) : isWellFormed T (p ++ q ++ [.operator o]) = true := by
  obtain ⟨l, hl, rfl⟩ := (isWellFormed_iff hT).mp hp
  obtain ⟨r, hr, rfl⟩ := (isWellFormed_iff hT).mp hq
  exact (isWellFormed_iff hT).mpr ⟨.binary o l r, ⟨ho, hl, hr⟩, rfl⟩

end

end Storyworld.Script
