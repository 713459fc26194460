/-! # Results and runs

How a computation made of parts succeeds or fails: first for results, one after the other or over a
list, then for runs that carry a state along.
-/

namespace Storyworld

namespace Except

variable {ε ε' α β γ : Type}

/-! ## Parts of a result -/

theorem map_eq_ok {f : α → β} {r : Except ε α} {b : β} (h : r.map f = .ok b) :
    ∃ a, r = .ok a ∧ b = f a := by
  cases r with
  | error e => cases h
  | ok a =>
    cases h
    exact ⟨a, rfl, rfl⟩

theorem map_eq_error {f : α → β} {r : Except ε α} {e : ε} (h : r.map f = .error e) :
    r = .error e := by
  cases r with
  | error e' =>
    cases h
    rfl
  | ok a => cases h

theorem map_map_append (r : Except ε (List α)) (first second : List α) :
    (r.map (second ++ ·)).map (first ++ ·) = r.map (first ++ second ++ ·) := by
  cases r <;> simp [Except.map]

theorem bind_eq_ok {r : Except ε α} {f : α → Except ε β} {b : β} (h : (r >>= f) = .ok b) :
    ∃ a, r = .ok a ∧ f a = .ok b := by
  cases r with
  | error e => cases h
  | ok a => exact ⟨a, rfl, h⟩

theorem bind_eq_error {r : Except ε α} {f : α → Except ε β} {e : ε} (h : (r >>= f) = .error e) :
    r = .error e ∨ ∃ a, r = .ok a ∧ f a = .error e := by
  cases r with
  | error e' =>
    cases h
    exact .inl rfl
  | ok a => exact .inr ⟨a, rfl, h⟩

theorem mapError_eq_ok {f : ε → ε'} {r : Except ε α} {a : α} (h : r.mapError f = .ok a) :
    r = .ok a := by
  cases r with
  | ok b => exact congrArg Except.ok (Except.ok.inj h)
  | error cause => cases h

theorem mapError_eq_error {f : ε → ε'} {r : Except ε α} {e : ε'} (h : r.mapError f = .error e) :
    ∃ cause, r = .error cause ∧ f cause = e := by
  cases r with
  | ok a => cases h
  | error cause => exact ⟨cause, rfl, Except.error.inj h⟩

theorem mapError_bind (g : ε → ε') (r : Except ε α) (f : α → Except ε β) :
    (r >>= f).mapError g = r.mapError g >>= fun a => (f a).mapError g := by
  cases r <;> rfl

/-! ## Lists of results -/

section

variable {f : α → Except ε β} {xs : List α} {ys : List β}

/-- What a list comes to, some element comes to. -/
theorem exists_argument_of_mapM (h : xs.mapM f = .ok ys) {y : β} (hy : y ∈ ys) :
    ∃ x ∈ xs, f x = .ok y := by
  induction xs generalizing ys with
  | nil =>
    cases h
    cases hy
  | cons x xs ih =>
    rw [List.mapM_cons] at h
    obtain ⟨z, hz, h⟩ := bind_eq_ok h
    obtain ⟨zs, hzs, h⟩ := bind_eq_ok h
    cases h
    obtain rfl | hy := List.mem_cons.mp hy
    · exact ⟨x, List.mem_cons_self, hz⟩
    · obtain ⟨x', hx', hfx'⟩ := ih hzs hy
      exact ⟨x', List.mem_cons_of_mem x hx', hfx'⟩

/-- Where a list succeeds, every element does. -/
theorem exists_result_of_mapM (h : xs.mapM f = .ok ys) {x : α} (hx : x ∈ xs) :
    ∃ y ∈ ys, f x = .ok y := by
  induction xs generalizing ys with
  | nil => cases hx
  | cons x' xs ih =>
    rw [List.mapM_cons] at h
    obtain ⟨y, hy, h⟩ := bind_eq_ok h
    obtain ⟨ys, hys, h⟩ := bind_eq_ok h
    cases h
    obtain rfl | hx := List.mem_cons.mp hx
    · exact ⟨y, List.mem_cons_self, hy⟩
    · obtain ⟨y', hy', hfx⟩ := ih hys hx
      exact ⟨y', List.mem_cons_of_mem y hy', hfx⟩

/-- A list fails as the first of its elements that fails. -/
theorem mapM_eq_error_iff {e : ε} :
    xs.mapM f = .error e ↔ ∃ before x after, xs = before ++ x :: after ∧
      (∀ b ∈ before, ∃ v, f b = .ok v) ∧ f x = .error e := by
  induction xs with
  | nil =>
    refine iff_of_false nofun ?_
    rintro ⟨before, x, after, hnil, -⟩
    simp at hnil
  | cons a xs ih =>
    rw [List.mapM_cons]
    constructor
    · intro h
      obtain ha | ⟨v, hv, h⟩ := bind_eq_error h
      · exact ⟨[], a, xs, rfl, List.forall_mem_nil _, ha⟩
      · obtain hxs | ⟨vs, -, h⟩ := bind_eq_error h
        · obtain ⟨before, x, after, rfl, hbefore, hx⟩ := ih.mp hxs
          exact ⟨a :: before, x, after, rfl, List.forall_mem_cons.mpr ⟨⟨v, hv⟩, hbefore⟩, hx⟩
        · cases h
    · rintro ⟨before, x, after, hxs, hbefore, hx⟩
      cases before with
      | nil =>
        cases hxs
        rw [hx]
        rfl
      | cons b before =>
        obtain ⟨rfl, rfl⟩ := List.cons.inj hxs
        obtain ⟨⟨v, hv⟩, hbefore⟩ := List.forall_mem_cons.mp hbefore
        rw [hv, ih.mpr ⟨before, x, after, rfl, hbefore, hx⟩]
        rfl

theorem exists_mapM_eq_error_iff :
    (∃ e, xs.mapM f = .error e) ↔ ∃ x ∈ xs, ∃ e, f x = .error e := by
  constructor
  · rintro ⟨e, h⟩
    obtain ⟨before, x, after, rfl, -, hx⟩ := mapM_eq_error_iff.mp h
    exact ⟨x, by simp, e, hx⟩
  · rintro ⟨x, hx, e, hfails⟩
    cases hall : xs.mapM f with
    | error e' => exact ⟨e', rfl⟩
    | ok ys =>
      obtain ⟨y, -, hy⟩ := exists_result_of_mapM hall hx
      rw [hfails] at hy
      cases hy

end

/-- A check made of two parts passes if both do. -/
theorem checks_eq_ok_iff {a b : Except ε Unit} :
    (do a; b) = Except.ok () ↔ a = .ok () ∧ b = .ok () := by
  cases a with
  | error e => simp [bind, Except.bind]
  | ok u => simp [bind, Except.bind]

theorem forM_eq_ok_iff {f : α → Except ε Unit} {xs : List α} :
    xs.forM f = .ok () ↔ ∀ x ∈ xs, f x = .ok () := by
  induction xs with
  | nil => exact ⟨fun _ _ hx => absurd hx List.not_mem_nil, fun _ => rfl⟩
  | cons x xs ih =>
    change (do f x; xs.forM f) = Except.ok () ↔ _
    rw [checks_eq_ok_iff, ih]
    simp

end Except

/-! ## Runs -/

section

variable {ε ε' σ α β : Type}

/-- A sequence of two computations runs the second where the first has succeeded. -/
theorem run_bind (t : ExceptT ε (StateM σ) α) (f : α → ExceptT ε (StateM σ) β) (s : σ) :
    (t >>= f) s = match t s with
      | (.ok a, s') => f a s'
      | (.error e, s') => (.error e, s') := by
  change (ExceptT.bindCont f (t s).1) (t s).2 = _
  cases h : t s with
  | mk r s' => cases r <;> rfl

/-- A sequence that succeeds is a success of the first, then one of the second. -/
theorem run_bind_eq_ok {t : ExceptT ε (StateM σ) α} {f : α → ExceptT ε (StateM σ) β} {s s' : σ}
    {b : β} (h : (t >>= f) s = (.ok b, s')) :
    ∃ a s₁, t s = (.ok a, s₁) ∧ f a s₁ = (.ok b, s') := by
  rw [run_bind] at h
  rcases hrun : t s with ⟨r, s₁⟩
  rw [hrun] at h
  cases r with
  | error e => cases h
  | ok a => exact ⟨a, s₁, rfl, h⟩

theorem run_lift_bind (r : Except ε α) (f : α → ExceptT ε (StateM σ) β) (s : σ) :
    ((liftM r : ExceptT ε (StateM σ) α) >>= f) s = match r with
      | .ok a => f a s
      | .error e => (.error e, s) := by
  cases r <;> rfl

theorem run_get_bind (f : σ → ExceptT ε (StateM σ) α) (s : σ) :
    ((get : ExceptT ε (StateM σ) σ) >>= f) s = f s s :=
  rfl

theorem run_adapt (f : ε → ε') (t : ExceptT ε (StateM σ) α) (s : σ) :
    (t.adapt f) s = ((t s).1.mapError f, (t s).2) :=
  rfl

end

end Storyworld
