import Storyworld.Proofs.Script.Assignment

/-! # Limits of a computation

What a computation that may fail can do to the state, and why it can fail. Both are kept by
sequences, so they are shown for the smallest computations and follow for all others.
-/

namespace Storyworld

/-- What computations are limited to: how they may change the state, and with which faults they may
stop. -/
structure Limits (σ ε : Type) where
  step : σ → σ → Prop
  fault : σ → ε → Prop
  refl : ∀ s, step s s
  trans : ∀ {r s t}, step r s → step s t → step r t
  later : ∀ {s s' e}, step s s' → fault s' e → fault s e

/-- From a state on, a computation stays within its limits, whether it succeeds or fails. -/
structure Within {σ ε α : Type} (L : Limits σ ε) (t : ExceptT ε (StateM σ) α) (s : σ) : Prop where
  step : L.step s (t s).2
  fault : ∀ e, (t s).1 = .error e → L.fault s e

namespace Within

variable {σ ε α β : Type} {L : Limits σ ε} {s : σ}

theorem pure (a : α) : Within L (Pure.pure a) s :=
  ⟨L.refl s, fun _ h => nomatch h⟩

theorem bind {t : ExceptT ε (StateM σ) α} {f : α → ExceptT ε (StateM σ) β} (ht : Within L t s)
    (hf : ∀ a s', t s = (.ok a, s') → L.step s s' → Within L (f a) s') : Within L (t >>= f) s := by
  obtain ⟨hstep, hfault⟩ := ht
  rcases hrun : t s with ⟨r, s'⟩
  rw [hrun] at hstep hfault
  cases r with
  | error e =>
    have hfails : (t >>= f) s = (.error e, s') := by rw [run_bind, hrun]
    refine ⟨hfails ▸ hstep, fun e' he => ?_⟩
    rw [hfails] at he
    cases he
    exact hfault e rfl
  | ok a =>
    have hgoes : (t >>= f) s = f a s' := by rw [run_bind, hrun]
    obtain ⟨hrest, hfrest⟩ := hf a s' hrun hstep
    exact ⟨hgoes ▸ L.trans hstep hrest, fun e he => L.later hstep (hfrest e (hgoes ▸ he))⟩

theorem congr {t t' : ExceptT ε (StateM σ) α} (h : t s = t' s) (ht : Within L t' s) :
    Within L t s :=
  ⟨h ▸ ht.step, h ▸ ht.fault⟩

theorem get_bind {f : σ → ExceptT ε (StateM σ) α} (h : Within L (f s) s) :
    Within L (get >>= f) s :=
  ⟨h.step, h.fault⟩

theorem lift_bind {e : Except ε α} {f : α → ExceptT ε (StateM σ) β}
    (he : ∀ fault, e = .error fault → L.fault s fault) (h : ∀ a, e = .ok a → Within L (f a) s) :
    Within L ((liftM e : ExceptT ε (StateM σ) α) >>= f) s := by
  cases e with
  | error fault => exact ⟨L.refl s, fun e' h => he e' (by cases h; rfl)⟩
  | ok a => exact h a rfl

end Within

end Storyworld
