import Storyworld.Proofs.World.Failure
import Storyworld.Script.Assignment

/-! # What a script may do

A script only calls the store (`Change.Writes`). It stops at the first clause that fails, and in an
intact world that clause leaves no trace: what is left is what the clauses before it have made.
-/

namespace Storyworld

/-! ## Scripts -/

namespace Script

/-- From a world on, a script only calls the store. -/
def Change.Writes {α : Type} (t : Change α) (w : World) : Prop :=
  w.Evolves (t w).2

namespace Change.Writes

variable {α β : Type} {w : World}

theorem pure (a : α) : Writes (Pure.pure a) w :=
  .refl w

theorem bind {t : Change α} {f : α → Change β} (ht : t.Writes w)
    (hf : ∀ a w', (f a).Writes w') : (t >>= f).Writes w := by
  unfold Writes at ht ⊢
  rw [run_bind]
  cases h : t w with
  | mk r w' =>
    rw [h] at ht
    cases r with
    | error e => exact ht
    | ok a => exact ht.trans (hf a w')

theorem get_bind {f : World → Change α} (h : (f w).Writes w) : (get >>= f).Writes w :=
  h

theorem lift_bind {e : Except ScriptError α} {f : α → Change β} (h : ∀ a, (f a).Writes w) :
    ((liftM e : Change α) >>= f).Writes w := by
  unfold Writes
  rw [run_lift_bind]
  cases e with
  | error e => exact .refl w
  | ok a => exact h a

end Change.Writes

open Change

theorem Assignment.perform_writes (a : Assignment) (w : World) : a.perform.Writes w := by
  refine .get_bind (.lift_bind fun v => ?_)
  exact Store.set_evolves a.target v w

theorem Assignment.performAll_writes (as : List Assignment) (w : World) :
    (performAll as).Writes w := by
  induction as generalizing w with
  | nil => exact .pure ()
  | cons a rest ih => exact (a.perform_writes w).bind fun _ w' => ih w'

theorem assign_writes (source : String) (w : World) : (assign source).Writes w :=
  .lift_bind fun clauses => Assignment.performAll_writes clauses w

/-! ## Scripts that fail -/

/-- A clause fails with its expression, or else writes what the expression comes to. -/
theorem Assignment.perform_cases (a : Assignment) (w : World) :
    (∃ e, a.expression.evaluate w = .error e ∧ a.perform w = (.error e, w)) ∨
      ∃ v, a.expression.evaluate w = .ok v ∧
        a.perform w = ((Store.set a.target v w).1.mapError .world, (Store.set a.target v w).2) := by
  rw [perform, run_get_bind, run_lift_bind]
  cases a.expression.evaluate w with
  | error e => exact .inl ⟨e, rfl, rfl⟩
  | ok v => exact .inr ⟨v, rfl, run_adapt _ _ _⟩

/-- A clause that fails leaves an intact world as it was. -/
theorem Assignment.perform_untouched {a : Assignment} {w w' : World} {e : ScriptError}
    (hw : w.Intact) (h : a.perform w = (.error e, w')) : w' = w := by
  obtain ⟨_, -, hperform⟩ | ⟨v, -, hperform⟩ := a.perform_cases w
  · exact congrArg Prod.snd (h.symm.trans hperform)
  · have hboth := hperform.symm.trans h
    obtain ⟨cause, hfails, -⟩ := Except.mapError_eq_error (congrArg Prod.fst hboth)
    have hleft : (Store.set a.target v w).2 = w' := congrArg Prod.snd hboth
    exact Store.set_untouched hw (Prod.ext hfails hleft)

/-- Clauses of which one fails leave an intact world as the clauses before it have made it. -/
theorem Assignment.performAll_stops {clauses : List Assignment} {w w' : World} {e : ScriptError}
    (hw : w.Intact) (h : performAll clauses w = (.error e, w')) :
    ∃ k failed, clauses[k]? = some failed ∧ (failed.perform w').1 = .error e ∧
      performAll (clauses.take k) w = (.ok (), w') := by
  induction clauses generalizing w with
  | nil => cases h
  | cons a rest ih =>
    rw [performAll, run_bind] at h
    rcases hrun : a.perform w with ⟨result, w₁⟩
    rw [hrun] at h
    cases result with
    | error cause =>
      cases h
      obtain rfl := perform_untouched hw hrun
      exact ⟨0, a, rfl, by rw [hrun], rfl⟩
    | ok u =>
      have hw₁ : w₁.Intact := by
        have hevolves := a.perform_writes w
        rw [Change.Writes, hrun] at hevolves
        exact hevolves.intact hw
      obtain ⟨k, failed, hk, hfails, hbefore⟩ := ih hw₁ h
      refine ⟨k + 1, failed, hk, hfails, ?_⟩
      rw [List.take_succ_cons, performAll, run_bind, hrun]
      exact hbefore

end Script

namespace World

open Script

/-- **Failed writes leave no trace.** In a world that was loaded, and however it was written to
since, a call of the store that fails leaves the world as it was; and clauses of which one fails
leave the world that the clauses before it have made. -/
theorem untouched_of_load {d : Document} {w₀ : World} (loaded : load d = .ok w₀)
    (calls : List Call) :
    let w := w₀.runCalls calls
    (∀ source v fault w', Store.set source v w = (.error fault, w') → w' = w) ∧
    (∀ source default fault w', Store.getOrSet source default w = (.error fault, w') → w' = w) ∧
    ∀ clauses e w', Assignment.performAll clauses w = (.error e, w') →
      ∃ k failed, clauses[k]? = some failed ∧ (failed.perform w').1 = .error e ∧
        Assignment.performAll (clauses.take k) w = (.ok (), w') := by
  intro w
  have hw : w.Intact := (intact_of_load loaded).runCalls calls
  exact ⟨fun _ _ _ _ => Store.set_untouched hw, fun _ _ _ _ => Store.getOrSet_untouched hw,
    fun _ _ _ => Assignment.performAll_stops hw⟩

theorem untouched_of_load_lampRoom :
    load (lampRoom "") = .ok (lampRoom "").world ∧
      Store.set "lamp:name:short" (.bool true) (lampRoom "").world =
        (.error (.notContainer "lamp:name:short"), (lampRoom "").world) := by
  have hfails : (Store.set "lamp:name:short" (.bool true) (lampRoom "").world).1 =
      .error (.notContainer "lamp:name:short") := rfl
  have loaded : load (lampRoom "") = .ok (lampRoom "").world := rfl
  exact ⟨loaded,
    Prod.ext hfails ((untouched_of_load loaded []).1 _ _ _ _ (Prod.ext hfails (Eq.refl _)))⟩

end World

end Storyworld
