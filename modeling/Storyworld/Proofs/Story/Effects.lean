import Storyworld.Proofs.Library
import Storyworld.Proofs.Script.Fault

/-! # What the scripts of a library may do

Guards, rules and descriptions take their scripts from what stands in the world. While those are all
in a library, a fault is raised by a script of the library (`Library.Raises`), and a new variable is
one that a script of the library writes to (`Library.Creates`).
-/

namespace Storyworld

open Script Terminal

namespace Library

/-- Some script of the library cannot be read, or fails when it is run in a world. -/
def Raises (lib : Library) (w : World) (e : ScriptError) : Prop :=
  ∃ kind source, lib kind source ∧ (Unread e kind source ∨ FailsIn w e kind source)

/-- Some assignment in the library writes to a path that starts with a name. -/
def Creates (lib : Library) (name : String) : Prop :=
  ∃ source clauses, lib .assignments source ∧ parseAssignments source = .ok clauses ∧
    ∃ a ∈ clauses, rootOf a.target = name

/-- A fault that the library raises, now or in a world that comes of this one. -/
def RaisesFrom (lib : Library) (w : World) (e : ScriptError) : Prop :=
  ∃ w', w.Evolves w' ∧ lib.Raises w' e

variable {lib : Library} {w : World} {e : ScriptError}

theorem Raises.now (h : lib.Raises w e) : lib.RaisesFrom w e :=
  ⟨w, .refl w, h⟩

theorem RaisesFrom.later {w' : World} (h : w.Evolves w') (hraises : lib.RaisesFrom w' e) :
    lib.RaisesFrom w e := by
  obtain ⟨w'', hevolves, hraises⟩ := hraises
  exact ⟨w'', h.trans hevolves, hraises⟩

/-- What a change may do whose scripts are all in the library. -/
def changes (lib : Library) : Limits World ScriptError where
  step := World.Grows lib.Creates
  fault := lib.RaisesFrom
  refl := .refl
  trans := .trans
  later hgrows h := h.later hgrows.evolves

end Library

namespace Story

variable {lib : Library} {w : World} {e : ScriptError}

/-! ## Guards and descriptions -/

theorem raises_of_holds {source : String} (h : lib .condition source)
    (hfails : Condition.holds w source = .error e) : lib.Raises w e := by
  refine ⟨.condition, source, h, ?_⟩
  obtain hparse | ⟨c, hparse, heval⟩ := Except.bind_eq_error hfails
  · exact .inl (.condition hparse)
  · exact .inr (.condition hparse heval)

theorem raises_of_guardHolds {guard : Option String} (h : lib.Has .condition guard)
    (hfails : guardHolds w guard = .error e) : lib.Raises w e := by
  unfold guardHolds at hfails
  split at hfails
  · cases hfails
  · rename_i source hsource
    exact raises_of_holds (h source hsource) hfails

theorem raises_of_addition {ds : List Description} (h : ∀ d ∈ ds, d.Covered lib)
    (hfails : addition w ds = .error e) : lib.Raises w e := by
  induction ds with
  | nil => cases hfails
  | cons d rest ih =>
    obtain ⟨hd, hrest⟩ := List.forall_mem_cons.mp h
    rw [addition] at hfails
    split at hfails
    · exact ih hrest hfails
    · rename_i source hsource
      obtain hguard | ⟨holds, -, hfails⟩ := Except.bind_eq_error hfails
      · exact raises_of_holds (hd source hsource) hguard
      · split at hfails
        · cases hfails
        · exact ih hrest hfails

theorem raises_of_describe {ds : List Description} (h : ∀ d ∈ ds, d.Covered lib)
    (hfails : describe w ds = .error e) : lib.Raises w e := by
  obtain hadd | ⟨extra, -, hfails⟩ := Except.bind_eq_error hfails
  · exact raises_of_addition h hadd
  · cases hfails

/-! ## Rules -/

theorem assign_within {source : String} (h : lib .assignments source) (w : World) :
    Within lib.changes (assign source) w := by
  refine .lift_bind (fun e he => ?_) fun clauses hclauses => ⟨?_, fun e he => ?_⟩
  · exact Library.Raises.now ⟨.assignments, source, h, .inl (.assignments he)⟩
  · have hcreates : ∀ a ∈ clauses, lib.Creates (rootOf a.target) := fun a ha =>
      ⟨source, clauses, h, hclauses, a, ha, rfl⟩
    exact (Assignment.performAll_within hcreates w).step
  · exact Library.Raises.now ⟨.assignments, source, h, .inr (.assignments hclauses he)⟩

theorem perform_within {assignments : Option String} (h : lib.Has .assignments assignments)
    (w : World) : Within lib.changes (perform assignments) w := by
  unfold perform
  split
  · exact .pure ()
  · rename_i source hsource
    exact assign_within (h source hsource) w

theorem fire_within {r : Rule} (h : r.Covered lib) (w : World) :
    Within lib.changes (fire r) w :=
  (perform_within h.assignments w).bind fun _ _ _ _ => .pure _

theorem fireAll_within {rules : List Rule} (h : ∀ r ∈ rules, r.Covered lib) (w : World) :
    Within lib.changes (fireAll rules) w := by
  induction rules generalizing w with
  | nil => exact .pure []
  | cons r rest ih =>
    obtain ⟨hr, hrest⟩ := List.forall_mem_cons.mp h
    refine .get_bind (.lift_bind (fun _ he => ?_) fun holds _ => ?_)
    · exact (raises_of_guardHolds hr.condition he).now
    · split
      · exact (fire_within hr w).bind fun _ w' _ _ =>
          (ih hrest w').bind fun _ _ _ _ => .pure _
      · exact ih hrest w

theorem fireFirst_within {rules : List Rule} (h : ∀ r ∈ rules, r.Covered lib) (w : World) :
    Within lib.changes (fireFirst rules) w := by
  induction rules generalizing w with
  | nil => exact .pure none
  | cons r rest ih =>
    obtain ⟨hr, hrest⟩ := List.forall_mem_cons.mp h
    refine .get_bind (.lift_bind (fun _ he => ?_) fun holds _ => ?_)
    · exact (raises_of_guardHolds hr.condition he).now
    · split
      · exact (fire_within hr w).bind fun _ _ _ _ => .pure _
      · exact ih hrest w

end Story

end Storyworld
