import TokenRevoker.Core.Middleware
import TokenRevoker.Core.Rotation

/-! The handlers over the whole life of a revoker. A handler keeps its manager when the
revoker has been shut down or destroyed, and a destroyed manager has no filters: what it is
asked for is not covered. -/
namespace TokenRevoker

open Text SignatureFilter Transition

/-- A revoker from its construction on, and its manager, which outlives it in the handlers. What
the manager does with its files is left out here. -/
structure Lifecycle (g : Geometry) where
  rotations : Rotations g
  /-- Calls of `shutdown` that wait for the mutex. -/
  acquiring : Nat := 0
  /-- Calls of `shutdown` that flush the write buffer. -/
  flushing : Nat := 0
  destroyed : Bool := false
  deriving DecidableEq

namespace Lifecycle

inductive Action where
  | run (a : Rotations.Action)
  | request (request : Request)
  | shutdown
  | shutdownAcquired
  | flushed (flushWriteBuffer : Except String Unit)
  | destroy

variable {g : Geometry}

def start (g : Geometry) (numItems : Nat) (backup : Bool)
    (restoredCurrent restoredPrevious : Option (SizedFilter g)) : Lifecycle g where
  rotations := Rotations.start g numItems backup restoredCurrent restoredPrevious

/-- The manager of the handlers. -/
def manager (s : Lifecycle g) : Manager g := s.rotations.manager

/-- `BloomFilterManager.destroy`. The filters go, and with them every answer but no. -/
def teardown (s : Lifecycle g) : Lifecycle g :=
  { s with
    rotations := { s.rotations with
      backup := false
      manager := { s.rotations.manager with shuttingDown := true, previous := none, current := none } }
    destroyed := true }

/-- One synchronous stretch of the program, `none` where it cannot run now. -/
def step (toLowerCase : JsString → JsString) (middleware : Middleware) (s : Lifecycle g) :
    Action → Option (Lifecycle g)
  | .run a => (s.rotations.step a).map fun rotations => { s with rotations := rotations }
  | .request request => some { s with
      rotations := { s.rotations with
        manager := (middleware.handle toLowerCase s.rotations.manager request).1 } }
  | .shutdown => some { s with
      rotations := { s.rotations with manager := { s.rotations.manager with shuttingDown := true } }
      acquiring := s.acquiring + 1 }
  | .shutdownAcquired =>
      if 0 < s.acquiring && !s.rotations.suspended then
        some { s with acquiring := s.acquiring - 1, flushing := s.flushing + 1 }
      else none
  | .flushed flushWriteBuffer =>
      if 0 < s.flushing then
        let flushed : Lifecycle g := { s with flushing := s.flushing - 1 }
        match flushWriteBuffer with
        | .ok () => some flushed.teardown
        | .error _ => some flushed
      else none
  | .destroy => some s.teardown

variable {toLowerCase : JsString → JsString} {middleware : Middleware} {s t : Lifecycle g} {a : Action}
  {since : Nat} {x : JsString} {P : Rotations g → Prop}

/-- What every rotation, insertion and look-up keeps, and what is about the two filters and
the number of rotations. -/
structure Stable (P : Rotations g → Prop) : Prop where
  step : ∀ {rotations later a}, P rotations → rotations.step a = some later → P later
  congr : ∀ {rotations later}, P rotations → later.manager.current = rotations.manager.current →
    later.manager.previous = rotations.manager.previous → later.completed = rotations.completed → P later

/-- A live manager is as `P` says; a destroyed one has empty filters and refuses to insert. The
second half is why a handler that outlives its manager lets everything pass. -/
structure Keeps (P : Rotations g → Prop) (s : Lifecycle g) : Prop where
  live : s.destroyed = false → P s.rotations
  gone : s.destroyed = true → s.manager.shuttingDown = true ∧ s.manager.window = ⟨∅, ∅⟩

theorem keeps_teardown (s : Lifecycle g) : Keeps P s.teardown where
  live := by
    intro hLive
    cases hLive
  gone := fun _ => ⟨rfl, rfl⟩

/-- A manager that is shutting down inserts nothing, and a rotation of it is empty. -/
theorem gone_run {rotations later : Rotations g} {a : Rotations.Action}
    (hStep : rotations.step a = some later)
    (hShut : rotations.manager.shuttingDown = true) (hWindow : rotations.manager.window = ⟨∅, ∅⟩) :
    later.manager.shuttingDown = true ∧ later.manager.window = ⟨∅, ∅⟩ := by
  have hSame : ∀ {after : Manager g}, Manager.SameFilters rotations.manager after →
      after.shuttingDown = true ∧ after.window = ⟨∅, ∅⟩ := fun h =>
    ⟨h.shuttingDown.trans hShut, h.window.trans hWindow⟩
  have hSwap : ∀ after : Manager g, Manager.SameFilters rotations.manager after →
      after.swap.shuttingDown = true ∧ after.swap.window = ⟨∅, ∅⟩ := by
    intro after h
    refine ⟨h.shuttingDown.trans hShut, ?_⟩
    rw [Manager.swap_window, h.window, hWindow]
    rfl
  cases a with
  | add item backupItem =>
      cases hStep
      rcases hResult : (rotations.manager.add (rotations.persist backupItem) item).2 with error | _
      · exact hSame (Manager.add_of_error hResult)
      · have hOpen := (Manager.add_eq_ok_iff.mp hResult).2.1
        rw [hShut] at hOpen
        cases hOpen
  | applyEntry item backupItem =>
      cases hStep
      rcases hResult : (rotations.manager.applyEntry (rotations.persist backupItem) item).2 with error | _
      · exact hSame (Manager.applyEntry_of_error hResult)
      · have hOpen := (Manager.applyEntry_eq_ok_iff.mp hResult).2.1
        rw [hShut] at hOpen
        cases hOpen
  | has value =>
      cases hStep
      exact hSame (Manager.has_sameFilters _ _)
  | timer =>
      cases hStep
      exact ⟨hShut, hWindow⟩
  | rotateOnDemand =>
      simp only [Rotations.step, hShut, if_true] at hStep
      cases hStep
      exact ⟨hShut, hWindow⟩
  | acquire =>
      simp only [Rotations.step] at hStep
      split_ifs at hStep <;> cases hStep
      · exact ⟨hShut, hWindow⟩
      · exact hSwap { rotations.manager with hasRotated := true } ⟨rfl, rfl, rfl, rfl, rfl⟩
  | resume backupRotate =>
      obtain ⟨-, rfl⟩ := Rotations.step_resume hStep
      exact hSwap _ (Manager.SameFilters.refl _)

theorem Keeps.step (hStable : Stable P) (h : Keeps P s) (hStep : s.step toLowerCase middleware a = some t) :
    Keeps P t := by
  cases a with
  | run a =>
      obtain ⟨rotations, hRun, rfl⟩ := Option.map_eq_some_iff.mp hStep
      exact ⟨fun hLive => hStable.step (h.live hLive) hRun,
        fun hGone => gone_run hRun (h.gone hGone).1 (h.gone hGone).2⟩
  | request request =>
      cases hStep
      -- the handler counts, and leaves all that matters here alone
      obtain ⟨hSame, hCount⟩ : Manager.SameFilters s.manager
          (middleware.handle toLowerCase s.manager request).1 ∧
            (middleware.handle toLowerCase s.manager request).1.counters.rotations =
              s.manager.counters.rotations :=
        Middleware.handle_invariant (P := fun later => Manager.SameFilters s.manager later ∧
            later.counters.rotations = s.manager.counters.rotations)
          (fun later item hLater =>
            ⟨hLater.1.trans (Manager.has_sameFilters later item),
              (Rotations.has_rotations later item).trans hLater.2⟩)
          ⟨Manager.SameFilters.refl _, rfl⟩ middleware request
      exact ⟨fun hLive => hStable.congr (h.live hLive) hSame.current hSame.previous hCount,
        fun hGone => ⟨hSame.shuttingDown.trans (h.gone hGone).1, hSame.window.trans (h.gone hGone).2⟩⟩
  | shutdown =>
      cases hStep
      exact ⟨fun hLive => hStable.congr (h.live hLive) rfl rfl rfl, fun hGone => ⟨rfl, (h.gone hGone).2⟩⟩
  | shutdownAcquired =>
      simp only [Lifecycle.step] at hStep
      split_ifs at hStep
      cases hStep
      exact ⟨h.live, h.gone⟩
  | flushed flushWriteBuffer =>
      simp only [Lifecycle.step] at hStep
      split_ifs at hStep
      cases flushWriteBuffer with
      | ok =>
          cases hStep
          exact keeps_teardown _
      | error message =>
          cases hStep
          exact ⟨h.live, h.gone⟩
  | destroy =>
      cases hStep
      exact keeps_teardown s

theorem Keeps.run (hStable : Stable P) {actions : List Action}
    (run : Run (ofStep (Lifecycle.step toLowerCase middleware)) s actions t) (h : Keeps P s) : Keeps P t :=
  run.invariant (fun _ _ _ h hStep => Keeps.step hStable h hStep) h

end Lifecycle

end TokenRevoker
