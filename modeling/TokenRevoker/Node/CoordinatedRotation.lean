import TokenRevoker.Core.Manager
import TokenRevoker.Core.RotationTimer
import TokenRevoker.Node.SyncEngineProcess

/-! A call of `rotateOnDemand` while nothing else runs, and the engine that awaits it. Each
attempt moves the current filter to `previous` before it allocates the next one, and after
three failed allocations the call returns as if a rotation had taken place. -/
namespace TokenRevoker

open Text

/-- How the steps of one `#rotate` that can fail turn out. The allocation of the new filter is
the only one of them that stops a rotation. -/
structure RotateOutcomes where
  backupRotate : Except String Unit
  create : Except String Unit

namespace Manager

variable {g : Geometry}

/-- `#rotate` with the mutex. What `backupRotate` throws is caught and logged. -/
def rotate (manager : Manager g) (outcomes : RotateOutcomes) : Manager g × Except RevokerError Unit :=
  let promoted : Manager g := { manager with hasRotated := true, previous := manager.current }
  match outcomes.create with
  | .error message => (promoted, .error (.internalError s!"Failed to rotate filters: {message}"))
  | .ok () =>
      ({ promoted with current := some (SizedFilter.create g), currentInsertions := 0 }, .ok ())

/-- The attempts of `#rotateWithRetry` that are left. It returns normally in either case. -/
def rotateWithRetry (manager : Manager g) : List RotateOutcomes → Manager g
  | [] =>
      { manager with
        counters := { manager.counters with rotationsFailed := manager.counters.rotationsFailed + 1 } }
  | outcomes :: rest =>
      match manager.rotate outcomes with
      | (rotated, .ok ()) =>
          { rotated with
            counters := { rotated.counters with rotations := rotated.counters.rotations + 1 } }
      | (failed, .error _) => failed.rotateWithRetry rest

def rotateOnDemand (manager : Manager g) (attempts : Fin RotationTimer.maxRetries → RotateOutcomes) :
    Manager g × Except RevokerError Unit :=
  if manager.shuttingDown then
    (manager, .error (.internalError "Cannot rotate on demand: revoker is shutting down."))
  else (manager.rotateWithRetry (List.ofFn attempts), .ok ())

/-- Exactly one rotation took place. The former current filter is the previous one, and the new
one is empty. -/
structure RotatedOnce (before after : Manager g) : Prop where
  previous : after.previous = before.current
  current : after.current = some (SizedFilter.create g)
  insertions : after.currentInsertions = 0
  rotations : after.counters.rotations = before.counters.rotations + 1

/-- A call that resolves has rotated once, and one that rejects has left the filters and
their count as they were. -/
def AllOrNothing (before : Manager g) (after : Manager g × Except RevokerError Unit) : Prop :=
  match after.2 with
  | .ok () => before.RotatedOnce after.1
  | .error _ =>
      after.1.previous = before.previous ∧ after.1.current = before.current ∧
        after.1.currentInsertions = before.currentInsertions

/-- An attempt rotates, or changes only `previous`, which the next attempt sets again. -/
theorem rotate_cases (manager : Manager g) (outcomes : RotateOutcomes) :
    (outcomes.create = .ok () ∧ ∃ rotated, manager.rotate outcomes = (rotated, .ok ()) ∧
      rotated.previous = manager.current ∧ rotated.current = some (SizedFilter.create g) ∧
      rotated.currentInsertions = 0 ∧ rotated.counters = manager.counters) ∨
    (outcomes.create ≠ .ok () ∧ ∃ failed error, manager.rotate outcomes = (failed, .error error) ∧
      failed.current = manager.current ∧ failed.counters = manager.counters) := by
  unfold rotate
  rcases outcomes.create with message | _
  · exact .inr ⟨nofun, _, _, rfl, rfl, rfl⟩
  · exact .inl ⟨rfl, _, rfl, rfl, rfl, rfl, rfl⟩

/-- The first allocation that succeeds makes the one rotation of the call. -/
theorem rotateWithRetry_of_create (manager : Manager g) {attempts : List RotateOutcomes}
    (h : ∃ outcomes ∈ attempts, outcomes.create = .ok ()) :
    manager.RotatedOnce (manager.rotateWithRetry attempts) := by
  induction attempts generalizing manager with
  | nil => simp at h
  | cons outcomes rest ih =>
      rw [rotateWithRetry]
      rcases rotate_cases manager outcomes with
        ⟨-, rotated, hRotate, hPrevious, hCurrent, hInsertions, hCounters⟩ |
        ⟨hFail, failed, error, hRotate, hCurrent, hCounters⟩
      · rw [hRotate]
        exact ⟨hPrevious, hCurrent, hInsertions, by simp only [hCounters]⟩
      · rw [hRotate]
        have hRest := ih failed (by simpa [hFail] using h)
        exact ⟨by rw [hRest.previous, hCurrent], hRest.current, hRest.insertions,
          by rw [hRest.rotations, hCounters]⟩

theorem rotateWithRetry_of_failed (manager : Manager g) {attempts : List RotateOutcomes}
    (h : ∀ outcomes ∈ attempts, outcomes.create ≠ .ok ()) :
    (manager.rotateWithRetry attempts).counters.rotations = manager.counters.rotations := by
  induction attempts generalizing manager with
  | nil => rfl
  | cons outcomes rest ih =>
      rw [rotateWithRetry]
      rcases rotate_cases manager outcomes with
        ⟨hCreate, -⟩ | ⟨-, failed, error, hRotate, -, hCounters⟩
      · exact absurd hCreate (h outcomes (by simp))
      · rw [hRotate]
        simp only
        rw [ih failed fun outcomes hMem => h outcomes (by simp [hMem]), hCounters]

theorem rotateOnDemand_allOrNothing_iff (manager : Manager g)
    (attempts : Fin RotationTimer.maxRetries → RotateOutcomes) :
    manager.AllOrNothing (manager.rotateOnDemand attempts) ↔
      manager.shuttingDown = true ∨ ∃ i, (attempts i).create = .ok () := by
  unfold rotateOnDemand
  by_cases hShut : manager.shuttingDown = true
  · simp [hShut, AllOrNothing]
  · simp only [hShut, if_false, false_or, AllOrNothing, Bool.false_eq_true]
    constructor
    · intro hOnce
      by_contra hNone
      have hFailed : ∀ outcomes ∈ List.ofFn attempts, outcomes.create ≠ .ok () := by
        intro outcomes hMem hCreate
        obtain ⟨i, rfl⟩ := List.mem_ofFn.mp hMem
        exact hNone ⟨i, hCreate⟩
      have hSame := rotateWithRetry_of_failed manager hFailed
      have := hOnce.rotations
      omega
    · rintro ⟨i, hCreate⟩
      exact rotateWithRetry_of_create manager ⟨attempts i, List.mem_ofFn.mpr ⟨i, rfl⟩, hCreate⟩

end Manager

namespace SyncEngineProcess

variable {g : Geometry} {toNumber : JsString → Option Nat} {s t : SyncEngineProcess}

/-- The engine that applies a `Rotate` moves on exactly where `rotateOnDemand` resolves. It
cannot see what the rotation has done, only whether the call has thrown. -/
def Follows (toNumber : JsString → Option Nat) (s : SyncEngineProcess)
    (outcome : Except RevokerError Unit) : Prop :=
  ∀ enqueued rest lsn applied t, s.chain = enqueued :: rest → s.stopped = false →
    s.rebootstrapFired = false → s.check toNumber enqueued.event = .rotate lsn →
    Transition.exec (step toNumber) s
      [.apply applied (.ok ()), .rotated (outcome.mapError RevokerError.message) (.ok ())] = some t →
    if outcome = .ok () then
      t.generation = s.generation + 1 ∧ t.lastAppliedLsn = lsn ∧
        t.history.persisted = s.history.persisted ++ [(lsn, s.generation + 1)]
    else
      t.generation = s.generation ∧ t.lastAppliedLsn = s.lastAppliedLsn ∧
        t.history.persisted = s.history.persisted ∧ t.rebootstrapFired = true

theorem applyEvent_rotate {enqueued : Enqueued} {lsn : Nat} {applied updated : Except String Unit}
    (hStopped : s.stopped = false) (hFired : s.rebootstrapFired = false)
    (hCheck : s.check toNumber enqueued.event = .rotate lsn) :
    s.applyEvent toNumber enqueued applied updated =
      { s.attempt lsn .rotateOnDemand with
        rotating := some ⟨lsn, s.generation + 1, enqueued.polled⟩ } := by
  simp [applyEvent, hStopped, hFired, hCheck]

/-- A rotation that resolved is entered in the engine's state and on disk. -/
theorem finishRotation_ok (s : SyncEngineProcess) (rotation : CoordinatedRotation) :
    (s.finishRotation rotation (.ok ()) (.ok ())).generation = rotation.expected ∧
    (s.finishRotation rotation (.ok ()) (.ok ())).lastAppliedLsn = rotation.lsn ∧
    (s.finishRotation rotation (.ok ()) (.ok ())).history.persisted =
      s.history.persisted ++ [(rotation.lsn, rotation.expected)] := by
  have hQuiet := resolve_quiet (({ ({ s with rotating := none } : SyncEngineProcess).complete rotation.lsn
    .rotateOnDemand with generation := rotation.expected } : SyncEngineProcess).persist rotation.lsn (.ok ()))
    rotation.polled
  exact ⟨hQuiet.generation, hQuiet.cursor, hQuiet.persisted⟩

/-- After one that rejected the engine asks for a snapshot, its position unchanged. -/
theorem finishRotation_error (rotation : CoordinatedRotation) (message : String)
    (updated : Except String Unit) (hStopped : s.stopped = false) (hFired : s.rebootstrapFired = false) :
    (s.finishRotation rotation (.error message) updated).generation = s.generation ∧
    (s.finishRotation rotation (.error message) updated).lastAppliedLsn = s.lastAppliedLsn ∧
    (s.finishRotation rotation (.error message) updated).history.persisted = s.history.persisted ∧
    (s.finishRotation rotation (.error message) updated).rebootstrapFired = true := by
  have hQuiet := resolve_quiet (({ s with rotating := none } : SyncEngineProcess).rebootstrap
    "coordinated rotation failed") rotation.polled
  have hAsked : ({ s with rotating := none } : SyncEngineProcess).rebootstrap "coordinated rotation failed" =
      { s with
        rotating := none
        history := { s.history with anomalies := s.history.anomalies ++ ["coordinated rotation failed"] }
        rebootstrapFired := true
        scheduleToken := s.scheduleToken + 1
        pollTimer := false
        stream := none
        mode := .reconnecting } := by
    simp [rebootstrap, hStopped, hFired]
  rw [hAsked] at hQuiet
  rw [finishRotation, hAsked]
  exact ⟨hQuiet.generation, hQuiet.cursor, hQuiet.persisted, hQuiet.fired⟩

theorem follows (toNumber : JsString → Option Nat) (s : SyncEngineProcess)
    (outcome : Except RevokerError Unit) : s.Follows toNumber outcome := by
  intro enqueued rest lsn applied t hChain hStopped hFired hCheck hExec
  rw [Transition.exec] at hExec
  obtain ⟨middle, hApply, hRotated⟩ := Option.bind_eq_some_iff.mp hExec
  have hMiddle : middle = { ({ s with chain := rest } : SyncEngineProcess).attempt lsn .rotateOnDemand with
      rotating := some ⟨lsn, s.generation + 1, enqueued.polled⟩ } := by
    simp only [step, hChain] at hApply
    split at hApply
    · rename_i hQueue
      cases hQueue
      cases hApply
      exact applyEvent_rotate (s := { s with chain := rest }) hStopped hFired hCheck
    · cases hApply
  subst hMiddle
  simp only [Transition.exec, step, Option.map_some, Option.bind_some, Option.some.injEq] at hRotated
  subst hRotated
  rcases outcome with error | _
  · rw [if_neg (by simp)]
    exact finishRotation_error (s := { ({ s with chain := rest } : SyncEngineProcess).attempt lsn
      .rotateOnDemand with rotating := some ⟨lsn, s.generation + 1, enqueued.polled⟩ })
      ⟨lsn, s.generation + 1, enqueued.polled⟩ error.message (.ok ()) hStopped hFired
  · rw [if_pos rfl]
    exact finishRotation_ok _ _

/-- A coordinated rotation is all or nothing exactly if the manager is shutting down or one of
its three allocations succeeds; the engine takes its word for it in any case. The files are no
part of this: a backup that fails does not stop the rotation of the filters. -/
theorem rotateOnDemand_iff (toNumber : JsString → Option Nat) (s : SyncEngineProcess) (manager : Manager g)
    (attempts : Fin RotationTimer.maxRetries → RotateOutcomes) :
    manager.AllOrNothing (manager.rotateOnDemand attempts) ∧
        s.Follows toNumber (manager.rotateOnDemand attempts).2 ↔
      manager.shuttingDown = true ∨ ∃ i, (attempts i).create = .ok () := by
  rw [and_iff_left (follows toNumber s _), Manager.rotateOnDemand_allOrNothing_iff]

/-- Every allocation fails: the call resolves, and the previous filter is gone. -/
theorem not_allOrNothing_failed_allocations :
    let manager : Manager .oneBucket :=
      { numItems := 1
        previous := some ((SizedFilter.create .oneBucket).add [97])
        current := some ((SizedFilter.create .oneBucket).add [98])
        currentInsertions := 1 }
    let after := manager.rotateOnDemand fun _ => ⟨.ok (), .error "Array buffer allocation failed"⟩
    ¬ manager.AllOrNothing after ∧ after.2 = .ok () ∧ after.1.previous = manager.current ∧
      after.1.current = manager.current := by
  refine ⟨fun h => ?_, rfl, rfl, rfl⟩
  rcases (Manager.rotateOnDemand_allOrNothing_iff _ _).mp h with hShut | ⟨i, hCreate⟩
  · cases hShut
  · cases hCreate

end SyncEngineProcess

end TokenRevoker
