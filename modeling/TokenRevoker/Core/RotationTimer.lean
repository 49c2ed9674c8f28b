import Mathlib.Data.List.Perm.Basic
import TokenRevoker.Library.Transition

/-! The interval timer of the rotations. `rotateOnDemand` clears it before an await and
creates a new one after it, whatever was done to it in between by another such call, by a
reset or by `destroy`. -/
namespace TokenRevoker

open Transition

/-- Who called `#rotateWithRetry`. -/
inductive RotationCaller where
  | timer
  | onDemand
  deriving DecidableEq

/-- Where a call of `#rotateWithRetry` is suspended, and in which attempt: on the mutex, in
`#rotate` with the mutex, in the delay before the next attempt, or about to return. -/
inductive RotationPhase where
  | acquiring (attempt : Nat)
  | rotating (attempt : Nat)
  | sleeping (attempt : Nat)
  | returning
  deriving DecidableEq

structure PendingRotation where
  caller : RotationCaller
  phase : RotationPhase
  deriving DecidableEq

namespace PendingRotation

def isOnDemand (rotation : PendingRotation) : Bool := rotation.caller = .onDemand

/-- It holds the mutex. -/
def holds (rotation : PendingRotation) : Bool :=
  match rotation.phase with
  | .rotating _ => true
  | _ => false

end PendingRotation

/-- A manager as far as its rotation timer goes. Its filters and files are left out: what
matters is who starts an interval and who clears it. -/
structure RotationTimer where
  rotationInterval : Option Nat
  /-- The intervals that were created and not cleared. -/
  active : List Nat
  created : Nat
  rotations : List PendingRotation := []
  /-- Calls of `resetAndRestore` that wait for the mutex. -/
  resetting : Nat := 0
  /-- Calls of `shutdown` that wait for the mutex. -/
  shuttingDownCalls : Nat := 0
  /-- Calls of `shutdown` that flush the write buffer. -/
  flushing : Nat := 0
  shuttingDown : Bool := false
  destroyed : Bool := false
  deriving DecidableEq

namespace RotationTimer

/-- `maxRetries`. -/
def maxRetries : Nat := 3

inductive Action where
  | tick (interval : Nat)
  | rotateOnDemand
  | resetAndRestore
  | resetAndClearData (deleted : Bool)
  | shutdown
  | destroy
  | acquire (index : Nat)
  | rotated (index : Nat) (succeeded : Bool)
  | wake (index : Nat)
  | returned (index : Nat)
  | reset
  | shutdownAcquired
  | flushed (succeeded : Bool)
  deriving DecidableEq

/-- A manager after its constructor. -/
def init : RotationTimer where
  rotationInterval := some 0
  active := [0]
  created := 1

/-- `#startRotationInterval`: the field is overwritten. The timer behind its old value, if there
is one, goes on. -/
def startRotationInterval (s : RotationTimer) : RotationTimer :=
  { s with rotationInterval := some s.created, active := s.active ++ [s.created], created := s.created + 1 }

/-- `#stopRotationInterval`. -/
def stopRotationInterval (s : RotationTimer) : RotationTimer :=
  match s.rotationInterval with
  | some interval => { s with rotationInterval := none, active := s.active.erase interval }
  | none => s

/-- The mutex of the manager is free. -/
def free (s : RotationTimer) : Bool := !s.rotations.any PendingRotation.holds

/-- `#rotateWithRetry` up to its first await. -/
def rotateWithRetry (s : RotationTimer) (caller : RotationCaller) : RotationTimer :=
  { s with rotations := s.rotations ++ [⟨caller, .acquiring 0⟩] }

/-- `destroy`. -/
def teardown (s : RotationTimer) : RotationTimer :=
  { s.stopRotationInterval with shuttingDown := true, destroyed := true }

/-- `#rotateWithRetry` returns: to nobody, or to `rotateOnDemand`. -/
def settle (s : RotationTimer) (index : Nat) (caller : RotationCaller) : RotationTimer :=
  match caller with
  | .timer => { s with rotations := s.rotations.eraseIdx index }
  | .onDemand => { s with rotations := s.rotations.set index ⟨.onDemand, .returning⟩ }

/-- One synchronous stretch of the manager, `none` where it cannot run now. -/
def step (s : RotationTimer) : Action → Option RotationTimer
  | .tick interval => if interval ∈ s.active then some (s.rotateWithRetry .timer) else none
  | .rotateOnDemand =>
      if s.shuttingDown then some s else some (s.stopRotationInterval.rotateWithRetry .onDemand)
  | .resetAndRestore => some { s with resetting := s.resetting + 1 }
  | .resetAndClearData deleted =>
      -- a file that cannot be deleted ends the call
      if deleted then some { s with resetting := s.resetting + 1 } else some s
  | .shutdown => some { s with shuttingDown := true, shuttingDownCalls := s.shuttingDownCalls + 1 }
  | .destroy => some s.teardown
  | .acquire index =>
      match s.rotations[index]? with
      | some ⟨caller, .acquiring attempt⟩ =>
          if s.free then some { s with rotations := s.rotations.set index ⟨caller, .rotating attempt⟩ }
          else none
      | _ => none
  | .rotated index succeeded =>
      match s.rotations[index]? with
      | some ⟨caller, .rotating attempt⟩ =>
          if succeeded = false ∧ attempt + 1 < maxRetries then
            some { s with rotations := s.rotations.set index ⟨caller, .sleeping (attempt + 1)⟩ }
          else some (s.settle index caller)
      | _ => none
  | .wake index =>
      match s.rotations[index]? with
      | some ⟨caller, .sleeping attempt⟩ =>
          some { s with rotations := s.rotations.set index ⟨caller, .acquiring attempt⟩ }
      | _ => none
  | .returned index =>
      match s.rotations[index]? with
      | some ⟨.onDemand, .returning⟩ =>
          some { s with rotations := s.rotations.eraseIdx index }.startRotationInterval
      | _ => none
  | .reset =>
      if 0 < s.resetting && s.free then
        some { s with resetting := s.resetting - 1 }.stopRotationInterval.startRotationInterval
      else none
  | .shutdownAcquired =>
      if 0 < s.shuttingDownCalls && s.free then
        some { s with shuttingDownCalls := s.shuttingDownCalls - 1, flushing := s.flushing + 1 }
      else none
  | .flushed succeeded =>
      if 0 < s.flushing then
        let flushed : RotationTimer := { s with flushing := s.flushing - 1 }
        if succeeded then some flushed.teardown else some flushed
      else none

/-- At most one interval is active, the stored one, and none once `destroy` has returned. A
second one cannot be cleared any more, since nothing refers to it. -/
structure OneTimer (s : RotationTimer) : Prop where
  single : s.active.length ≤ 1
  stored : ∀ interval ∈ s.active, s.rotationInterval = some interval
  destroyed : s.destroyed = true → s.active = []

/-- Calls of `rotateOnDemand` that have not returned. -/
def pending (s : RotationTimer) : Nat := s.rotations.countP PendingRotation.isOnDemand

/-- Nothing touches the timer while a `rotateOnDemand` is pending, and no reset gets to run
after `destroy`. -/
def Exclusive (s : RotationTimer) : Action → Prop
  | .rotateOnDemand => s.shuttingDown = true ∨ s.pending = 0
  | .reset => s.pending = 0 ∧ s.destroyed = false
  | .destroy => s.pending = 0
  | .flushed succeeded => succeeded = true → s.pending = 0
  | _ => True

instance (s : RotationTimer) : (a : Action) → Decidable (s.Exclusive a)
  | .rotateOnDemand => inferInstanceAs (Decidable (_ ∨ _))
  | .reset => inferInstanceAs (Decidable (_ ∧ _))
  | .destroy => inferInstanceAs (Decidable (_ = _))
  | .flushed _ => inferInstanceAs (Decidable (_ → _))
  | .tick _ | .resetAndRestore | .resetAndClearData _ | .shutdown | .acquire _ | .rotated _ _ | .wake _
  | .returned _ | .shutdownAcquired => inferInstanceAs (Decidable True)

/-- What holds if the calls keep out of each other's way: while one of them is pending there
is no timer, otherwise there is the stored one. -/
structure Timed (s : RotationTimer) : Prop where
  active : s.active = s.rotationInterval.toList
  pending : s.pending ≤ 1
  cleared : 0 < s.pending → s.rotationInterval = none ∧ s.destroyed = false
  destroyed : s.destroyed = true → s.rotationInterval = none ∧ s.shuttingDown = true

variable {s t : RotationTimer} {a : Action}

theorem Timed.oneTimer (h : s.Timed) : s.OneTimer where
  single := by
    rw [h.active]
    cases s.rotationInterval <;> simp
  stored := by
    intro interval hActive
    rw [h.active] at hActive
    exact Option.mem_toList.mp hActive
  destroyed := by
    intro hDestroyed
    rw [h.active, (h.destroyed hDestroyed).1]
    rfl

theorem timed_init : init.Timed where
  active := rfl
  pending := by decide
  cleared := by
    intro hPending
    cases hPending
  destroyed := by
    intro hDestroyed
    cases hDestroyed

theorem Timed.stop (h : s.Timed) :
    s.stopRotationInterval = { s with rotationInterval := none, active := [] } := by
  obtain ⟨rotationInterval, active, _, _, _, _, _, _, _⟩ := s
  cases rotationInterval with
  | none =>
      have hActive : active = [] := h.active
      rw [stopRotationInterval, hActive]
  | some interval =>
      have hActive : active = [interval] := h.active
      simp [stopRotationInterval, hActive]

/-- A call that moves on without returning is still pending. -/
theorem countP_set_same {rotations : List PendingRotation} {index : Nat} {caller : RotationCaller}
    {phase : RotationPhase} (h : rotations[index]? = some ⟨caller, phase⟩) (later : RotationPhase) :
    (rotations.set index ⟨caller, later⟩).countP PendingRotation.isOnDemand =
      rotations.countP PendingRotation.isOnDemand := by
  obtain ⟨hLt, hAt⟩ := List.getElem?_eq_some_iff.mp h
  rw [List.countP_set hLt, hAt]
  cases caller with
  | timer => rfl
  | onDemand =>
      have hPos : 0 < rotations.countP PendingRotation.isOnDemand :=
        List.countP_pos_iff.mpr ⟨_, List.getElem_mem hLt, by rw [hAt]; rfl⟩
      exact Nat.sub_add_cancel hPos

/-- A call that returns is no longer pending. -/
theorem countP_eraseIdx {rotations : List PendingRotation} {index : Nat} {rotation : PendingRotation}
    (h : rotations[index]? = some rotation) :
    rotations.countP PendingRotation.isOnDemand =
      (rotations.eraseIdx index).countP PendingRotation.isOnDemand +
        if rotation.isOnDemand then 1 else 0 := by
  obtain ⟨hLt, rfl⟩ := List.getElem?_eq_some_iff.mp h
  rw [← (List.getElem_cons_eraseIdx_perm hLt).countP_eq, List.countP_cons]

@[simp] theorem pending_stop (s : RotationTimer) : s.stopRotationInterval.pending = s.pending := by
  unfold stopRotationInterval
  split <;> rfl

/-- A rotation of the timer is not pending in the sense of a call. -/
theorem pending_tick (s : RotationTimer) : (s.rotateWithRetry .timer).pending = s.pending := by
  simp [rotateWithRetry, RotationTimer.pending, PendingRotation.isOnDemand]

theorem pending_onDemand (s : RotationTimer) :
    (s.stopRotationInterval.rotateWithRetry .onDemand).pending = s.pending + 1 := by
  rw [← pending_stop s]
  simp [rotateWithRetry, RotationTimer.pending, PendingRotation.isOnDemand]

/-- The timer, the teardown and the calls that are pending are as they were. Steps that keep
these cannot make a second timer. -/
structure Kept (s t : RotationTimer) : Prop where
  rotationInterval : t.rotationInterval = s.rotationInterval
  active : t.active = s.active
  pending : t.pending = s.pending
  destroyed : t.destroyed = s.destroyed
  shuttingDown : s.shuttingDown = true → t.shuttingDown = true

/-- What a step does to the timer. -/
inductive Touches (s : RotationTimer) : Action → RotationTimer → Prop where
  | kept {a : Action} {t : RotationTimer} (hExclusive : s.Exclusive a) (hKept : s.Kept t) : Touches s a t
  | cleared (hLive : s.shuttingDown = false) :
      Touches s .rotateOnDemand (s.stopRotationInterval.rotateWithRetry .onDemand)
  | created (index : Nat)
      (hCount : s.pending = RotationTimer.pending { s with rotations := s.rotations.eraseIdx index } + 1) :
      Touches s (.returned index) { s with rotations := s.rotations.eraseIdx index }.startRotationInterval
  | replaced :
      Touches s .reset { s with resetting := s.resetting - 1 }.stopRotationInterval.startRotationInterval
  | destroyed : Touches s .destroy s.teardown
  | flushed : Touches s (.flushed true) { s with flushing := s.flushing - 1 }.teardown

theorem kept_set {index : Nat} {caller : RotationCaller} {phase : RotationPhase}
    (hAt : s.rotations[index]? = some ⟨caller, phase⟩) (later : RotationPhase) :
    s.Kept { s with rotations := s.rotations.set index ⟨caller, later⟩ } :=
  ⟨rfl, rfl, countP_set_same hAt later, rfl, id⟩

theorem kept_settle {index : Nat} {caller : RotationCaller} {phase : RotationPhase}
    (hAt : s.rotations[index]? = some ⟨caller, phase⟩) : s.Kept (s.settle index caller) := by
  cases caller with
  | timer => exact ⟨rfl, rfl, (countP_eraseIdx hAt).symm, rfl, id⟩
  | onDemand => exact kept_set hAt .returning

theorem touches_of_step (hStep : s.step a = some t) : s.Touches a t := by
  cases a with
  | tick interval =>
      simp only [RotationTimer.step] at hStep
      split_ifs at hStep
      cases hStep
      exact .kept trivial ⟨rfl, rfl, s.pending_tick, rfl, id⟩
  | rotateOnDemand =>
      simp only [RotationTimer.step] at hStep
      split_ifs at hStep with hShuttingDown <;> cases hStep
      · exact .kept (Or.inl hShuttingDown) ⟨rfl, rfl, rfl, rfl, id⟩
      · exact .cleared (by simpa using hShuttingDown)
  | resetAndRestore =>
      cases hStep
      exact .kept trivial ⟨rfl, rfl, rfl, rfl, id⟩
  | resetAndClearData deleted =>
      simp only [RotationTimer.step] at hStep
      split_ifs at hStep <;> cases hStep <;> exact .kept trivial ⟨rfl, rfl, rfl, rfl, id⟩
  | shutdown =>
      cases hStep
      exact .kept trivial ⟨rfl, rfl, rfl, rfl, fun _ => rfl⟩
  | destroy =>
      cases hStep
      exact .destroyed
  | acquire index =>
      simp only [RotationTimer.step] at hStep
      split at hStep
      · rename_i caller attempt hAt
        split_ifs at hStep
        cases hStep
        exact .kept trivial (kept_set hAt _)
      · cases hStep
  | rotated index succeeded =>
      simp only [RotationTimer.step] at hStep
      split at hStep
      · rename_i caller attempt hAt
        split_ifs at hStep <;> cases hStep
        · exact .kept trivial (kept_set hAt _)
        · exact .kept trivial (kept_settle hAt)
      · cases hStep
  | wake index =>
      simp only [RotationTimer.step] at hStep
      split at hStep
      · rename_i caller attempt hAt
        cases hStep
        exact .kept trivial (kept_set hAt _)
      · cases hStep
  | returned index =>
      simp only [RotationTimer.step] at hStep
      split at hStep
      · rename_i hAt
        cases hStep
        exact .created index (countP_eraseIdx hAt)
      · cases hStep
  | reset =>
      simp only [RotationTimer.step] at hStep
      split_ifs at hStep
      cases hStep
      exact .replaced
  | shutdownAcquired =>
      simp only [RotationTimer.step] at hStep
      split_ifs at hStep
      cases hStep
      exact .kept trivial ⟨rfl, rfl, rfl, rfl, id⟩
  | flushed succeeded =>
      simp only [RotationTimer.step] at hStep
      split_ifs at hStep with hWaits hSucceeded <;> cases hStep
      · cases hSucceeded
        exact .flushed
      · exact .kept (fun h => absurd h hSucceeded) ⟨rfl, rfl, rfl, rfl, id⟩

theorem Timed.frame (h : s.Timed) (hKept : s.Kept t) : t.Timed where
  active := by rw [hKept.active, hKept.rotationInterval, h.active]
  pending := by
    rw [hKept.pending]
    exact h.pending
  cleared := by
    rw [hKept.pending, hKept.rotationInterval, hKept.destroyed]
    exact h.cleared
  destroyed := by
    rw [hKept.rotationInterval, hKept.destroyed]
    exact fun hGone => (h.destroyed hGone).imp id hKept.shuttingDown

/-- No call is pending and nothing is active but a stored interval. -/
theorem timed_of_pending_eq_zero (hPending : s.pending = 0) (hActive : s.active = s.rotationInterval.toList)
    (hDestroyed : s.destroyed = true → s.rotationInterval = none ∧ s.shuttingDown = true) : s.Timed where
  active := hActive
  pending := by
    rw [hPending]
    exact Nat.zero_le 1
  cleared := by
    rw [hPending]
    intro hSome
    cases hSome
  destroyed := hDestroyed

theorem Timed.teardown (h : s.Timed) (hPending : s.pending = 0) : s.teardown.Timed := by
  rw [RotationTimer.teardown, h.stop]
  exact timed_of_pending_eq_zero hPending rfl fun _ => ⟨rfl, rfl⟩

theorem Timed.step (h : s.Timed) (hStep : s.step a = some t) (hExclusive : s.Exclusive a) : t.Timed := by
  cases touches_of_step hStep with
  | kept _ hKept => exact h.frame hKept
  | cleared hShuttingDown =>
      have hNone : s.pending = 0 := hExclusive.resolve_left (by simp [hShuttingDown])
      have hLive : s.destroyed = false := by
        by_contra hDestroyed
        have hDown := (h.destroyed (by simpa using hDestroyed)).2
        rw [hShuttingDown] at hDown
        cases hDown
      have hOne : (s.stopRotationInterval.rotateWithRetry .onDemand).pending = 1 := by
        rw [pending_onDemand, hNone]
      rw [h.stop] at hOne ⊢
      exact ⟨rfl, Nat.le_of_eq hOne, fun _ => ⟨rfl, hLive⟩, fun hDestroyed =>
        absurd (hLive.symm.trans hDestroyed) (by simp)⟩
  | created index hCount =>
      obtain ⟨hNone, hLive⟩ := h.cleared (by omega)
      have hLast := h.pending
      refine timed_of_pending_eq_zero
        (show RotationTimer.pending { s with rotations := s.rotations.eraseIdx index } = 0 by omega) ?_ ?_
      · simp [startRotationInterval, h.active, hNone]
      · exact fun hDestroyed => absurd (hLive.symm.trans hDestroyed) (by simp)
  | replaced =>
      obtain ⟨hNone, hLive⟩ := hExclusive
      have hResetting : Timed { s with resetting := s.resetting - 1 } := h.frame ⟨rfl, rfl, rfl, rfl, id⟩
      rw [hResetting.stop]
      exact timed_of_pending_eq_zero hNone rfl fun hDestroyed =>
        absurd (hLive.symm.trans hDestroyed) (by simp)
  | destroyed => exact h.teardown hExclusive
  | flushed =>
      have hFlushed : Timed { s with flushing := s.flushing - 1 } := h.frame ⟨rfl, rfl, rfl, rfl, id⟩
      exact hFlushed.teardown (hExclusive rfl)

/-- A second timer is running or will be, or there will be one after `destroy`. It may be too
early to see it: a pending call will show it by its return. -/
def Doomed (s : RotationTimer) : Prop :=
  s.destroyed = false ∧ 2 ≤ s.pending + s.active.length ∨ s.destroyed = true ∧ 1 ≤ s.pending

@[simp] theorem destroyed_stop (s : RotationTimer) : s.stopRotationInterval.destroyed = s.destroyed := by
  unfold stopRotationInterval
  split <;> rfl

/-- Stopping clears one interval at most. -/
theorem length_le_stop (s : RotationTimer) : s.active.length ≤ s.stopRotationInterval.active.length + 1 := by
  unfold stopRotationInterval
  split
  · rename_i interval _
    have hLength : s.active.length - 1 ≤ (s.active.erase interval).length := List.le_length_erase
    show s.active.length ≤ (s.active.erase interval).length + 1
    omega
  · exact Nat.le_succ _

theorem Doomed.frame (h : s.Doomed) (hKept : s.Kept t) : t.Doomed := by
  rwa [Doomed, hKept.active, hKept.pending, hKept.destroyed]

/-- A manager that is torn down under a pending call will be given a timer by it. -/
theorem doomed_teardown (hPending : 1 ≤ s.pending) : s.teardown.Doomed := by
  refine Or.inr ⟨rfl, ?_⟩
  rw [show s.teardown.pending = s.stopRotationInterval.pending from rfl, pending_stop]
  exact hPending

/-- With a single timer there is a pending call in it. -/
theorem Doomed.pending_pos (h : s.Doomed) (hOne : s.OneTimer) : 1 ≤ s.pending := by
  have hSingle := hOne.single
  rcases h with ⟨-, hTwo⟩ | ⟨-, hSome⟩
  · omega
  · exact hSome

/-- A manager with a new interval was not torn down, if it is as it should be. -/
theorem OneTimer.live (h : s.startRotationInterval.OneTimer) : s.destroyed = false := by
  by_contra hDestroyed
  have hNone := h.destroyed (by simpa [startRotationInterval] using hDestroyed)
  simp [startRotationInterval] at hNone

/-- A new interval next to a pending call, or to another interval. -/
theorem doomed_start (hOne : s.startRotationInterval.OneTimer) (h : 1 ≤ s.pending + s.active.length) :
    s.startRotationInterval.Doomed := by
  have hLive := OneTimer.live hOne
  refine Or.inl ⟨hLive, ?_⟩
  show 2 ≤ s.pending + (s.active ++ [s.created]).length
  rw [List.length_append, List.length_singleton]
  omega

theorem doomed_reset (hPending : 1 ≤ s.pending)
    (hOne : { s with resetting := s.resetting - 1 }.stopRotationInterval.startRotationInterval.OneTimer) :
    { s with resetting := s.resetting - 1 }.stopRotationInterval.startRotationInterval.Doomed := by
  refine doomed_start hOne ?_
  rw [pending_stop]
  exact Nat.le_add_right_of_le hPending

theorem Doomed.step (h : s.Doomed) (hStep : s.step a = some t) (hOne : s.OneTimer) (hNext : t.OneTimer) :
    t.Doomed := by
  have hPending := h.pending_pos hOne
  cases touches_of_step hStep with
  | kept _ hKept => exact h.frame hKept
  | cleared =>
      have hActive := length_le_stop s
      have hSame : (s.stopRotationInterval.rotateWithRetry .onDemand).destroyed = s.destroyed :=
        destroyed_stop s
      rw [Doomed, pending_onDemand, hSame]
      refine h.imp (fun hLive => ⟨hLive.1, ?_⟩) fun hGone => ⟨hGone.1, Nat.succ_pos _⟩
      show 2 ≤ s.pending + 1 + s.stopRotationInterval.active.length
      have := hLive.2
      omega
  | created index hCount =>
      refine doomed_start hNext ?_
      rcases h with ⟨-, hTwo⟩ | ⟨hGone, -⟩
      · show 1 ≤ RotationTimer.pending { s with rotations := s.rotations.eraseIdx index } + s.active.length
        omega
      · have hLive := OneTimer.live hNext
        rw [show s.destroyed = false from hLive] at hGone
        cases hGone
  | replaced => exact doomed_reset hPending hNext
  | destroyed => exact doomed_teardown hPending
  | flushed => exact doomed_teardown hPending

theorem doomed_of_not_exclusive (hStep : s.step a = some t) (hNext : t.OneTimer) (h : ¬ s.Exclusive a) :
    t.Doomed := by
  cases touches_of_step hStep with
  | kept hExclusive => exact absurd hExclusive h
  | cleared =>
      simp only [Exclusive, not_or] at h
      rw [Doomed, pending_onDemand]
      cases (s.stopRotationInterval.rotateWithRetry .onDemand).destroyed with
      | false => exact Or.inl ⟨rfl, by omega⟩
      | true => exact Or.inr ⟨rfl, Nat.succ_pos _⟩
  | created => exact absurd trivial h
  | replaced =>
      have hLive := OneTimer.live hNext
      rw [destroyed_stop] at hLive
      have hSome : 1 ≤ s.pending := by
        by_contra hNone
        exact h ⟨by omega, hLive⟩
      exact doomed_reset hSome hNext
  | destroyed => exact doomed_teardown (Nat.one_le_iff_ne_zero.mpr h)
  | flushed =>
      have hSome : s.pending ≠ 0 := fun hNone => h fun _ => hNone
      exact doomed_teardown (Nat.one_le_iff_ne_zero.mpr hSome)

/-- A step after which there is one timer at most. It looks at the state behind the step only.
-/
def KeepsOne (s : RotationTimer) (a : Action) (t : RotationTimer) : Prop := ofStep step s a t ∧ t.OneTimer

/-- What has gone wrong once shows when every call has returned. -/
theorem exclusive_of_keepsOne {actions : List Action} (run : Run KeepsOne init actions s) :
    s.OneTimer ∧ (Run (restrict (ofStep step) Exclusive) init actions s ∨ s.Doomed) := by
  induction run with
  | nil => exact ⟨timed_init.oneTimer, Or.inl (Run.nil _)⟩
  | @snoc middle final actions a prior last ih =>
      obtain ⟨hStep, hNext⟩ := last
      obtain ⟨hOne, hExclusive | hDoomed⟩ := ih
      · by_cases hAllowed : middle.Exclusive a
        · exact ⟨hNext, Or.inl (hExclusive.snoc ⟨hStep, hAllowed⟩)⟩
        · exact ⟨hNext, Or.inr (doomed_of_not_exclusive hStep hNext hAllowed)⟩
      · exact ⟨hNext, Or.inr (hDoomed.step hStep hOne hNext)⟩

theorem keepsOne_of_exclusive {actions : List Action}
    (run : Run (restrict (ofStep step) Exclusive) init actions s) : Run KeepsOne init actions s ∧
      s.Timed := by
  induction run with
  | nil => exact ⟨Run.nil _, timed_init⟩
  | snoc prior last ih =>
      obtain ⟨hKeeps, hTimed⟩ := ih
      have hNext := hTimed.step last.1 last.2
      exact ⟨hKeeps.snoc ⟨last.1, hNext.oneTimer⟩, hNext⟩

/-- In every run in which nothing touches the timer while a `rotateOnDemand` is pending there is
one timer at most, the stored one, and none after `destroy`; and a run in which every such call
has returned is as it should be in every state only if it is one of these. At which time the
timer fires does not matter here. -/
theorem oneTimer_of_exclusive {actions : List Action} {s : RotationTimer} :
    (Run (restrict (ofStep step) Exclusive) init actions s → Run KeepsOne init actions s ∧ s.OneTimer) ∧
      (s.pending = 0 → Run KeepsOne init actions s → Run (restrict (ofStep step) Exclusive) init actions s) := by
  constructor
  · intro run
    obtain ⟨hKeeps, hTimed⟩ := keepsOne_of_exclusive run
    exact ⟨hKeeps, hTimed.oneTimer⟩
  · intro hSettled run
    obtain ⟨hOne, hExclusive | hDoomed⟩ := exclusive_of_keepsOne run
    · exact hExclusive
    · have hPending := hDoomed.pending_pos hOne
      omega

/-- A timer rotation that fails once, a `rotateOnDemand` during its retry delay, a reset and
a shutdown, one after the other. -/
theorem oneTimer_of_exclusive_shutdown :
    ∃ s : RotationTimer, s.created = 3 ∧ s.destroyed = true ∧ s.OneTimer := by
  have hEnd : (exec (guarded (fun s a => decide (s.Exclusive a)) step) init [.tick 0, .acquire 0,
      .rotated 0 false, .rotateOnDemand, .acquire 1, .rotated 1 true, .returned 1, .wake 0, .resetAndRestore,
      .acquire 0, .rotated 0 true, .reset, .shutdown, .shutdownAcquired, .flushed true]).map
        (fun s => (s.created, s.destroyed)) = some (3, true) := by decide +kernel
  obtain ⟨s, hRun, hEq⟩ := Option.map_eq_some_iff.mp hEnd
  obtain ⟨hCreated, hDestroyed⟩ := Prod.mk.inj hEq
  exact ⟨s, hCreated, hDestroyed,
    (oneTimer_of_exclusive.1 ((run_of_exec hRun).of_guarded fun _ _ h => of_decide_eq_true h)).2⟩

/-- Without it: two concurrent calls leave two intervals; and a call whose rotation is over
when `shutdown` gets the mutex creates one after `destroy`. -/
theorem not_oneTimer :
    (¬ ∀ (actions : List Action) (s : RotationTimer), Run (ofStep step) init actions s → s.active.length ≤ 1) ∧
      ¬ ∀ (actions : List Action) (s : RotationTimer), Run (ofStep step) init actions s →
        s.destroyed = true → s.active = [] := by
  constructor
  · intro h
    obtain ⟨s, hRun, hActive⟩ : ∃ s, exec step init [.rotateOnDemand, .rotateOnDemand, .acquire 0,
        .rotated 0 true, .acquire 1, .returned 0, .rotated 0 true, .returned 0] = some s ∧
        s.active = [1, 2] := ⟨_, rfl, rfl⟩
    have hSingle := h _ s (run_of_exec hRun)
    rw [hActive] at hSingle
    exact absurd hSingle (by decide)
  · intro h
    obtain ⟨s, hRun, hDestroyed, hActive⟩ : ∃ s, exec step init [.rotateOnDemand, .acquire 0, .shutdown,
        .rotated 0 true, .shutdownAcquired, .flushed true, .returned 0] = some s ∧ s.destroyed = true ∧
        s.active = [1] := ⟨_, rfl, rfl, rfl⟩
    have hNone := h _ s (run_of_exec hRun) hDestroyed
    rw [hActive] at hNone
    cases hNone

end RotationTimer

end TokenRevoker
