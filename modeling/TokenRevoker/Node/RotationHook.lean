import TokenRevoker.Core.RotationTimer

/-! The rotation hook of a node's core. The engine marks its own rotation with a flag that
stands for the whole of `rotateOnDemand`, waiting and retries included; the hook takes every
rotation it hears of meanwhile for the engine's. -/
namespace TokenRevoker

open Transition

/-- Where a call of `#rotateWithRetry` is suspended. The numbers count the attempts that have
failed. -/
inductive HookPhase where
  | acquiring (attempt : Nat)
  | rotating (attempt : Nat)
  | sleeping (attempt : Nat)
  /-- `#rotate` has returned, and the hook is next. -/
  | notifying
  /-- It has returned to `rotateOnDemand`. -/
  | returning
  /-- `rotateOnDemand` has returned to the engine. -/
  | returned
  deriving DecidableEq

namespace HookPhase

/-- It holds the mutex. Waiting callers and sleeping ones do not. -/
def holds : HookPhase → Bool
  | .rotating _ => true
  | _ => false

/-- What comes next runs before any timer fires. These are continuations of promises that have
settled already. -/
def isDue : HookPhase → Bool
  | .notifying | .returning | .returned => true
  | .acquiring _ | .rotating _ | .sleeping _ => false

end HookPhase

/-- The rotations of a node's core, the flag of its engine and what the hook leaves. What the
filters hold is left out: the hook does not look at it. -/
structure HookedCore where
  rotationInterval : Bool := true
  /-- Rotations that the timer started. -/
  selfRotations : List HookPhase := []
  /-- The call of `rotateOnDemand` that the engine awaits. -/
  onDemand : Option HookPhase := none
  inCoordinatedRotation : Bool := false
  /-- Rotations of the engine that have swapped the filters. -/
  completed : Nat := 0
  /-- Callbacks that were taken for the engine's. -/
  externallyDriven : Nat := 0
  shuttingDown : Bool := false
  dirty : Bool := false
  rebootstrapPending : Bool := false
  bootstrapping : Bool := false
  deriving DecidableEq

namespace HookedCore

/-- One of the timer's rotations by its place, or the engine's. -/
abbrev Caller := Option Nat

inductive Action where
  | tick
  | rotateOnDemand
  | acquire (caller : Caller)
  | rotated (caller : Caller) (succeeded : Bool)
  | wake (caller : Caller)
  | notify (caller : Caller)
  | restartInterval
  | resumeEngine
  | shutdown
  | bootstrapBegins
  | bootstrapEnds (succeeded : Bool)
  deriving DecidableEq

def init : HookedCore := {}

def get (s : HookedCore) : Caller → Option HookPhase
  | none => s.onDemand
  | some index => s.selfRotations[index]?

def set (s : HookedCore) (phase : HookPhase) : Caller → HookedCore
  | none => { s with onDemand := some phase }
  | some index => { s with selfRotations := s.selfRotations.set index phase }

/-- `#rotateWithRetry` returns: to `rotateOnDemand`, or to nobody. That happens with the hook,
or without it once the last attempt has failed. -/
def settle (s : HookedCore) : Caller → HookedCore
  | none => { s with onDemand := some .returning }
  | some index => { s with selfRotations := s.selfRotations.eraseIdx index }

/-- The mutex of the manager is free. Who gets it next is not said: any caller that waits may.
-/
def free (s : HookedCore) : Bool := !(s.onDemand.toList ++ s.selfRotations).any HookPhase.holds

def isDue (s : HookedCore) : Bool := (s.onDemand.toList ++ s.selfRotations).any HookPhase.isDue

/-- `#scheduleRebootstrap`. -/
def scheduleRebootstrap (s : HookedCore) : HookedCore :=
  if s.shuttingDown || s.rebootstrapPending || s.bootstrapping then s
  else { s with rebootstrapPending := true }

/-- `#onCoreRotation`. It cannot tell whose rotation it hears of: it looks at the flag alone. -/
def onCoreRotation (s : HookedCore) : HookedCore :=
  if s.shuttingDown then s
  else if s.inCoordinatedRotation then { s with externallyDriven := s.externallyDriven + 1 }
  else { s with dirty := true }.scheduleRebootstrap

/-- One synchronous stretch of the node, `none` where it cannot run now. -/
def step (s : HookedCore) : Action → Option HookedCore
  | .tick =>
      if s.rotationInterval && !s.isDue then
        some { s with selfRotations := s.selfRotations ++ [.acquiring 0] }
      else none
  | .rotateOnDemand =>
      -- the engine applies one event after the other
      if s.onDemand.isSome then none
      else some { s with
        rotationInterval := false
        onDemand := some (.acquiring 0)
        inCoordinatedRotation := true }
  | .acquire caller =>
      match s.get caller with
      | some (.acquiring attempt) => if s.free then some (s.set (.rotating attempt) caller) else none
      | _ => none
  | .rotated caller succeeded =>
      match s.get caller with
      | some (.rotating attempt) =>
          if succeeded then
            some { s.set .notifying caller with
              completed := if caller = none then s.completed + 1 else s.completed }
          else if attempt + 1 < RotationTimer.maxRetries then some (s.set (.sleeping (attempt + 1)) caller)
          else some (s.settle caller)
      | _ => none
  | .wake caller =>
      match s.get caller with
      | some (.sleeping attempt) => some (s.set (.acquiring attempt) caller)
      | _ => none
  | .notify caller =>
      match s.get caller with
      | some .notifying => some (s.settle caller).onCoreRotation
      | _ => none
  | .restartInterval =>
      if s.onDemand = some .returning then
        some { s with onDemand := some .returned, rotationInterval := true }
      else none
  | .resumeEngine =>
      if s.onDemand = some .returned then
        some { s with onDemand := none, inCoordinatedRotation := false }
      else none
  | .shutdown => some { s with shuttingDown := true }
  | .bootstrapBegins => if s.rebootstrapPending then some { s with bootstrapping := true } else none
  | .bootstrapEnds succeeded =>
      if s.bootstrapping then
        let ended : HookedCore := { s with rebootstrapPending := false, bootstrapping := false }
        if succeeded then some { ended with dirty := false } else some ended.scheduleRebootstrap
      else none

/-- A rotation of the timer that is reported by a node that is up is not taken for the
engine's: the node is dirty and is to be bootstrapped again. -/
def Marks (s : HookedCore) (a : Action) (t : HookedCore) : Prop :=
  ∀ index, a = .notify (some index) → s.shuttingDown = false →
    t.externallyDriven = s.externallyDriven ∧ t.dirty = true ∧
      (t.rebootstrapPending || t.bootstrapping) = true

/-- No rotation of the timer is reported while the engine awaits its own. The engine awaits it
from its call until it is resumed, retries included. -/
def Apart (s : HookedCore) : Action → Prop
  | .notify (some _) => s.shuttingDown = true ∨ s.onDemand = none
  | _ => True

instance (s : HookedCore) : (a : Action) → Decidable (s.Apart a)
  | .notify (some _) => inferInstanceAs (Decidable (_ ∨ _))
  | .notify none | .tick | .rotateOnDemand | .acquire _ | .rotated _ _ | .wake _ | .restartInterval
  | .resumeEngine | .shutdown | .bootstrapBegins | .bootstrapEnds _ => inferInstanceAs (Decidable True)

/-- The engine calls `rotateOnDemand` when no rotation of the timer is waiting, running, about
to be tried again or about to be reported. None can come later: the timer is stopped for the
time of the call. -/
def Alone (s : HookedCore) : Action → Prop
  | .rotateOnDemand => s.selfRotations = []
  | _ => True

variable {s t : HookedCore} {a : Action}

@[simp] theorem scheduleRebootstrap_rotations (s : HookedCore) :
    s.scheduleRebootstrap.onDemand = s.onDemand ∧ s.scheduleRebootstrap.selfRotations = s.selfRotations ∧
      s.scheduleRebootstrap.rotationInterval = s.rotationInterval ∧
      s.scheduleRebootstrap.inCoordinatedRotation = s.inCoordinatedRotation ∧
      s.scheduleRebootstrap.completed = s.completed ∧
      s.scheduleRebootstrap.externallyDriven = s.externallyDriven := by
  unfold scheduleRebootstrap
  split <;> exact ⟨rfl, rfl, rfl, rfl, rfl, rfl⟩

/-- One is queued or running afterwards. -/
theorem scheduleRebootstrap_pending (hUp : s.shuttingDown = false) :
    (s.scheduleRebootstrap.rebootstrapPending || s.scheduleRebootstrap.bootstrapping) = true := by
  unfold scheduleRebootstrap
  split_ifs with hBusy
  · simpa [hUp] using hBusy
  · rfl

theorem scheduleRebootstrap_dirty (s : HookedCore) : s.scheduleRebootstrap.dirty = s.dirty := by
  unfold scheduleRebootstrap
  split <;> rfl

/-- The hook leaves the rotations alone. -/
theorem onCoreRotation_rotations (s : HookedCore) :
    s.onCoreRotation.onDemand = s.onDemand ∧ s.onCoreRotation.selfRotations = s.selfRotations ∧
      s.onCoreRotation.rotationInterval = s.rotationInterval ∧
      s.onCoreRotation.inCoordinatedRotation = s.inCoordinatedRotation ∧
      s.onCoreRotation.completed = s.completed := by
  unfold onCoreRotation
  split_ifs
  · exact ⟨rfl, rfl, rfl, rfl, rfl⟩
  · exact ⟨rfl, rfl, rfl, rfl, rfl⟩
  · simp

theorem onCoreRotation_of_clear (hUp : s.shuttingDown = false) (hClear : s.inCoordinatedRotation = false) :
    s.onCoreRotation = { s with dirty := true }.scheduleRebootstrap := by
  rw [onCoreRotation, if_neg (by simp [hUp]), if_neg (by simp [hClear])]

/-- A callback is taken for the engine's exactly while the flag is set. -/
theorem onCoreRotation_externallyDriven (s : HookedCore) : s.onCoreRotation.externallyDriven =
    if s.shuttingDown = false ∧ s.inCoordinatedRotation = true then s.externallyDriven + 1
    else s.externallyDriven := by
  unfold onCoreRotation
  cases s.shuttingDown with
  | true => rfl
  | false =>
      cases s.inCoordinatedRotation with
      | true => rfl
      | false => simp

/-- What a step does to the rotations. -/
inductive Effect (s : HookedCore) : Action → HookedCore → Prop where
  | ticked (interval : s.rotationInterval = true) (idle : s.isDue = false) :
      Effect s .tick { s with selfRotations := s.selfRotations ++ [.acquiring 0] }
  | called (idle : s.onDemand = none) : Effect s .rotateOnDemand
      { s with rotationInterval := false, onDemand := some (.acquiring 0), inCoordinatedRotation := true }
  | moved {a : Action} {caller : Caller} {phase next : HookPhase} (get : s.get caller = some phase)
      (waits : phase.isDue = false) (waitsNext : next.isDue = false) : Effect s a (s.set next caller)
  | swapped {caller : Caller} {attempt : Nat} (get : s.get caller = some (.rotating attempt)) :
      Effect s (.rotated caller true) { s.set .notifying caller with
        completed := if caller = none then s.completed + 1 else s.completed }
  | failed {caller : Caller} {attempt : Nat} (get : s.get caller = some (.rotating attempt)) :
      Effect s (.rotated caller false) (s.settle caller)
  | notified {caller : Caller} (get : s.get caller = some .notifying) :
      Effect s (.notify caller) (s.settle caller).onCoreRotation
  | restarted (get : s.onDemand = some .returning) :
      Effect s .restartInterval { s with onDemand := some .returned, rotationInterval := true }
  | resumed (get : s.onDemand = some .returned) :
      Effect s .resumeEngine { s with onDemand := none, inCoordinatedRotation := false }
  | unrelated {a : Action} {t : HookedCore} (onDemand : t.onDemand = s.onDemand)
      (selfRotations : t.selfRotations = s.selfRotations)
      (rotationInterval : t.rotationInterval = s.rotationInterval)
      (flag : t.inCoordinatedRotation = s.inCoordinatedRotation) (completed : t.completed = s.completed)
      (externallyDriven : t.externallyDriven = s.externallyDriven) : Effect s a t

theorem step_effect (hStep : s.step a = some t) : Effect s a t := by
  cases a with
  | tick =>
      simp only [step, Option.ite_none_right_eq_some, Bool.and_eq_true, Bool.not_eq_true'] at hStep
      obtain ⟨⟨hInterval, hIdle⟩, hEq⟩ := hStep
      cases hEq
      exact .ticked hInterval hIdle
  | rotateOnDemand =>
      simp only [step, Option.ite_none_left_eq_some, Bool.not_eq_true, Option.isSome_eq_false_iff,
        Option.isNone_iff_eq_none] at hStep
      obtain ⟨hIdle, hEq⟩ := hStep
      cases hEq
      exact .called hIdle
  | acquire caller =>
      simp only [step] at hStep
      split at hStep
      · rename_i attempt hGet
        split_ifs at hStep
        cases hStep
        exact .moved hGet rfl rfl
      · cases hStep
  | rotated caller succeeded =>
      simp only [step] at hStep
      split at hStep
      · rename_i attempt hGet
        cases succeeded with
        | true =>
            cases hStep
            exact .swapped hGet
        | false =>
            simp only [Bool.false_eq_true, if_false] at hStep
            split_ifs at hStep
            · cases hStep
              exact .moved hGet rfl rfl
            · cases hStep
              exact .failed hGet
      · cases hStep
  | wake caller =>
      simp only [step] at hStep
      split at hStep
      · rename_i attempt hGet
        cases hStep
        exact .moved hGet rfl rfl
      · cases hStep
  | notify caller =>
      simp only [step] at hStep
      split at hStep
      · rename_i hGet
        cases hStep
        exact .notified hGet
      · cases hStep
  | restartInterval =>
      simp only [step, Option.ite_none_right_eq_some] at hStep
      obtain ⟨hReturning, hEq⟩ := hStep
      cases hEq
      exact .restarted hReturning
  | resumeEngine =>
      simp only [step, Option.ite_none_right_eq_some] at hStep
      obtain ⟨hReturned, hEq⟩ := hStep
      cases hEq
      exact .resumed hReturned
  | shutdown =>
      cases hStep
      exact .unrelated rfl rfl rfl rfl rfl rfl
  | bootstrapBegins =>
      simp only [step, Option.ite_none_right_eq_some] at hStep
      obtain ⟨-, hEq⟩ := hStep
      cases hEq
      exact .unrelated rfl rfl rfl rfl rfl rfl
  | bootstrapEnds succeeded =>
      simp only [step, Option.ite_none_right_eq_some] at hStep
      obtain ⟨-, hEq⟩ := hStep
      cases succeeded with
      | true =>
          cases hEq
          exact .unrelated rfl rfl rfl rfl rfl rfl
      | false =>
          cases hEq
          obtain ⟨hOnDemand, hSelf, hInterval, hFlag, hCompleted, hDriven⟩ := scheduleRebootstrap_rotations
            { s with rebootstrapPending := false, bootstrapping := false }
          exact .unrelated hOnDemand hSelf hInterval hFlag hCompleted hDriven

/-- The flag stands for the pending call of `rotateOnDemand`. -/
def Flagged (s : HookedCore) : Prop := s.inCoordinatedRotation = s.onDemand.isSome

theorem Flagged.set (h : s.Flagged) {caller : Caller} {phase : HookPhase} (hGet : s.get caller = some phase)
    (next : HookPhase) : (s.set next caller).Flagged := by
  cases caller with
  | none =>
      have hPending : s.onDemand = some phase := hGet
      rw [Flagged, hPending] at h
      exact h
  | some index => exact h

theorem Flagged.settle (h : s.Flagged) {caller : Caller} {phase : HookPhase}
    (hGet : s.get caller = some phase) : (s.settle caller).Flagged := by
  cases caller with
  | none => exact h.set hGet .returning
  | some index => exact h

theorem Flagged.onCoreRotation (h : s.Flagged) : s.onCoreRotation.Flagged := by
  obtain ⟨hOnDemand, -, -, hFlag, -⟩ := onCoreRotation_rotations s
  rw [Flagged, hOnDemand, hFlag]
  exact h

theorem Flagged.step (h : s.Flagged) (hStep : s.step a = some t) : t.Flagged := by
  cases step_effect hStep with
  | ticked interval idle => exact h
  | called idle => rfl
  | moved get waits waitsNext => exact h.set get _
  | swapped get => exact h.set get .notifying
  | failed get => exact h.settle get
  | notified get => exact (h.settle get).onCoreRotation
  | restarted get =>
      rw [Flagged, get] at h
      exact h
  | resumed get => rfl
  | unrelated onDemand selfRotations rotationInterval flag completed externallyDriven =>
      rw [Flagged, flag, onDemand]
      exact h

/-- The engine's rotation has swapped the filters, and its callback is still to come. -/
def unreported (s : HookedCore) : Nat := if s.onDemand = some .notifying then 1 else 0

/-- Every callback that was taken for the engine's has a rotation of the engine's. -/
def Counted (s : HookedCore) : Prop := s.externallyDriven + s.unreported ≤ s.completed

theorem unreported_eq_zero {phase : HookPhase} (hOnDemand : s.onDemand = some phase)
    (hPhase : phase ≠ .notifying) : s.unreported = 0 := by
  simp [unreported, hOnDemand, hPhase]

theorem Counted.le (h : s.Counted) : s.externallyDriven ≤ s.completed := Nat.le_trans (Nat.le_add_right _ _) h

/-- The engine's rotation goes on to where it has no callback to come. -/
theorem Counted.onDemand (h : s.Counted) {phase : HookPhase} (hPhase : phase ≠ .notifying) :
    Counted { s with onDemand := some phase } := by
  rw [Counted, unreported_eq_zero rfl hPhase]
  exact h.le

theorem Counted.step (hFlag : s.Flagged) (h : s.Counted) (hStep : s.step a = some t) (hApart : s.Apart a) :
    t.Counted := by
  cases step_effect hStep with
  | ticked interval idle => exact h
  | called idle => exact h.onDemand (by simp)
  | @moved _ caller phase next get waits waitsNext =>
      cases caller with
      | none =>
          refine h.onDemand ?_
          rintro rfl
          cases waitsNext
      | some index => exact h
  | @swapped caller attempt get =>
      cases caller with
      | none => exact Nat.succ_le_succ h.le
      | some index => exact h
  | @failed caller attempt get =>
      cases caller with
      | none => exact h.onDemand (by simp)
      | some index => exact h
  | @notified caller get =>
      obtain ⟨hOnDemand, -, -, -, hCompleted⟩ := onCoreRotation_rotations (s.settle caller)
      rw [Counted, unreported, hOnDemand, hCompleted, onCoreRotation_externallyDriven]
      cases caller with
      | none =>
          have hPending : s.onDemand = some .notifying := get
          rw [Counted, unreported, hPending, if_pos rfl] at h
          change (if _ then s.externallyDriven + 1 else s.externallyDriven) + 0 ≤ s.completed
          split_ifs <;> omega
      | some index =>
          -- the flag is down, or the hook does nothing
          have hKept : ¬ ((s.settle (some index)).shuttingDown = false ∧
              (s.settle (some index)).inCoordinatedRotation = true) := by
            rintro ⟨hUp, hSet⟩
            rcases hApart with hDown | hIdle
            · cases hDown.symm.trans hUp
            · have hClear : s.inCoordinatedRotation = false := by
                rw [hFlag, hIdle]
                rfl
              cases hClear.symm.trans hSet
          change (if _ then s.externallyDriven + 1 else s.externallyDriven) + s.unreported ≤ s.completed
          rw [if_neg hKept]
          exact h
  | restarted get => exact h.onDemand (by simp)
  | resumed get => exact h.le
  | unrelated onDemand selfRotations rotationInterval flag completed externallyDriven =>
      rw [Counted, unreported, onDemand, externallyDriven, completed]
      exact h

/-- A rotation of the timer is taken for what it is exactly if it is reported apart from
the engine's. -/
theorem marks_iff_apart (hFlag : s.Flagged) (hStep : s.step a = some t) : Marks s a t ↔ s.Apart a := by
  cases a with
  | notify caller =>
      cases caller with
      | none => simp [Marks, Apart]
      | some index =>
          have hEq : t = (s.settle (some index)).onCoreRotation := by
            simp only [step] at hStep
            split at hStep
            · exact (Option.some.inj hStep).symm
            · cases hStep
          subst hEq
          have hDriven := onCoreRotation_externallyDriven (s.settle (some index))
          constructor
          · intro hMarks
            refine Classical.or_iff_not_imp_left.mpr fun hUp => ?_
            have hUp : s.shuttingDown = false := by simpa using hUp
            rw [(hMarks index rfl hUp).1] at hDriven
            by_contra hPending
            have hSet : s.inCoordinatedRotation = true := by
              rw [hFlag]
              exact Option.isSome_iff_ne_none.mpr hPending
            rw [if_pos ⟨hUp, hSet⟩] at hDriven
            exact Nat.succ_ne_self _ hDriven.symm
          · intro hApart other hNotify hUp
            have hIdle : s.onDemand = none := hApart.resolve_left (by simp [hUp])
            have hClear : s.inCoordinatedRotation = false := by
              rw [hFlag, hIdle]
              rfl
            have hMarked : (s.settle (some index)).onCoreRotation =
                ({ s.settle (some index) with dirty := true } : HookedCore).scheduleRebootstrap :=
              onCoreRotation_of_clear hUp hClear
            refine ⟨?_, ?_, ?_⟩
            · rw [hDriven, if_neg fun hSet => ?_]
              · rfl
              · rw [show s.inCoordinatedRotation = true from hSet.2] at hClear
                cases hClear
            · rw [hMarked, scheduleRebootstrap_dirty]
            · rw [hMarked]
              exact scheduleRebootstrap_pending hUp
  | tick | rotateOnDemand | acquire | rotated | wake | restartInterval | resumeEngine | shutdown
  | bootstrapBegins | bootstrapEnds => simp [Marks, Apart]

/-- While the engine awaits its rotation there is no other. -/
structure Lonely (s : HookedCore) : Prop where
  alone : s.onDemand.isSome = true → s.selfRotations = []
  interval : s.rotationInterval = true → s.onDemand.isSome = true → s.isDue = true

theorem isDue_of_onDemand {phase : HookPhase} (hOnDemand : s.onDemand = some phase)
    (hPhase : phase.isDue = true) : s.isDue = true := by
  simp [isDue, hOnDemand, hPhase]

/-- A rotation of the timer that is pending is the only kind. -/
theorem Lonely.idle (h : s.Lonely) {index : Nat} {phase : HookPhase}
    (hGet : s.get (some index) = some phase) :
    s.onDemand = none := by
  by_contra hPending
  have hNone := h.alone (Option.isSome_iff_ne_none.mpr hPending)
  have hAt : s.selfRotations[index]? = some phase := hGet
  rw [hNone] at hAt
  cases hAt

theorem lonely_of_idle (hIdle : s.onDemand = none) : s.Lonely := by
  constructor <;> simp [hIdle]

/-- The engine's rotation goes on to where the engine is about to hear of it. -/
theorem Lonely.onDemand (h : s.Lonely) (hPending : s.onDemand.isSome = true) {phase : HookPhase}
    (hPhase : phase.isDue = true) (interval : Bool) :
    Lonely { s with onDemand := some phase, rotationInterval := interval } where
  alone := fun _ => h.alone hPending
  interval := fun _ _ => isDue_of_onDemand rfl hPhase

theorem Lonely.congr (h : s.Lonely) (onDemand : t.onDemand = s.onDemand)
    (selfRotations : t.selfRotations = s.selfRotations)
    (rotationInterval : t.rotationInterval = s.rotationInterval) : t.Lonely := by
  constructor
  · rw [onDemand, selfRotations]
    exact h.alone
  · rw [rotationInterval, onDemand, isDue, onDemand, selfRotations]
    exact h.interval

theorem Lonely.step (h : s.Lonely) (hStep : s.step a = some t) (hAlone : s.Alone a) : t.Lonely := by
  cases step_effect hStep with
  | ticked interval idle =>
      refine lonely_of_idle ?_
      by_contra hPending
      have hDue := h.interval interval (Option.isSome_iff_ne_none.mpr hPending)
      rw [idle] at hDue
      cases hDue
  | called idle =>
      refine ⟨fun _ => hAlone, fun hInterval => ?_⟩
      cases hInterval
  | @moved _ caller phase next get waits waitsNext =>
      cases caller with
      | none =>
          have hPending : s.onDemand = some phase := get
          have hNone := h.alone (by rw [hPending]; rfl)
          refine ⟨fun _ => hNone, fun hInterval _ => ?_⟩
          have hDue := h.interval hInterval (by rw [hPending]; rfl)
          simp [isDue, hPending, hNone, waits] at hDue
      | some index => exact lonely_of_idle (h.idle get)
  | @swapped caller attempt get =>
      cases caller with
      | none =>
          have hPending : s.onDemand = some (.rotating attempt) := get
          exact (h.onDemand (by rw [hPending]; rfl) rfl s.rotationInterval).congr rfl rfl rfl
      | some index => exact lonely_of_idle (h.idle get)
  | @failed caller attempt get =>
      cases caller with
      | none =>
          have hPending : s.onDemand = some (.rotating attempt) := get
          exact h.onDemand (by rw [hPending]; rfl) rfl s.rotationInterval
      | some index => exact lonely_of_idle (h.idle get)
  | @notified caller get =>
      obtain ⟨hOnDemand, hSelf, hInterval, -, -⟩ := onCoreRotation_rotations (s.settle caller)
      refine Lonely.congr ?_ hOnDemand hSelf hInterval
      cases caller with
      | none =>
          have hPending : s.onDemand = some .notifying := get
          exact h.onDemand (by rw [hPending]; rfl) rfl s.rotationInterval
      | some index => exact lonely_of_idle (h.idle get)
  | restarted get => exact h.onDemand (by rw [get]; rfl) rfl true
  | resumed get => exact lonely_of_idle rfl
  | unrelated onDemand selfRotations rotationInterval flag completed externallyDriven =>
      exact h.congr onDemand selfRotations rotationInterval

/-- A rotation of the timer is reported apart if none was pending at the call. -/
theorem Lonely.apart (h : s.Lonely) (hStep : s.step a = some t) : s.Apart a := by
  cases a with
  | notify caller =>
      cases caller with
      | none => trivial
      | some index =>
          simp only [HookedCore.step] at hStep
          split at hStep
          · rename_i hGet
            exact Or.inr (h.idle hGet)
          · cases hStep
  | tick | rotateOnDemand | acquire | rotated | wake | restartInterval | resumeEngine | shutdown
  | bootstrapBegins | bootstrapEnds => trivial

/-- It is enough that no rotation of the timer is pending whenever the engine calls. -/
theorem apart_of_alone {actions : List Action} (run : Run (restrict (ofStep step) Alone) init actions s) :
    Run (restrict (ofStep step) Apart) init actions s := by
  suffices h : Run (restrict (ofStep step) Apart) init actions s ∧ s.Lonely from h.1
  induction run with
  | nil => exact ⟨Run.nil init, lonely_of_idle rfl⟩
  | snoc prior last ih =>
      obtain ⟨run, hLonely⟩ := ih
      obtain ⟨hStep, hAlone⟩ := last
      exact ⟨run.snoc ⟨hStep, hLonely.apart hStep⟩, hLonely.step hStep hAlone⟩

/-- As long as every rotation of the timer is reported apart from the engine's, each callback
that is taken for the engine's has a complete rotation of the engine's; and a rotation of the
timer makes the node dirty and has it bootstrapped again exactly if it is reported apart. -/
theorem recognised_of_apart {actions : List Action}
    (run : Run (restrict (ofStep step) Apart) init actions s) :
    s.externallyDriven ≤ s.completed ∧ ∀ a t, s.step a = some t → (Marks s a t ↔ s.Apart a) := by
  have h : s.Flagged ∧ s.Counted :=
    run.invariant (P := fun s => s.Flagged ∧ s.Counted)
      (fun _ _ _ h hStep => ⟨h.1.step hStep.1, h.2.step h.1 hStep.1 hStep.2⟩) ⟨rfl, Nat.le_refl _⟩
  exact ⟨h.2.le, fun a t hStep => marks_iff_apart h.1 hStep⟩

/-- A rotation of the timer is reported, and then one of the engine's. -/
theorem recognised_of_apart_in_turn : ∃ t : HookedCore, t.completed = 1 ∧ t.dirty = true ∧
    t.externallyDriven ≤ t.completed := by
  have hEnd : (exec (guarded (fun s a => decide (s.Apart a)) step) init [.tick, .acquire (some 0),
      .rotated (some 0) true, .notify (some 0), .rotateOnDemand, .acquire none, .rotated none true,
      .notify none]).map (fun t => (t.completed, t.dirty)) = some (1, true) := by decide +kernel
  obtain ⟨t, hRun, hEq⟩ := Option.map_eq_some_iff.mp hEnd
  obtain ⟨hCompleted, hDirty⟩ := Prod.mk.inj hEq
  refine ⟨t, hCompleted, hDirty, (recognised_of_apart ((run_of_exec hRun).of_guarded ?_)).1⟩
  intro s a hTest
  exact of_decide_eq_true hTest

/-- A rotation of the timer holds the mutex when the engine calls `rotateOnDemand`. -/
theorem not_recognised : ¬ ∀ (actions : List Action) (s : HookedCore), Run (ofStep step) init actions s →
    s.externallyDriven ≤ s.completed ∧ ∀ a t, s.step a = some t → Marks s a t := by
  intro h
  have hEnd : (exec step init [.tick, .acquire (some 0), .rotateOnDemand, .rotated (some 0) true,
      .notify (some 0)]).map (fun t => (t.externallyDriven, t.completed)) = some (1, 0) := by decide +kernel
  obtain ⟨t, hRun, hEq⟩ := Option.map_eq_some_iff.mp hEnd
  obtain ⟨hDriven, hCompleted⟩ := Prod.mk.inj hEq
  have hCounted := (h _ t (run_of_exec hRun)).1
  rw [hDriven, hCompleted] at hCounted
  exact absurd hCounted (by decide)

end HookedCore

end TokenRevoker
