import TokenRevoker.Core.Rotation

/-! The rotation schedule in integer time. The timer ticks at every multiple of
`rotateTime`; the rotation it starts swaps the filters only after the time it
spends in `backupRotate`. An item stays covered from its insertion to the second
swap, so what matters is the distance between swaps, not between ticks. -/
namespace TokenRevoker

open Text SignatureFilter Transition

/-- Rotations with a clock. Time is counted in whole units, and all else happens between two of
them. -/
structure Clocked (g : Geometry) where
  system : Rotations g
  now : Nat
  /-- Timer ticks so far. -/
  ticks : Nat
  /-- When the suspended rotation swaps the filters. -/
  due : Nat
  deriving DecidableEq

namespace Clocked

inductive Action where
  | advance
  | run (a : Rotations.Action)

variable {g : Geometry}

def start (g : Geometry) (numItems : Nat) (restoredCurrent restoredPrevious : Option (SizedFilter g)) :
    Clocked g :=
  ⟨Rotations.start g numItems true restoredCurrent restoredPrevious, 0, 0, 0⟩

/-- Nothing is left to do at this instant: no tick is due, and a rotation either
does not wait or waits for its `backupRotate`. -/
def idle (rotateTime : Nat) (s : Clocked g) : Bool :=
  decide (s.now < (s.ticks + 1) * rotateTime) &&
    if s.system.suspended then decide (s.now < s.due) else s.system.waiting == 0

/-- One step. The rotation that completes as the `n`-th spends `durations n` in
`backupRotate`; `rotateOnDemand` is not called. -/
def step (rotateTime : Nat) (durations : Nat → Nat) (s : Clocked g) : Action → Option (Clocked g)
  | .advance => if s.idle rotateTime then some { s with now := s.now + 1 } else none
  | .run .timer =>
      if s.now == (s.ticks + 1) * rotateTime then
        (s.system.step .timer).map fun system => { s with system := system, ticks := s.ticks + 1 }
      else none
  | .run .rotateOnDemand => none
  | .run .acquire =>
      (s.system.step .acquire).map fun system =>
        { s with system := system, due := s.now + durations s.system.completed }
  | .run (.resume backupRotate) =>
      if s.now == s.due then
        (s.system.step (.resume backupRotate)).map fun system => { s with system := system }
      else none
  | .run a => (s.system.step a).map fun system => { s with system := system }

/-- When the `n`-th rotation swaps the filters, counted from zero. A rotation that overruns its
tick delays the next one, which waits for the mutex. -/
def swapTime (rotateTime : Nat) (durations : Nat → Nat) : Nat → Nat
  | 0 => rotateTime + durations 0
  | n + 1 => max ((n + 2) * rotateTime) (swapTime rotateTime durations n) + durations (n + 1)

/-- How long after its tick the `n`-th rotation swaps the filters: what the one
before it overran plus its own time in `backupRotate`. -/
def lag (rotateTime : Nat) (durations : Nat → Nat) : Nat → Nat
  | 0 => durations 0
  | n + 1 => (lag rotateTime durations n - rotateTime) + durations (n + 1)

/-- Every item is reported from its insertion to the end of its validity, which is one
`rotateTime`. -/
def TtlCovered (g : Geometry) (rotateTime : Nat) (durations : Nat → Nat) : Prop :=
  ∀ numItems restoredCurrent restoredPrevious before s a x s' after t,
    Run (ofStep (step rotateTime durations)) (start g numItems restoredCurrent restoredPrevious)
      before s →
    step rotateTime durations s (.run a) = some s' → s.system.Inserts x a →
    Run (ofStep (step rotateTime durations)) s' after t → t.now < s.now + rotateTime →
    (t.system.manager.has x).2 = .ok true

variable {rotateTime : Nat} {durations : Nat → Nat}

theorem swapTime_eq_lag (n : Nat) :
    swapTime rotateTime durations n = (n + 1) * rotateTime + lag rotateTime durations n := by
  induction n with
  | zero => simp [swapTime, lag]
  | succ n ih =>
      rw [swapTime, lag, ih]
      have hNext : (n + 1 + 1) * rotateTime = (n + 1) * rotateTime + rotateTime := by ring
      rw [hNext]
      omega

theorem tick_le_swapTime (n : Nat) : (n + 1) * rotateTime ≤ swapTime rotateTime durations n := by
  rw [swapTime_eq_lag]
  omega

theorem swapTime_mono {n k : Nat} (h : n ≤ k) :
    swapTime rotateTime durations n ≤ swapTime rotateTime durations k := by
  induction h with
  | refl => exact le_rfl
  | step _ ih => exact ih.trans (by rw [swapTime]; omega)

/-- A swap comes a full `rotateTime` after the one before it exactly when its
rotation takes at least as long as the earlier lag, up to `rotateTime`. -/
theorem swapTime_spaced_iff (n : Nat) :
    swapTime rotateTime durations n + rotateTime ≤ swapTime rotateTime durations (n + 1) ↔
      min (lag rotateTime durations n) rotateTime ≤ durations (n + 1) := by
  have hNext : (n + 1 + 1) * rotateTime = (n + 1) * rotateTime + rotateTime := by ring
  rw [swapTime_eq_lag, swapTime_eq_lag, lag, hNext]
  omega

/-- When the rotation that completes as the `n`-th gets the mutex. -/
def beginTime (rotateTime : Nat) (durations : Nat → Nat) : Nat → Nat
  | 0 => rotateTime
  | n + 1 => max ((n + 2) * rotateTime) (swapTime rotateTime durations n)

theorem beginTime_add (n : Nat) :
    beginTime rotateTime durations n + durations n = swapTime rotateTime durations n := by
  cases n <;> rfl

/-- Clock and rotations agree. It says which rotation is due next and when, for every state
between two swaps. -/
structure Timely (rotateTime : Nat) (durations : Nat → Nat) (s : Clocked g) : Prop where
  backup : s.system.backup = true
  current : s.system.manager.current.isSome
  pending : s.system.completed + s.system.waiting + (if s.system.suspended then 1 else 0) = s.ticks
  after_tick : s.ticks * rotateTime ≤ s.now
  before_tick : s.now ≤ (s.ticks + 1) * rotateTime
  suspended : s.system.suspended = true →
    s.now ≤ s.due ∧ s.due = swapTime rotateTime durations s.system.completed
  queued : s.system.suspended = false → 0 < s.system.waiting →
    s.now = beginTime rotateTime durations s.system.completed
  swapped : ∀ n, s.system.completed = n + 1 → swapTime rotateTime durations n ≤ s.now

theorem Timely.le_swapTime {s : Clocked g} (h : Timely rotateTime durations s) :
    s.now ≤ swapTime rotateTime durations s.system.completed := by
  have hTick : (s.system.completed + 1) * rotateTime ≤
      swapTime rotateTime durations s.system.completed := tick_le_swapTime _
  by_cases hSuspended : s.system.suspended = true
  · exact (h.suspended hSuspended).2 ▸ (h.suspended hSuspended).1
  · have hPending := h.pending
    rw [if_neg hSuspended] at hPending
    rcases Nat.eq_zero_or_pos s.system.waiting with hNone | hSome
    · have hBefore := h.before_tick
      rw [← hPending, hNone] at hBefore
      exact hBefore.trans hTick
    · rw [h.queued (by simpa using hSuspended) hSome, ← beginTime_add]
      omega

theorem start_timely (numItems : Nat) (restoredCurrent restoredPrevious : Option (SizedFilter g)) :
    Timely rotateTime durations (start g numItems restoredCurrent restoredPrevious) where
  backup := rfl
  current := Rotations.start_current numItems true restoredCurrent restoredPrevious
  pending := rfl
  after_tick := by simp [start]
  before_tick := by simp [start]
  suspended := by simp [start, Rotations.start]
  queued := by simp [start, Rotations.start]
  swapped := by simp [start, Rotations.start, Rotations.completed, Manager.init]

theorem Timely.call {s : Clocked g} {system : Rotations g} {a : Rotations.Action}
    (h : Timely rotateTime durations s) (hStep : s.system.step a = some system)
    (hCall : a.IsCall) :
    Timely rotateTime durations { s with system := system } := by
  obtain ⟨hBackup, hWaiting, hSuspended, hCompleted⟩ := Rotations.step_call hStep hCall
  refine ⟨hBackup.trans h.backup, Rotations.step_current hStep h.current, ?_, h.after_tick,
    h.before_tick, ?_, ?_, ?_⟩ <;> simp only [hWaiting, hSuspended, hCompleted]
  · exact h.pending
  · exact h.suspended
  · exact h.queued
  · exact h.swapped

theorem Timely.advance {s : Clocked g} (h : Timely rotateTime durations s)
    (hIdle : s.idle rotateTime = true) :
    Timely rotateTime durations { s with now := s.now + 1 } := by
  simp only [idle, Bool.and_eq_true, decide_eq_true_eq] at hIdle
  obtain ⟨hTick, hWait⟩ := hIdle
  refine ⟨h.backup, h.current, h.pending, h.after_tick.trans (by simp), hTick, ?_, ?_, ?_⟩
  · intro hSuspended
    rw [show s.system.suspended = true from hSuspended] at hWait
    simp only [if_true, decide_eq_true_eq] at hWait
    exact ⟨hWait, (h.suspended hSuspended).2⟩
  · intro hFree hQueued
    rw [show s.system.suspended = false from hFree] at hWait
    simp only [Bool.false_eq_true, if_false, beq_iff_eq] at hWait
    exact absurd hWait (Nat.pos_iff_ne_zero.mp hQueued)
  · intro n hCount
    exact (h.swapped n hCount).trans (by simp)

theorem Timely.timer {s : Clocked g} (h : Timely rotateTime durations s)
    (hNow : s.now = (s.ticks + 1) * rotateTime) :
    Timely rotateTime durations
      { s with
        system := { s.system with waiting := s.system.waiting + 1 }
        ticks := s.ticks + 1 } := by
  have hPending := h.pending
  refine ⟨h.backup, h.current, ?_, hNow.ge, ?_, h.suspended, ?_, h.swapped⟩
  · simp only [Rotations.completed] at hPending ⊢
    omega
  · exact hNow.le.trans (Nat.mul_le_mul_right _ (Nat.le_succ _))
  · intro hFree hQueued
    rcases Nat.eq_zero_or_pos s.system.waiting with hNone | hSome
    -- the tick finds no rotation pending, so the last swap is already past
    · have hFree' : s.system.suspended = false := hFree
      rw [hFree', hNone] at hPending
      have hCount : s.system.completed = s.ticks := by simpa using hPending
      change s.now = beginTime rotateTime durations s.system.completed
      rw [hNow, ← hCount]
      rcases hCase : s.system.completed with _ | n
      · simp [beginTime]
      · have hPast := h.swapped n hCase
        rw [hNow, ← hCount, hCase] at hPast
        rw [beginTime, Nat.max_eq_left hPast]
    · exact h.queued hFree hSome

theorem Timely.acquire {s : Clocked g} (h : Timely rotateTime durations s)
    (hFree : s.system.suspended = false) (hWaiting : 0 < s.system.waiting) :
    Timely rotateTime durations
      { s with
        system := { s.system with
          waiting := s.system.waiting - 1
          manager := { s.system.manager with hasRotated := true }
          suspended := true }
        due := s.now + durations s.system.completed } := by
  have hPending := h.pending
  refine ⟨h.backup, h.current, ?_, h.after_tick, h.before_tick, ?_, by simp, h.swapped⟩
  · simp only [hFree, Rotations.completed, Bool.false_eq_true, if_false] at hPending ⊢
    simp only [if_true]
    omega
  · intro _
    refine ⟨Nat.le_add_right _ _, ?_⟩
    change s.now + durations s.system.completed = swapTime rotateTime durations s.system.completed
    rw [h.queued hFree hWaiting, beginTime_add]

theorem Timely.resume {s : Clocked g} (h : Timely rotateTime durations s)
    (hNow : s.now = s.due) (hSuspended : s.system.suspended = true) :
    Timely rotateTime durations { s with system := s.system.complete } := by
  have hPending := h.pending
  have hSwap := (h.suspended hSuspended).2
  have hCount : s.system.complete.completed = s.system.completed + 1 := rfl
  refine ⟨h.backup, rfl, ?_, h.after_tick, h.before_tick, by simp [Rotations.complete], ?_, ?_⟩
  · simp only [hSuspended, if_true] at hPending
    change s.system.completed + 1 + s.system.waiting + 0 = s.ticks
    omega
  · intro _ hQueued
    change s.now = beginTime rotateTime durations (s.system.completed + 1)
    have hTicks : (s.system.completed + 2) * rotateTime ≤ s.now := by
      simp only [hSuspended, if_true] at hPending
      refine (Nat.mul_le_mul_right _ ?_).trans h.after_tick
      have : 0 < s.system.waiting := hQueued
      omega
    rw [beginTime, ← hSwap, ← hNow, Nat.max_eq_right hTicks]
  · intro n hEq
    rw [hCount] at hEq
    obtain rfl : s.system.completed = n := by omega
    exact (hSwap ▸ hNow).ge

/-- Every step keeps clock and rotations in agreement. -/
theorem step_timely {s t : Clocked g} {a : Action} (h : Timely rotateTime durations s)
    (hStep : step rotateTime durations s a = some t) : Timely rotateTime durations t := by
  cases a with
  | advance =>
      simp only [step, Option.ite_none_right_eq_some] at hStep
      obtain ⟨hIdle, hEq⟩ := hStep
      cases hEq
      exact h.advance hIdle
  | run a =>
      cases a with
      | rotateOnDemand => simp [step] at hStep
      | timer =>
          simp only [step, Option.ite_none_right_eq_some, beq_iff_eq] at hStep
          obtain ⟨hNow, hStep⟩ := hStep
          cases hStep
          exact h.timer hNow
      | acquire =>
          simp only [step, Option.map_eq_some_iff] at hStep
          obtain ⟨system, hSystem, rfl⟩ := hStep
          obtain ⟨hFree, hWaiting, rfl⟩ := Rotations.step_acquire hSystem h.backup h.current
          exact h.acquire hFree hWaiting
      | resume backupRotate =>
          simp only [step, Option.ite_none_right_eq_some, beq_iff_eq, Option.map_eq_some_iff] at hStep
          obtain ⟨hNow, system, hSystem, rfl⟩ := hStep
          obtain ⟨hSuspended, rfl⟩ := Rotations.step_resume hSystem
          exact h.resume hNow hSuspended
      | add item backupItem =>
          simp only [step, Option.map_eq_some_iff] at hStep
          obtain ⟨system, hSystem, rfl⟩ := hStep
          exact h.call hSystem trivial
      | applyEntry item backupItem =>
          simp only [step, Option.map_eq_some_iff] at hStep
          obtain ⟨system, hSystem, rfl⟩ := hStep
          exact h.call hSystem trivial
      | has value =>
          simp only [step, Option.map_eq_some_iff] at hStep
          obtain ⟨system, hSystem, rfl⟩ := hStep
          exact h.call hSystem trivial

theorem run_timely {s t : Clocked g} {as : List Action}
    (run : Run (ofStep (step rotateTime durations)) s as t) (h : Timely rotateTime durations s) :
    Timely rotateTime durations t :=
  run.invariant (fun _ _ _ h hStep => step_timely h hStep) h

/-- A clocked step is a step of the rotations, or leaves them alone. -/
theorem step_system {s t : Clocked g} {a : Action} (hStep : step rotateTime durations s a = some t) :
    t.system = s.system ∨ ∃ b, s.system.step b = some t.system := by
  cases a with
  | advance =>
      simp only [step, Option.ite_none_right_eq_some] at hStep
      obtain ⟨-, hEq⟩ := hStep
      cases hEq
      exact Or.inl rfl
  | run a =>
      refine Or.inr ⟨a, ?_⟩
      cases a with
      | rotateOnDemand => simp [step] at hStep
      | timer | resume =>
          simp only [step, Option.ite_none_right_eq_some, Option.map_eq_some_iff] at hStep
          obtain ⟨-, system, hSystem, rfl⟩ := hStep
          exact hSystem
      | acquire | add | applyEntry | has =>
          simp only [step, Option.map_eq_some_iff] at hStep
          obtain ⟨system, hSystem, rfl⟩ := hStep
          exact hSystem

theorem run_holds {since : Nat} {x : JsString} {s t : Clocked g} {as : List Action}
    (run : Run (ofStep (step rotateTime durations)) s as t) (h : Rotations.Holds since x s.system) :
    Rotations.Holds since x t.system := by
  refine run.invariant (P := fun s => Rotations.Holds since x s.system) (fun s a t h hStep => ?_) h
  rcases step_system hStep with hSame | ⟨b, hSystem⟩
  · rwa [hSame]
  · exact Rotations.step_holds h hSystem

/-- The insertion of an item takes no time and keeps the rotations as they are. -/
theorem step_inserts {s s' : Clocked g} {a : Rotations.Action} {x : JsString}
    (hStep : step rotateTime durations s (.run a) = some s') (hInserts : s.system.Inserts x a) :
    s.system.step a = some s'.system ∧ s'.system.completed = s.system.completed := by
  cases a with
  | add | applyEntry =>
      simp only [step, Option.map_eq_some_iff] at hStep
      obtain ⟨system, hSystem, rfl⟩ := hStep
      exact ⟨hSystem, (Rotations.step_call hSystem trivial).2.2.2⟩
  | has | timer | rotateOnDemand | acquire | resume => exact hInserts.elim

/-- Swaps that keep their distance cover every item for its whole validity. -/
theorem ttlCovered_of_durations
    (hAddressable : ∀ x, Acceptable x → BloomFilter.Addressable g.m g.k x)
    (hDurations : ∀ n, min (lag rotateTime durations n) rotateTime ≤ durations (n + 1)) :
    TtlCovered g rotateTime durations := by
  intro numItems restoredCurrent restoredPrevious before s a x s' after t hBefore hStep hInserts
    hAfter hNow
  have hTimely := run_timely hBefore (start_timely numItems restoredCurrent restoredPrevious)
  obtain ⟨hSystem, hCount⟩ := step_inserts hStep hInserts
  obtain ⟨-, hSince, hHeld⟩ :=
    run_holds hAfter (Rotations.inserts_holds hSystem hInserts hTimely.current)
  have hLater := run_timely hAfter (step_timely hTimely hStep)
  have hAccepted := Rotations.inserts_accepted hInserts
  -- a second swap would come a full `rotateTime` after the first, which the insertion precedes
  have hFew : t.system.completed - s'.system.completed < 2 := by
    by_contra hMany
    obtain ⟨n, hn⟩ : ∃ n, t.system.completed = n + 1 := ⟨t.system.completed - 1, by omega⟩
    have hSpaced := (swapTime_spaced_iff s.system.completed).mpr (hDurations s.system.completed)
    have hMono : swapTime rotateTime durations (s.system.completed + 1) ≤
        swapTime rotateTime durations n := swapTime_mono (by omega)
    have hSwapped := hLater.swapped n hn
    have hAdded := hTimely.le_swapTime
    omega
  rw [Manager.has_eq_ok hAccepted.not_blank,
    (Manager.covers_iff (hAddressable x hAccepted)).mpr (hHeld.covers hFew)]

/-- A state into whose current filter nothing was inserted. -/
structure Calm (s : Clocked g) : Prop where
  current : s.system.manager.current = some (SizedFilter.create g)
  insertions : s.system.manager.currentInsertions = 0
  running : s.system.manager.shuttingDown = false

/-- The next step completes the `k`-th rotation. What was inserted up to here moves to the
previous filter with it. -/
def AboutToSwap (k : Nat) (s : Clocked g) : Prop :=
  s.system.suspended = true ∧ s.now = s.due ∧ s.system.completed = k

/-- What the scheduler has done so far; bounded while at most `k` rotations are complete. -/
def progress (s : Clocked g) : Nat :=
  s.now + s.ticks + 2 * s.system.completed + if s.system.suspended then 1 else 0

theorem progress_le {s : Clocked g} {k : Nat} (hTime : 0 < rotateTime)
    (h : Timely rotateTime durations s) (hCount : s.system.completed ≤ k) :
    s.progress ≤ 2 * swapTime rotateTime durations k + 2 * k + 1 := by
  have hNow : s.now ≤ swapTime rotateTime durations k := h.le_swapTime.trans (swapTime_mono hCount)
  have hTicks : s.ticks ≤ s.now := (Nat.le_mul_of_pos_right _ hTime).trans h.after_tick
  unfold progress
  split_ifs <;> omega

theorem step_resume_eq (rotateTime : Nat) (durations : Nat → Nat) {s : Clocked g}
    (hSuspended : s.system.suspended = true) (hDue : s.now = s.due) :
    step rotateTime durations s (.run (.resume (.ok ()))) =
      some { s with system := s.system.complete } := by
  simp [step, Rotations.step, hSuspended, hDue]

/-- Time never stops: short of the swap that completes the `k`-th rotation, some
step other than an insertion is possible. -/
theorem exists_calm_step {s : Clocked g} {k : Nat} (h : Timely rotateTime durations s)
    (hCalm : Calm s) (hCount : s.system.completed ≤ k) (hNot : ¬ AboutToSwap k s) :
    ∃ a t, step rotateTime durations s a = some t ∧ Calm t ∧ t.system.completed ≤ k ∧
      s.progress < t.progress := by
  by_cases hAcquire : s.system.suspended = false ∧ 0 < s.system.waiting
  · refine ⟨.run .acquire, { s with
      system := { s.system with
        waiting := s.system.waiting - 1
        manager := { s.system.manager with hasRotated := true }
        suspended := true }
      due := s.now + durations s.system.completed }, ?_, ⟨hCalm.current, hCalm.insertions,
        hCalm.running⟩, hCount, ?_⟩
    · have hWaiting : s.system.waiting ≠ 0 := hAcquire.2.ne'
      simp [step, Rotations.step, hAcquire.1, hWaiting, h.backup, h.current, Rotations.completed]
    · simp only [progress, hAcquire.1, Rotations.completed, if_true, Bool.false_eq_true, if_false]
      omega
  · by_cases hSwap : s.system.suspended = true ∧ s.now = s.due
    · refine ⟨.run (.resume (.ok ())), _, step_resume_eq _ _ hSwap.1 hSwap.2, ⟨rfl, rfl, hCalm.running⟩,
        ?_, ?_⟩
      · have : s.system.completed ≠ k := fun hk => hNot ⟨hSwap.1, hSwap.2, hk⟩
        change s.system.completed + 1 ≤ k
        omega
      · simp only [progress, hSwap.1, if_true]
        change _ < s.now + s.ticks + 2 * (s.system.completed + 1) + 0
        omega
    · by_cases hTick : s.now = (s.ticks + 1) * rotateTime
      · refine ⟨.run .timer, { s with
          system := { s.system with waiting := s.system.waiting + 1 }
          ticks := s.ticks + 1 }, by simp [step, Rotations.step, hTick],
          ⟨hCalm.current, hCalm.insertions, hCalm.running⟩, hCount, ?_⟩
        simp only [progress, Rotations.completed]
        omega
      · refine ⟨.advance, { s with now := s.now + 1 }, ?_,
          ⟨hCalm.current, hCalm.insertions, hCalm.running⟩, hCount, ?_⟩
        · have hBefore := h.before_tick
          have hIdle : s.idle rotateTime = true := by
            cases hSuspended : s.system.suspended with
            | true =>
                have hDue := (h.suspended hSuspended).1
                have hNe : s.now ≠ s.due := fun hEq => hSwap ⟨hSuspended, hEq⟩
                simp only [idle, hSuspended, if_true, Bool.and_eq_true, decide_eq_true_eq]
                omega
            | false =>
                have hNone : s.system.waiting = 0 := by
                  by_contra hSome
                  exact hAcquire ⟨hSuspended, by omega⟩
                simp only [idle, hSuspended, hNone, Bool.false_eq_true, if_false, beq_self_eq_true,
                  Bool.and_true, decide_eq_true_eq]
                omega
          simp [step, hIdle]
        · simp only [progress]
          omega

/-- The schedule reaches every swap without further insertions. -/
theorem exists_run_to_swap (durations : Nat → Nat) (hTime : 0 < rotateTime) {s : Clocked g} (k : Nat)
    (h : Timely rotateTime durations s) (hCalm : Calm s) (hCount : s.system.completed ≤ k) :
    ∃ as t, Run (ofStep (step rotateTime durations)) s as t ∧
      (Timely rotateTime durations t ∧ Calm t ∧ t.system.completed ≤ k) ∧ AboutToSwap k t := by
  refine exists_run_of_progress
    (fun s => 2 * swapTime rotateTime durations k + 2 * k + 1 - s.progress) ?_ ⟨h, hCalm, hCount⟩
  rintro s ⟨h, hCalm, hCount⟩ hNot
  obtain ⟨a, t, hStep, hCalm', hCount', hLt⟩ := exists_calm_step h hCalm hCount hNot
  have hTimely := step_timely h hStep
  have hBound := progress_le hTime hTimely hCount'
  exact ⟨a, t, hStep, ⟨hTimely, hCalm', hCount'⟩, by omega⟩

/-- The state after an accepted insertion into a calm state. -/
theorem exists_insertion (rotateTime : Nat) (durations : Nat → Nat) {s : Clocked g} {x : JsString}
    (hCalm : Calm s) (hItem : Acceptable x) :
    ∃ s', step rotateTime durations s (.run (.add x (.ok ()))) = some s' ∧
      s.system.Inserts x (.add x (.ok ())) ∧ s'.now = s.now ∧ s'.due = s.due ∧
      s'.system.suspended = s.system.suspended ∧ s.system.manager.Inserted s'.system.manager x := by
  have hOk : (s.system.manager.add (s.system.persist (.ok ())) x).2 = .ok () := by
    rw [Manager.add_eq_ok_iff]
    refine ⟨hItem, hCalm.running, ?_, by simp [Rotations.persist]⟩
    simp [Manager.saturated, hCalm.insertions]
  exact ⟨_, rfl, ⟨rfl, hOk⟩, rfl, rfl, rfl, Manager.add_of_ok hOk⟩

theorem start_calm (numItems : Nat) : Calm (start g numItems none none) := ⟨rfl, rfl, rfl⟩

theorem addressable_of_ttlCovered (hTime : 0 < rotateTime) (h : TtlCovered g rotateTime durations)
    {x : JsString} (hItem : Acceptable x) : BloomFilter.Addressable g.m g.k x := by
  obtain ⟨s', hStep, hInserts, hNow, -, -, hInserted⟩ :=
    exists_insertion rotateTime durations
      (start_calm (g := g) 1) hItem
  have hHas := h 1 none none [] _ _ x s' [] s' (Run.nil _) hStep hInserts (Run.nil _) (by omega)
  rw [Manager.has_eq_ok hItem.not_blank, Manager.covers, hInserted.current, hInserted.previous] at hHas
  have hTest : ((SizedFilter.create g).add x).test x = true := by
    simpa [start, Rotations.start, Manager.init] using hHas
  exact (SizedFilter.test_eq_true_iff.mp hTest).1

/-- A rotation that is quicker than the one before it was late drops what was
inserted right before the earlier swap too soon. -/
theorem durations_of_ttlCovered (hTime : 0 < rotateTime) (h : TtlCovered g rotateTime durations)
    (n : Nat) : min (lag rotateTime durations n) rotateTime ≤ durations (n + 1) := by
  by_contra hShort
  rw [← swapTime_spaced_iff] at hShort
  have hItem : Acceptable [97] := ⟨by decide, by decide, by decide⟩
  obtain ⟨before, s, hBefore, ⟨hTimely, hCalm, -⟩, hSuspended, hDue, hCount⟩ :=
    exists_run_to_swap durations hTime n (start_timely 1 none none)
      (start_calm (g := g) 1) (Nat.zero_le n)
  obtain ⟨s', hStep, hInserts, hNow', hDue', hSuspended', hInserted⟩ :=
    exists_insertion rotateTime durations hCalm hItem
  have hTimely' := step_timely hTimely hStep
  have hFirst := step_resume_eq rotateTime durations
    (hSuspended'.trans hSuspended) (by rw [hNow', hDue', hDue])
  have hCount' := (step_inserts hStep hInserts).2
  obtain ⟨between, u, hBetween, ⟨hTimelyU, hCalmU, -⟩, hSuspendedU, hDueU, hCountU⟩ :=
    exists_run_to_swap durations hTime (n + 1) (step_timely hTimely' hFirst)
      ⟨rfl, rfl, hInserted.shuttingDown.trans hCalm.running⟩
      (by change s'.system.completed + 1 ≤ n + 1; omega)
  have hSecond := step_resume_eq rotateTime durations hSuspendedU hDueU
  have hHas := h 1 none none before s _ [97] s' _ _ hBefore hStep hInserts
    (((Run.single hFirst).trans hBetween).snoc hSecond) (by
      have hNow := (hTimely.suspended hSuspended).2
      have hNowU := (hTimelyU.suspended hSuspendedU).2
      rw [hCount] at hNow
      rw [hCountU] at hNowU
      change u.now < s.now + rotateTime
      omega)
  have hCovers : u.system.manager.swap.covers [97] = false := by
    simp [Manager.covers, Manager.swap, hCalmU.current, SizedFilter.test_create]
  have hAnswer : u.system.manager.swap.covers [97] = true := by
    rw [Manager.has_eq_ok hItem.not_blank] at hHas
    exact Except.ok.inj hHas
  exact absurd (hCovers.symm.trans hAnswer) (by decide)

/-- Items are covered for exactly their validity when each rotation spends at least the lag of
the one before it in `backupRotate`, up to one `rotateTime`. The timer ticks exactly at the
multiples of `rotateTime`: ticks that come late, and rotations on demand, are left out. -/
theorem ttlCovered_iff (hTime : 0 < rotateTime) :
    TtlCovered g rotateTime durations ↔
      (∀ x, Acceptable x → BloomFilter.Addressable g.m g.k x) ∧
        ∀ n, min (lag rotateTime durations n) rotateTime ≤ durations (n + 1) :=
  ⟨fun h => ⟨fun _ hItem => addressable_of_ttlCovered hTime h hItem, durations_of_ttlCovered hTime h⟩,
    fun h => ttlCovered_of_durations h.1 h.2⟩

/-- Rotations that all take the same time cover a one-bucket filter's items. -/
theorem ttlCovered_one_bucket : TtlCovered .oneBucket 2 (fun _ => 1) := by
  refine (ttlCovered_iff (by decide)).mpr ⟨fun x _ => SizedFilter.addressable (by decide) x, ?_⟩
  intro n
  have hLag : ∀ n, lag 2 (fun _ => 1) n = 1 := by
    intro n
    induction n with
    | zero => rfl
    | succ n ih => rw [lag, ih]
  simp [hLag]

/-- The first rotation takes one unit and swaps at 3, the second takes none and
swaps at 4: an item added at 3 is gone at 4, before its validity ends at 5. -/
theorem not_ttlCovered_quick_second_rotation :
    ¬ TtlCovered .oneBucket 2 (fun n => if n = 0 then 1 else 0) := by
  intro h
  have hHas := h 1 none none
    [.advance, .advance, .run .timer, .run .acquire, .advance] _ (.add [97] (.ok ())) [97] _
    [.run (.resume (.ok ())), .advance, .run .timer, .run .acquire, .run (.resume (.ok ()))] _
    (run_of_exec rfl) rfl ⟨rfl, by decide⟩ (run_of_exec rfl) (by decide)
  exact absurd hHas (by decide)

end Clocked

end TokenRevoker
