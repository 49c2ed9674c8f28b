import TokenRevoker.Core.FailedBackup

/-! The generation guard of the periodic backups of one manager, in either mode. Calls, file
operations that fail, sleeping attempts that wake in any order and rotations interleave in
any way; a rotation that has got the backup mutex meets no older backup any more. -/
namespace TokenRevoker

open Text

variable {g : Geometry}

namespace Store

/-- A step of the manager, or any one of the periodic backups that sleep goes on. The order in
which sleeping backups go on is left open. -/
inductive GuardAction (g : Geometry) where
  | core (action : Action g)
  | resume (index : Nat)

/-- `backupLocal` is entered: the mutex goes to a rotation, or to a periodic backup that
passes its second check. -/
def beginsBackupLocal (s : Store g) : GuardAction g → Bool
  | .core .acquire =>
      match s.holder, s.queue with
      | none, .rotation _ :: _ => true
      | none, .periodic capture _ :: _ => capture.generation == s.backups.generation
      | _, _ => false
  | _ => false

/-- `backupLocal` is left: its last operation is over, or it throws. -/
def endsBackupLocal (s : Store g) : GuardAction g → Bool
  | .core (.settle outcome) =>
      match s.holder, outcome with
      | some (_, .truncating), _ => true
      | some (_, .closing (.error _)), _ => true
      | some (_, .opening), .error _ => true
      | some (_, .closing _), .error _ => true
      | some (_, .replacing _), .error _ => true
      | _, _ => false
  | _ => false

/-- The call whose operation on a blob or on the log comes to its end in the step. Opening and
closing the temporary file is not counted: nobody reads it. -/
def performs (s : Store g) : GuardAction g → Option Job
  | .core (.written _) | .core (.settle _) | .core (.promote _) => s.holder.map (·.1)
  | _ => none

/-- The holder of the mutex is suspended inside `backupLocal`. -/
def inBackupLocal (s : Store g) : Bool :=
  match s.holder with
  | none | some (_, .promoting) => false
  | _ => true

end Store

/-- A manager with the number of times that `backupLocal` was entered and left. The counters are
there to be compared, nothing depends on them. -/
structure GuardedStore (g : Geometry) where
  store : Store g
  entered : Nat := 0
  left : Nat := 0

namespace GuardedStore

open Store

/-- No reset, no teardown and no crash. -/
def stepStore (s : Store g) : GuardAction g → Option (Store g)
  | .core .crash => none
  | .core action => s.step action
  | .resume index =>
      (s.retrying[index]?).map fun sleeping =>
        { s with retrying := s.retrying.eraseIdx index }.attempt sleeping.1 sleeping.2

def step (s : GuardedStore g) (a : GuardAction g) : Option (GuardedStore g) :=
  (stepStore s.store a).map fun store =>
    ⟨store, s.entered + (s.store.beginsBackupLocal a).toNat, s.left + (s.store.endsBackupLocal a).toNat⟩

/-- A manager after its constructor. -/
def start (g : Geometry) (numItems : Nat) (periodic bufferEnabled : Bool) (maxBufferSize : Nat)
    (disk : Disk) : GuardedStore g :=
  ⟨{ boot g numItems periodic disk with
      backups := { bufferEnabled := bufferEnabled, maxBufferSize := maxBufferSize } }, 0, 0⟩

def Run (g : Geometry) : GuardedStore g → List (GuardAction g) → GuardedStore g → Prop :=
  Transition.Run (Transition.ofStep step)

/-- Once a rotation has got the backup mutex, no backup of a capture that there was by then
performs anything any more; and never are two calls of `backupLocal` under way. -/
structure Guards (initial : GuardedStore g) : Prop where
  stale : ∀ {as bs s t u v a filter capture n}, Run g initial as s → step s (.core .acquire) = some t →
    t.store.holder = some (.rotation filter, .opening) → Run g t bs u → step u a = some v →
    u.store.performs a = some (.periodic capture n) → ¬ t.store.Known capture
  single : ∀ {as s}, Run g initial as s → s.entered ≤ s.left + 1

end GuardedStore

namespace Store

variable {s t : Store g} {a : Action g}

theorem backupItem_frame (backups : BackupManager) (disk : Disk) (failures : List AppendFailure)
    (item : JsString) : ∃ writeBuffer temp outcome, backups.backupItem disk failures item =
      ({ backups with writeBuffer := writeBuffer }, { disk with temp := temp }, outcome) := by
  unfold BackupManager.backupItem
  split_ifs
  · exact ⟨_, _, _, rfl⟩
  · exact ⟨_, _, _, rfl⟩
  · exact ⟨_, _, _, rfl⟩

/-- A call changes the filters, the buffer and the log. -/
inductive Touched (s t : Store g) : Prop where
  | intro (manager : Manager g) (writeBuffer : List JsString) (temp : Bytes)
      (eq : t = { s with
        manager := manager
        backups := { s.backups with writeBuffer := writeBuffer }
        disk := { s.disk with temp := temp } })

theorem enter_touched (s : Store g) (call : Except String Unit → Manager g × Except RevokerError Unit)
    (failures : List AppendFailure) (item : JsString) : Touched s (s.enter call failures item).1 := by
  obtain ⟨writeBuffer, temp, outcome, hBackup⟩ := backupItem_frame s.backups s.disk failures item
  unfold enter
  rcases call (.ok ()) with ⟨manager, error | _⟩
  · exact .intro manager s.backups.writeBuffer s.disk.temp rfl
  · simp only [hBackup]
    exact .intro _ writeBuffer temp rfl

theorem add_touched (s : Store g) (failures : List AppendFailure) (item : JsString) :
    Touched s (s.add failures item).1 := by
  rw [add_eq_enter]
  exact enter_touched s _ failures item

theorem applyEntry_touched (s : Store g) (failures : List AppendFailure) (item : JsString) :
    Touched s (s.applyEntry failures item).1 := by
  rw [applyEntry_eq_enter]
  exact enter_touched s _ failures item

/-- A step is a call, or nothing fails, or an operation of the backup does, in either mode. -/
theorem step_touched_cases (h : step s a = some t) : Touched s t ∨ Effect s a t ∨ Faulted s a t := by
  cases a with
  | add item failures =>
      cases h
      exact .inl (add_touched s failures item)
  | applyEntry item failures =>
      cases h
      exact .inl (applyEntry_touched s failures item)
  | _ => exact .inr (step_cases_of_not_call (by simp) (by simp) h)

theorem Touched.inTurn (touched : Touched s t) (h : InTurn Eq s) : InTurn Eq t := by
  obtain ⟨manager, writeBuffer, temp, rfl⟩ := touched
  exact h.congr rfl rfl rfl rfl rfl rfl rfl

/-- A capture that sleeps, taken up out of its turn. -/
theorem InTurn.resume (h : InTurn Eq s) {index : Nat} {sleeping : Capture × Nat}
    (hSleeping : s.retrying[index]? = some sleeping) :
    InTurn Eq ({ s with retrying := s.retrying.eraseIdx index }.attempt sleeping.1 sleeping.2) := by
  have hKnown : s.Known sleeping.1 := .inr (.inl ⟨sleeping.2, List.mem_of_getElem? hSleeping⟩)
  have hRest : InTurn Eq { s with retrying := s.retrying.eraseIdx index } := by
    refine h.keep rfl rfl rfl ?_ rfl h.holds
    rintro other (hInterval | ⟨n, hMem⟩ | hJobs)
    · exact .inl hInterval
    · exact .inr (.inl ⟨n, List.mem_of_mem_eraseIdx hMem⟩)
    · exact .inr (.inr hJobs)
  exact hRest.attempt (h.captured _ hKnown).2 _

/-- The mutex passes only to a rotation or to a backup of the current generation, and the
generation only grows. -/
structure Passes (s t : Store g) : Prop where
  generation : s.backups.generation ≤ t.backups.generation
  holder : ∀ capture n phase, t.holder = some (.periodic capture n, phase) →
    (∃ phase', s.holder = some (.periodic capture n, phase')) ∨ capture.generation = s.backups.generation

theorem Passes.keep (hGeneration : t.backups.generation = s.backups.generation)
    (hHolder : t.holder = s.holder) : Passes s t :=
  ⟨hGeneration.ge, fun _ _ phase h => .inl ⟨phase, by rw [← hHolder, h]⟩⟩

theorem Passes.advance {job : Job} {phase phase' : Phase g} (disk : Disk)
    (hHolder : s.holder = some (job, phase)) :
    Passes s { s with disk := disk, holder := some (job, phase') } := by
  refine ⟨le_rfl, fun capture n _ h => .inl ⟨phase, ?_⟩⟩
  cases h
  exact hHolder

theorem Passes.free (hGeneration : t.backups.generation = s.backups.generation) (hFree : t.holder = none) :
    Passes s t :=
  ⟨hGeneration.ge, by simp [hFree]⟩

theorem Passes.attempt (s : Store g) (capture : Capture) (n : Nat) : Passes s (s.attempt capture n) := by
  obtain ⟨-, hBackups, -, hHolder, -⟩ := attempt_frame s capture n
  exact .keep (by rw [hBackups]) hHolder

theorem Effect.passes (effect : Effect s a t) (hLives : a ≠ .crash) : Passes s t := by
  cases effect with
  | called call isCall =>
      obtain ⟨hBackups, -, -, -, -, hHolder, -⟩ := call.frame
      exact .keep (by rw [hBackups]) hHolder
  | requested | skipped | swapped => exact .keep rfl rfl
  | began hFree => exact ⟨Nat.le_succ _, fun _ _ phase h => .inl ⟨phase, h⟩⟩
  | ticked capture hInterval => exact .attempt s capture 0
  | retried capture n rest hRetrying =>
      have hAttempt := Passes.attempt { s with retrying := rest } capture n
      exact ⟨hAttempt.generation, hAttempt.holder⟩
  | opened job rest hFree hQueue hFresh =>
      refine ⟨le_rfl, fun capture n _ h => .inr ?_⟩
      cases h
      exact hFresh capture n rfl
  | handed job _ hHolder | written job _ _ _ hHolder | synced job _ hHolder | closed job _ hHolder =>
      exact .advance s.disk hHolder
  | abandoned job message hHolder => exact .free (by rw [fail_backups]) (fail_holder s job)
  | renamed job bytes hHolder => exact .advance _ hHolder
  | cleared job hHolder =>
      split_ifs
      · exact .advance _ hHolder
      · exact .free rfl rfl
  | promoted job hHolder => exact .free rfl rfl
  | crashed => exact absurd rfl hLives

theorem Faulted.passes (fault : Faulted s a t) : Passes s t := by
  cases fault with
  | closing job phase message hHolder hPhase => exact .advance s.disk hHolder
  | failed job phase message hHolder => exact .free (by rw [fail_backups]) (fail_holder s job)
  | unpromoted job message hHolder => exact .free rfl rfl

/-- An operation ends, and with it perhaps `backupLocal`. -/
theorem proceed_inBackupLocal {job : Job} {phase : Phase g} {outcome : Except String Unit}
    (hHolder : s.holder = some (job, phase)) (h : s.proceed job phase outcome = some t) :
    s.inBackupLocal = true ∧
      t.inBackupLocal = !s.endsBackupLocal (.core (.settle outcome)) := by
  cases phase with
  | opening =>
      cases outcome with
      | error message =>
          cases h
          simp [inBackupLocal, endsBackupLocal, hHolder, fail_holder]
      | ok =>
          obtain ⟨filter, -, rfl⟩ := Option.map_eq_some_iff.mp h
          simp [inBackupLocal, endsBackupLocal, hHolder]
  | writing handed =>
      cases outcome with
      | error message =>
          cases h
          simp [inBackupLocal, endsBackupLocal, hHolder]
      | ok => cases h
  | syncing written =>
      cases outcome <;> cases h <;> simp [inBackupLocal, endsBackupLocal, hHolder]
  | closing written =>
      cases written <;> cases outcome <;> cases h <;>
        simp [inBackupLocal, endsBackupLocal, hHolder, fail_holder]
  | replacing written =>
      cases outcome <;> cases h <;> simp [inBackupLocal, endsBackupLocal, hHolder, fail_holder]
  | truncating =>
      cases outcome with
      | error message =>
          cases h
          simp [inBackupLocal, endsBackupLocal, hHolder, fail_holder]
      | ok => cases job <;> cases h <;> simp [inBackupLocal, endsBackupLocal, hHolder]
  | promoting => cases outcome <;> cases h

theorem inBackupLocal_congr (h : t.holder = s.holder) : t.inBackupLocal = s.inBackupLocal := by
  rw [inBackupLocal, inBackupLocal, h]

/-- The mutex is taken by one call only, which is inside `backupLocal` from then on. -/
theorem step_inBackupLocal (h : step s a = some t) (hLives : a ≠ .crash) :
    s.inBackupLocal.toNat + (s.beginsBackupLocal (.core a)).toNat =
      t.inBackupLocal.toNat + (s.endsBackupLocal (.core a)).toNat := by
  have hSame : t.holder = s.holder → s.beginsBackupLocal (.core a) = false →
      s.endsBackupLocal (.core a) = false →
      s.inBackupLocal.toNat + (s.beginsBackupLocal (.core a)).toNat =
        t.inBackupLocal.toNat + (s.endsBackupLocal (.core a)).toNat := by
    intro hHolder hBegins hEnds
    rw [inBackupLocal_congr hHolder, hBegins, hEnds]
  cases a with
  | add item failures =>
      cases h
      obtain ⟨_, _, _, hEq⟩ := add_touched s failures item
      exact hSame (by rw [hEq]) rfl rfl
  | applyEntry item failures =>
      cases h
      obtain ⟨_, _, _, hEq⟩ := applyEntry_touched s failures item
      exact hSame (by rw [hEq]) rfl rfl
  | requestRotation =>
      cases h
      exact hSame rfl rfl rfl
  | rotate =>
      simp only [step, Option.ite_none_left_eq_some, Option.some.injEq] at h
      exact hSame (by rw [← h.2]) rfl rfl
  | tick =>
      obtain ⟨capture, -, rfl⟩ := Option.map_eq_some_iff.mp h
      exact hSame (attempt_frame s capture 0).2.2.2.1 rfl rfl
  | retry =>
      simp only [step] at h
      split at h
      · cases h
      · cases h
        exact hSame (attempt_frame _ _ _).2.2.2.1 rfl rfl
  | acquire =>
      simp only [step] at h
      split at h
      · rename_i job rest hFree hQueue
        cases job with
        | periodic capture n =>
            cases hFresh : capture.generation == s.backups.generation <;>
              simp [hFresh, bne] at h <;> subst h <;>
              simp [inBackupLocal, beginsBackupLocal, endsBackupLocal, hFree, hQueue, hFresh]
        | rotation filter =>
            simp at h
            subst h
            simp [inBackupLocal, beginsBackupLocal, endsBackupLocal, hFree, hQueue]
      · cases h
  | written captured =>
      simp only [step] at h
      split at h
      · rename_i job handed hHolder
        obtain ⟨live, -, hWithin⟩ := Option.bind_eq_some_iff.mp h
        simp only [Option.ite_none_right_eq_some, Option.some.injEq] at hWithin
        rw [← hWithin.2]
        simp [inBackupLocal, beginsBackupLocal, endsBackupLocal, hHolder]
      · cases h
  | settle outcome =>
      simp only [step] at h
      split at h
      · rename_i job phase hHolder
        obtain ⟨hInside, hNext⟩ := proceed_inBackupLocal hHolder h
        rw [hInside, hNext]
        cases s.endsBackupLocal (.core (.settle outcome)) <;> rfl
      · cases h
  | promote outcome =>
      simp only [step] at h
      split at h
      · rename_i job hHolder
        cases outcome <;> cases h <;> simp [inBackupLocal, beginsBackupLocal, endsBackupLocal, hHolder]
      · cases h
  | swap =>
      simp only [step, Option.ite_none_right_eq_some, Option.some.injEq] at h
      exact hSame (by rw [← h.2]) rfl rfl
  | crash => exact absurd rfl hLives

end Store

namespace GuardedStore

open Store

variable {s t u v : GuardedStore g} {a : GuardAction g}

theorem stepStore_cases {s t : Store g} (h : stepStore s a = some t) :
    (∃ action, a = .core action ∧ action ≠ .crash ∧ Store.step s action = some t) ∨
      ∃ index sleeping, a = .resume index ∧ s.retrying[index]? = some sleeping ∧
        t = { s with retrying := s.retrying.eraseIdx index }.attempt sleeping.1 sleeping.2 := by
  cases a with
  | core action =>
      cases action with
      | crash => cases h
      | _ => exact .inl ⟨_, rfl, by simp, h⟩
  | resume index =>
      obtain ⟨sleeping, hSleeping, rfl⟩ := Option.map_eq_some_iff.mp h
      exact .inr ⟨index, sleeping, rfl, hSleeping, rfl⟩

theorem stepStore_inTurn {s t : Store g} (hStep : stepStore s a = some t) (h : InTurn Eq s) : InTurn Eq t := by
  rcases stepStore_cases hStep with ⟨action, -, -, hCore⟩ | ⟨index, sleeping, -, hSleeping, rfl⟩
  · rcases step_touched_cases hCore with touched | effect | fault
    · exact touched.inTurn h
    · exact effect.inTurn Eq.refl h
    · exact fault.inTurn h
  · exact h.resume hSleeping

theorem stepStore_passes {s t : Store g} (hStep : stepStore s a = some t) : Passes s t := by
  rcases stepStore_cases hStep with ⟨action, -, hLives, hCore⟩ | ⟨index, sleeping, -, -, rfl⟩
  · rcases step_touched_cases hCore with ⟨manager, writeBuffer, temp, rfl⟩ | effect | fault
    · exact .keep rfl rfl
    · exact effect.passes hLives
    · exact fault.passes
  · have hAttempt := Passes.attempt { s with retrying := s.retrying.eraseIdx index } sleeping.1 sleeping.2
    exact ⟨hAttempt.generation, hAttempt.holder⟩

/-- Every call that was entered and not left is the one inside `backupLocal`. So the two counts
differ by one at most. -/
structure Counted (s : GuardedStore g) : Prop where
  inTurn : InTurn Eq s.store
  calls : s.entered = s.left + s.store.inBackupLocal.toNat

theorem start_counted (numItems : Nat) (periodic bufferEnabled : Bool) (maxBufferSize : Nat) (disk : Disk) :
    Counted (start g numItems periodic bufferEnabled maxBufferSize disk) where
  inTurn := (boot_inTurn Eq.refl numItems periodic disk).congr rfl rfl rfl rfl rfl rfl rfl
  calls := rfl

theorem Counted.step (h : Counted s) (hStep : step s a = some t) : Counted t := by
  obtain ⟨store, hStore, rfl⟩ := Option.map_eq_some_iff.mp hStep
  refine ⟨stepStore_inTurn hStore h.inTurn, ?_⟩
  have hCalls := h.calls
  change s.entered + (s.store.beginsBackupLocal a).toNat =
    s.left + (s.store.endsBackupLocal a).toNat + store.inBackupLocal.toNat
  rcases stepStore_cases hStore with ⟨action, rfl, hLives, hCore⟩ | ⟨index, sleeping, rfl, -, rfl⟩
  · have := step_inBackupLocal hCore hLives
    omega
  · rw [inBackupLocal_congr (attempt_frame _ _ _).2.2.2.1]
    exact hCalls

theorem Counted.run {as : List (GuardAction g)} (h : Counted s) (run : Run g s as t) : Counted t :=
  Transition.Run.invariant (fun _ _ _ h hStep => Counted.step h hStep) run h

/-- The generation has reached `bound`, and a periodic backup that holds the mutex is of no
generation before. -/
structure Since (bound : Nat) (s : Store g) : Prop where
  generation : bound ≤ s.backups.generation
  holder : ∀ capture n phase, s.holder = some (.periodic capture n, phase) → bound ≤ capture.generation

theorem Since.step {bound : Nat} {s t : Store g} (h : Since bound s) (hStep : stepStore s a = some t) :
    Since bound t := by
  have hPasses := stepStore_passes hStep
  refine ⟨h.generation.trans hPasses.generation, fun capture n phase hHolder => ?_⟩
  rcases hPasses.holder capture n phase hHolder with ⟨phase', hOld⟩ | hFresh
  · exact h.holder capture n phase' hOld
  · exact hFresh ▸ h.generation

theorem Since.run {bound : Nat} {as : List (GuardAction g)} (h : Since bound s.store) (run : Run g s as t) :
    Since bound t.store := by
  refine Transition.Run.invariant (P := fun s : GuardedStore g => Since bound s.store) ?_ run h
  intro s a t h hStep
  obtain ⟨store, hStore, rfl⟩ := Option.map_eq_some_iff.mp hStep
  exact h.step hStore

/-- When a rotation has the mutex, every capture there is stands for an older generation. -/
theorem known_lt {s : Store g} (h : InTurn Eq s) {filter : Nat} {phase : Phase g}
    (hHolder : s.holder = some (.rotation filter, phase)) {capture : Capture} (hKnown : s.Known capture) :
    capture.generation < s.backups.generation := by
  have hStage : s.rotating = some .backingUp := by
    by_contra hOther
    have hRotations := h.rotations
    rw [if_neg hOther, jobs_of_held hHolder] at hRotations
    simp [Job.isRotation] at hRotations
  obtain ⟨hLe, hFresh⟩ := h.captured capture hKnown
  refine lt_of_le_of_ne hLe fun hEq => ?_
  have hNone := (hFresh hEq).1
  rw [hStage] at hNone
  cases hNone

/-- The generation guard: from the moment a rotation has the backup mutex, no backup that was
scheduled before performs anything, and at no time are two backups under way. Backups that are
scheduled later are free to run. -/
theorem guards (numItems : Nat) (periodic bufferEnabled : Bool) (maxBufferSize : Nat) (disk : Disk) :
    Guards (start g numItems periodic bufferEnabled maxBufferSize disk) where
  stale := by
    intro as bs s t u v a filter capture n before hAcquire hHolder after hStep hPerforms hKnown
    have hTurn := (((start_counted numItems periodic bufferEnabled maxBufferSize disk).run before).step
      hAcquire).inTurn
    have hOld := known_lt hTurn hHolder hKnown
    have hSince : Since t.store.backups.generation t.store := ⟨le_rfl, by simp [hHolder]⟩
    obtain ⟨phase, hOwner⟩ : ∃ phase, u.store.holder = some (.periodic capture n, phase) := by
      unfold performs at hPerforms
      split at hPerforms
      · obtain ⟨⟨job, phase⟩, hOwner, rfl⟩ := Option.map_eq_some_iff.mp hPerforms
        exact ⟨phase, hOwner⟩
      · obtain ⟨⟨job, phase⟩, hOwner, rfl⟩ := Option.map_eq_some_iff.mp hPerforms
        exact ⟨phase, hOwner⟩
      · obtain ⟨⟨job, phase⟩, hOwner, rfl⟩ := Option.map_eq_some_iff.mp hPerforms
        exact ⟨phase, hOwner⟩
      · cases hPerforms
    have hNew := (hSince.run after).holder capture n phase hOwner
    omega
  single := by
    intro as s run
    have hCalls := ((start_counted numItems periodic bufferEnabled maxBufferSize disk).run run).calls
    have := Bool.toNat_le s.store.inBackupLocal
    omega

end GuardedStore

end TokenRevoker
