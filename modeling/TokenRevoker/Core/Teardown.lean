import TokenRevoker.Core.Store

/-! The file operations of a manager and its teardown. `destroy` clears the timers and
forgets the backup manager; what is suspended on a file, on the backup mutex or before a
retry holds its own references and goes on. -/
namespace TokenRevoker

open Text Transition

/-- What changes the current, the previous or the temp file. Reads and the audit log are left
out. -/
inductive FileOperation where
  | append
  | rename
  | truncate
  | promote
  deriving DecidableEq

/-- A periodic backup, by the generation it was scheduled in and its attempt, or the one of
a rotation. -/
inductive BackupJob where
  | periodic (generation attempt : Nat)
  | rotation
  deriving DecidableEq

/-- Where `backupLocal` is suspended, or `backupRotate` after it. The file is closed also
where it could not be written. -/
inductive BackupPhase where
  | opening
  | writing
  | syncing
  | closing (written : Bool)
  | replacing
  | truncating
  | promoting
  deriving DecidableEq

/-- Who waits for the mutex of the manager. -/
inductive MutexCaller where
  | rotation
  | shutdown
  deriving DecidableEq

/-- Who awaits `#flushWriteBuffer`. -/
inductive FlushCaller where
  | interval
  | shutdown
  deriving DecidableEq

/-- A manager with a backup manager, as far as its files go. What is written does not matter,
only whether something is. -/
structure FileActivity where
  bufferEnabled : Bool
  maxBufferSize : Nat
  writeBuffer : List JsString := []
  generation : Nat := 0
  /-- The generation that the backup interval captured. -/
  backupInterval : Option Nat
  writeInterval : Bool
  /-- The backup mutex: who waits, in order, and who holds it. -/
  queue : List BackupJob := []
  holder : Option (BackupJob × BackupPhase) := none
  /-- Periodic backups that sleep before their next attempt. -/
  retrying : List (Nat × Nat) := []
  /-- Appends of the write buffer that have not settled. -/
  flushing : List FlushCaller := []
  /-- The mutex of the manager: who waits, in order, and the rotation that holds it. -/
  waiting : List MutexCaller := []
  rotating : Option RotationStage := none
  /-- Calls of `shutdown` that are about to destroy. -/
  flushed : Nat := 0
  shuttingDown : Bool := false
  destroyed : Bool := false
  operations : List FileOperation := []
  deriving DecidableEq

namespace FileActivity

inductive Action where
  | backupItem (filterItem : JsString) (succeeded : Bool)
  | requestRotation
  | shutdown
  | destroy
  | acquireMutex
  | swap
  | backupTick
  | retry (index : Nat)
  | acquireBackup
  | settle (succeeded : Bool)
  | flushTick
  | appended (index : Nat) (succeeded : Bool)
  | destroyFlushed
  deriving DecidableEq

def init (bufferEnabled periodic : Bool) (maxBufferSize : Nat) : FileActivity where
  bufferEnabled := bufferEnabled
  maxBufferSize := maxBufferSize
  backupInterval := if periodic then some 0 else none
  writeInterval := bufferEnabled

def perform (s : FileActivity) (operation : FileOperation) : FileActivity :=
  { s with operations := s.operations ++ [operation] }

/-- `BloomFilterManager.destroy`. -/
def teardown (s : FileActivity) : FileActivity :=
  { s with backupInterval := none, writeInterval := false, shuttingDown := true, destroyed := true }

/-- `#flushWriteBuffer` up to its await. -/
def flushWriteBuffer (s : FileActivity) (caller : FlushCaller) : FileActivity :=
  if s.writeBuffer.isEmpty then
    match caller with
    | .interval => s
    | .shutdown => { s with flushed := s.flushed + 1 }
  else { s with flushing := s.flushing ++ [caller] }

/-- `#backupWithRetry` makes an attempt unless the filter has rotated since. -/
def attempt (s : FileActivity) (generation attempt : Nat) : FileActivity :=
  if generation = s.generation then { s with queue := s.queue ++ [.periodic generation attempt] } else s

/-- `backupLocal` has failed. -/
def fail (s : FileActivity) : BackupJob → FileActivity
  | .periodic generation attempt => { s with
      holder := none
      retrying := if attempt < 2 then s.retrying ++ [(generation, attempt + 1)] else s.retrying }
  | .rotation => { s with holder := none, rotating := some .swapping }

/-- `backupLocal` has emptied the temp file. -/
def truncated (s : FileActivity) : BackupJob → FileActivity
  | .periodic _ _ => { s.perform .truncate with holder := none }
  | .rotation => { s.perform .truncate with holder := some (.rotation, .promoting) }

/-- What follows the operation that the holder of the backup mutex awaits. -/
def proceed (s : FileActivity) (job : BackupJob) : BackupPhase → Bool → FileActivity
  | .opening, true => { s with holder := some (job, .writing) }
  | .writing, true => { s with holder := some (job, .syncing) }
  | .writing, false | .syncing, false => { s with holder := some (job, .closing false) }
  | .syncing, true => { s with holder := some (job, .closing true) }
  | .closing true, true => { s with holder := some (job, .replacing) }
  | .replacing, true => { s.perform .rename with holder := some (job, .truncating) }
  | .truncating, true => s.truncated job
  | .promoting, true => { s.perform .promote with holder := none, rotating := some .swapping }
  | .promoting, false => { s with holder := none, rotating := some .swapping }
  | .opening, false | .closing false, _ | .closing true, false | .replacing, false | .truncating, false =>
      s.fail job

/-- One synchronous stretch of the program, `none` where it cannot run now. -/
def step (s : FileActivity) : Action → Option FileActivity
  | .backupItem filterItem succeeded =>
      -- `add` and `applyEntry` refuse before they come to the backup manager
      if s.shuttingDown then some s
      else if s.bufferEnabled then
        if s.maxBufferSize ≤ s.writeBuffer.length then some s
        else some { s with writeBuffer := s.writeBuffer ++ [filterItem] }
      else if succeeded then some (s.perform .append)
      else some s
  | .requestRotation => some { s with waiting := s.waiting ++ [.rotation] }
  | .shutdown => some { s with shuttingDown := true, waiting := s.waiting ++ [.shutdown] }
  | .destroy => some s.teardown
  | .acquireMutex =>
      match s.rotating, s.waiting with
      | none, .rotation :: rest =>
          -- without a backup manager the rotation is one of the filters alone
          if s.destroyed then some { s with waiting := rest }
          else some { s with
            waiting := rest
            generation := s.generation + 1
            queue := s.queue ++ [.rotation]
            rotating := some .backingUp }
      | none, .shutdown :: rest =>
          let released : FileActivity := { s with waiting := rest }
          if !s.destroyed && s.bufferEnabled then some (released.flushWriteBuffer .shutdown)
          else some { released with flushed := s.flushed + 1 }
      | _, _ => none
  | .swap =>
      if s.rotating = some .swapping then
        some { s with rotating := none, backupInterval := s.backupInterval.map fun _ => s.generation }
      else none
  | .backupTick => s.backupInterval.map fun generation => s.attempt generation 0
  | .retry index =>
      s.retrying[index]?.map fun retry =>
        { s with retrying := s.retrying.eraseIdx index }.attempt retry.1 retry.2
  | .acquireBackup =>
      match s.holder, s.queue with
      | none, .periodic generation attempt :: rest =>
          if generation = s.generation then
            some { s with queue := rest, holder := some (.periodic generation attempt, .opening) }
          else some { s with queue := rest }
      | none, .rotation :: rest => some { s with queue := rest, holder := some (.rotation, .opening) }
      | _, _ => none
  | .settle succeeded => s.holder.map fun holder => s.proceed holder.1 holder.2 succeeded
  | .flushTick => if s.writeInterval then some (s.flushWriteBuffer .interval) else none
  | .appended index succeeded =>
      s.flushing[index]?.map fun caller =>
        let settled : FileActivity := { s with flushing := s.flushing.eraseIdx index }
        let written : FileActivity :=
          if succeeded then { settled.perform .append with writeBuffer := [] } else settled
        match caller with
        | .interval => written
        | .shutdown => { written with flushed := s.flushed + 1 }
  | .destroyFlushed => if 0 < s.flushed then some { s.teardown with flushed := s.flushed - 1 } else none

/-- A backup that goes on once its turn has come. -/
def live (s : FileActivity) : BackupJob → Bool
  | .periodic generation _ => generation = s.generation
  | .rotation => true

/-- The holder of the backup mutex has failed for the last time. Its attempts are over, so it
waits for nothing but its last release. -/
def spent (s : FileActivity) : BackupJob × BackupPhase → Bool
  | (.periodic generation attempt, .closing false) => generation ≠ s.generation || 2 ≤ attempt
  | (.rotation, .closing false) => true
  | _ => false

/-- No backup, retry or append is under way that can still come to a file. It can be read off
the state, without looking at runs. -/
structure Settled (s : FileActivity) : Prop where
  holder : ∀ holder ∈ s.holder, s.spent holder = true
  queue : ∀ job ∈ s.queue, s.live job = false
  retrying : ∀ retry ∈ s.retrying, retry.1 ≠ s.generation
  flushing : s.flushing = []

instance (s : FileActivity) : Decidable s.Settled :=
  decidable_of_iff ((∀ holder ∈ s.holder, s.spent holder = true) ∧ (∀ job ∈ s.queue, s.live job = false) ∧
      (∀ retry ∈ s.retrying, retry.1 ≠ s.generation) ∧ s.flushing = [])
    ⟨fun ⟨hHolder, hQueue, hRetrying, hFlushing⟩ => ⟨hHolder, hQueue, hRetrying, hFlushing⟩,
      fun h => ⟨h.holder, h.queue, h.retrying, h.flushing⟩⟩

/-- Nothing that the manager still does changes a file. It is about all runs from here, since
the manager is destroyed already. -/
def Quiesced (s : FileActivity) : Prop :=
  ∀ actions t, Run (ofStep step) s actions t → t.operations = s.operations

/-- What `destroy` leaves behind for good. Late callbacks may run, but find no timer to start.
-/
structure TornDown (s : FileActivity) : Prop where
  shuttingDown : s.shuttingDown = true
  backupInterval : s.backupInterval = none
  writeInterval : s.writeInterval = false

variable {s t : FileActivity} {a : Action}

/-- The timers and the flags are as before. -/
structure SameTimers (s t : FileActivity) : Prop where
  destroyed : t.destroyed = s.destroyed
  shuttingDown : t.shuttingDown = s.shuttingDown
  backupInterval : t.backupInterval = s.backupInterval
  writeInterval : t.writeInterval = s.writeInterval

theorem flushWriteBuffer_sameTimers (s : FileActivity) (caller : FlushCaller) :
    SameTimers s (s.flushWriteBuffer caller) := by
  unfold flushWriteBuffer
  split_ifs
  · cases caller <;> exact ⟨rfl, rfl, rfl, rfl⟩
  · exact ⟨rfl, rfl, rfl, rfl⟩

theorem attempt_sameTimers (s : FileActivity) (generation attempt : Nat) :
    SameTimers s (s.attempt generation attempt) := by
  unfold FileActivity.attempt
  split_ifs <;> exact ⟨rfl, rfl, rfl, rfl⟩

theorem fail_sameTimers (s : FileActivity) (job : BackupJob) : SameTimers s (s.fail job) := by
  cases job <;> exact ⟨rfl, rfl, rfl, rfl⟩

theorem proceed_sameTimers (s : FileActivity) (job : BackupJob) (phase : BackupPhase) (succeeded : Bool) :
    SameTimers s (s.proceed job phase succeeded) := by
  have hTruncated : SameTimers s (s.truncated job) := by cases job <;> exact ⟨rfl, rfl, rfl, rfl⟩
  unfold proceed
  split <;> first
    | exact ⟨rfl, rfl, rfl, rfl⟩
    | exact hTruncated
    | exact fail_sameTimers s job

/-- Only these four actions come to the timers or to the flags. -/
theorem step_sameTimers (hStep : s.step a = some t) (hShutdown : a ≠ .shutdown) (hDestroy : a ≠ .destroy)
    (hSwap : a ≠ .swap) (hFlushed : a ≠ .destroyFlushed) : SameTimers s t := by
  cases a with
  | backupItem filterItem succeeded =>
      simp only [step] at hStep
      split_ifs at hStep <;> cases hStep <;> exact ⟨rfl, rfl, rfl, rfl⟩
  | requestRotation =>
      cases hStep
      exact ⟨rfl, rfl, rfl, rfl⟩
  | acquireMutex =>
      simp only [step] at hStep
      split at hStep
      · split_ifs at hStep <;> cases hStep <;> exact ⟨rfl, rfl, rfl, rfl⟩
      · rename_i rest _ _
        split_ifs at hStep
        · cases hStep
          have hFlush := flushWriteBuffer_sameTimers { s with waiting := rest } .shutdown
          exact ⟨hFlush.destroyed, hFlush.shuttingDown, hFlush.backupInterval, hFlush.writeInterval⟩
        · cases hStep
          exact ⟨rfl, rfl, rfl, rfl⟩
      · cases hStep
  | backupTick =>
      obtain ⟨generation, -, rfl⟩ := Option.map_eq_some_iff.mp hStep
      exact attempt_sameTimers s generation 0
  | retry index =>
      obtain ⟨retry, -, rfl⟩ := Option.map_eq_some_iff.mp hStep
      have hAttempt := attempt_sameTimers { s with retrying := s.retrying.eraseIdx index } retry.1 retry.2
      exact ⟨hAttempt.destroyed, hAttempt.shuttingDown, hAttempt.backupInterval, hAttempt.writeInterval⟩
  | acquireBackup =>
      simp only [step] at hStep
      split at hStep
      · split_ifs at hStep <;> cases hStep <;> exact ⟨rfl, rfl, rfl, rfl⟩
      · cases hStep
        exact ⟨rfl, rfl, rfl, rfl⟩
      · cases hStep
  | settle succeeded =>
      obtain ⟨⟨job, phase⟩, -, rfl⟩ := Option.map_eq_some_iff.mp hStep
      exact proceed_sameTimers s job phase succeeded
  | flushTick =>
      simp only [step] at hStep
      split_ifs at hStep
      cases hStep
      exact flushWriteBuffer_sameTimers s .interval
  | appended index succeeded =>
      obtain ⟨caller, -, rfl⟩ := Option.map_eq_some_iff.mp hStep
      cases caller <;> cases succeeded <;> exact ⟨rfl, rfl, rfl, rfl⟩
  | shutdown => exact absurd rfl hShutdown
  | destroy => exact absurd rfl hDestroy
  | swap => exact absurd rfl hSwap
  | destroyFlushed => exact absurd rfl hFlushed

theorem step_destroyed (hStep : s.step a = some t) (h : s.destroyed = true) : t.destroyed = true := by
  cases a with
  | shutdown =>
      cases hStep
      exact h
  | destroy =>
      cases hStep
      rfl
  | swap =>
      simp only [step] at hStep
      split_ifs at hStep
      cases hStep
      exact h
  | destroyFlushed =>
      simp only [step] at hStep
      split_ifs at hStep
      cases hStep
      rfl
  | _ => exact (step_sameTimers hStep (by simp) (by simp) (by simp) (by simp)).destroyed.trans h

/-- A manager that is not destroyed is free; a destroyed one has no timers any more. -/
theorem tornDown_step (h : s.destroyed = true → s.TornDown) (hStep : s.step a = some t) :
    t.destroyed = true → t.TornDown := by
  cases a with
  | shutdown =>
      cases hStep
      intro hDestroyed
      exact ⟨rfl, (h hDestroyed).backupInterval, (h hDestroyed).writeInterval⟩
  | destroy =>
      cases hStep
      exact fun _ => ⟨rfl, rfl, rfl⟩
  | swap =>
      simp only [step] at hStep
      split_ifs at hStep
      cases hStep
      intro hDestroyed
      have hTorn := h hDestroyed
      exact ⟨hTorn.shuttingDown, by rw [hTorn.backupInterval]; rfl, hTorn.writeInterval⟩
  | destroyFlushed =>
      simp only [step] at hStep
      split_ifs at hStep
      cases hStep
      exact fun _ => ⟨rfl, rfl, rfl⟩
  | _ =>
      have hSame := step_sameTimers hStep (by simp) (by simp) (by simp) (by simp)
      intro hDestroyed
      obtain ⟨hShut, hBackup, hWrite⟩ := h (hSame.destroyed.symm.trans hDestroyed)
      exact ⟨hSame.shuttingDown.trans hShut, hSame.backupInterval.trans hBackup,
        hSame.writeInterval.trans hWrite⟩

/-- Only a backup that could not be written is spent. -/
theorem phase_of_spent {job : BackupJob} {phase : BackupPhase} (h : s.spent (job, phase) = true) :
    phase = .closing false := by
  cases phase with
  | closing written =>
      cases written with
      | true => cases job <;> cases h
      | false => rfl
  | opening | writing | syncing | replacing | truncating | promoting => cases job <;> cases h

/-- A destroyed manager with nothing left to do performs no operation and gets nothing to do. -/
theorem Settled.step (h : s.Settled) (hDestroyed : s.destroyed = true) (hTorn : s.TornDown)
    (hStep : s.step a = some t) :
    t.Settled ∧ t.destroyed = true ∧ t.operations = s.operations := by
  cases a with
  | backupItem filterItem succeeded =>
      simp only [FileActivity.step, hTorn.shuttingDown, if_true] at hStep
      cases hStep
      exact ⟨h, hDestroyed, rfl⟩
  | requestRotation | shutdown =>
      cases hStep
      exact ⟨⟨h.holder, h.queue, h.retrying, h.flushing⟩, hDestroyed, rfl⟩
  | destroy =>
      cases hStep
      exact ⟨⟨h.holder, h.queue, h.retrying, h.flushing⟩, rfl, rfl⟩
  | acquireMutex =>
      simp only [FileActivity.step, hDestroyed] at hStep
      split at hStep
      · cases hStep
        exact ⟨⟨h.holder, h.queue, h.retrying, h.flushing⟩, rfl, rfl⟩
      · cases hStep
        exact ⟨⟨h.holder, h.queue, h.retrying, h.flushing⟩, rfl, rfl⟩
      · cases hStep
  | swap =>
      simp only [FileActivity.step] at hStep
      split_ifs at hStep
      cases hStep
      exact ⟨⟨h.holder, h.queue, h.retrying, h.flushing⟩, hDestroyed, rfl⟩
  | backupTick =>
      simp only [FileActivity.step, hTorn.backupInterval] at hStep
      cases hStep
  | retry index =>
      obtain ⟨retry, hRetry, rfl⟩ := Option.map_eq_some_iff.mp hStep
      have hStale : retry.1 ≠ s.generation := h.retrying retry (List.mem_of_getElem? hRetry)
      rw [attempt, if_neg hStale]
      exact ⟨⟨h.holder, h.queue, fun other hOther => h.retrying other (List.mem_of_mem_eraseIdx hOther),
        h.flushing⟩, hDestroyed, rfl⟩
  | acquireBackup =>
      simp only [FileActivity.step] at hStep
      split at hStep
      · rename_i generation attempt rest hFree hQueue
        have hStale : generation ≠ s.generation := by
          simpa [live] using h.queue (.periodic generation attempt) (by rw [hQueue]; exact List.mem_cons_self)
        rw [if_neg hStale] at hStep
        cases hStep
        exact ⟨⟨h.holder, fun job hJob => h.queue job (by rw [hQueue]; exact List.mem_cons_of_mem _ hJob),
          h.retrying, h.flushing⟩, hDestroyed, rfl⟩
      · rename_i rest hFree hQueue
        have hDead := h.queue .rotation (by rw [hQueue]; exact List.mem_cons_self)
        cases hDead
      · cases hStep
  | settle succeeded =>
      obtain ⟨⟨job, phase⟩, hHolder, rfl⟩ := Option.map_eq_some_iff.mp hStep
      have hSpent := h.holder _ hHolder
      obtain rfl := phase_of_spent hSpent
      change (s.fail job).Settled ∧ (s.fail job).destroyed = true ∧ (s.fail job).operations = s.operations
      cases job with
      | rotation => exact ⟨⟨by simp [fail], h.queue, h.retrying, h.flushing⟩, hDestroyed, rfl⟩
      | periodic generation attempt =>
          refine ⟨⟨by simp [fail], h.queue, fun retry hRetry => ?_, h.flushing⟩, hDestroyed, rfl⟩
          simp only [fail] at hRetry
          split_ifs at hRetry with hFew
          · rcases List.mem_append.mp hRetry with hOld | hNew
            · exact h.retrying retry hOld
            · obtain rfl := List.mem_singleton.mp hNew
              change generation ≠ s.generation
              simpa [spent, Nat.not_le.mpr hFew] using hSpent
          · exact h.retrying retry hRetry
  | flushTick =>
      simp [FileActivity.step, hTorn.writeInterval] at hStep
  | appended index succeeded =>
      simp [FileActivity.step, h.flushing] at hStep
  | destroyFlushed =>
      simp only [FileActivity.step] at hStep
      split_ifs at hStep
      cases hStep
      exact ⟨⟨h.holder, h.queue, h.retrying, h.flushing⟩, rfl, rfl⟩

/-- Some run from here performs an operation. -/
def CanOperate (s : FileActivity) : Prop :=
  ∃ actions t, Run (ofStep step) s actions t ∧ s.operations.length < t.operations.length

theorem CanOperate.not_quiesced (h : s.CanOperate) : ¬ s.Quiesced := by
  intro hQuiesced
  obtain ⟨actions, t, run, hMore⟩ := h
  rw [hQuiesced actions t run] at hMore
  exact Nat.lt_irrefl _ hMore

theorem CanOperate.prior (h : t.CanOperate) (hStep : s.step a = some t)
    (hSame : t.operations = s.operations) : s.CanOperate := by
  obtain ⟨actions, u, run, hMore⟩ := h
  exact ⟨a :: actions, u, Run.cons hStep run, by rwa [← hSame]⟩

theorem canOperate_of_step (operation : FileOperation) (hStep : s.step a = some t)
    (hMore : t.operations = s.operations ++ [operation]) : s.CanOperate :=
  ⟨[a], t, Run.single hStep, by simp [hMore]⟩

/-- A backup that can still be renamed is. -/
theorem canOperate_of_holder {job : BackupJob} {phase : BackupPhase} (hHolder : s.holder = some (job, phase))
    (hPhase : phase ≠ .closing false) : s.CanOperate := by
  have hNext : ∀ {s : FileActivity} {phase : BackupPhase}, s.holder = some (job, phase) →
      s.step (.settle true) = some (s.proceed job phase true) := by
    intro s phase hHolder
    rw [step, hHolder]
    rfl
  have hRenaming : ∀ {s : FileActivity}, s.holder = some (job, .replacing) → s.CanOperate :=
    fun hHolder => canOperate_of_step .rename (hNext hHolder) rfl
  have hClosing : ∀ {s : FileActivity}, s.holder = some (job, .closing true) → s.CanOperate :=
    fun hHolder => (hRenaming rfl).prior (hNext hHolder) rfl
  have hSyncing : ∀ {s : FileActivity}, s.holder = some (job, .syncing) → s.CanOperate :=
    fun hHolder => (hClosing rfl).prior (hNext hHolder) rfl
  have hWriting : ∀ {s : FileActivity}, s.holder = some (job, .writing) → s.CanOperate :=
    fun hHolder => (hSyncing rfl).prior (hNext hHolder) rfl
  cases phase with
  | opening => exact (hWriting rfl).prior (hNext hHolder) rfl
  | writing => exact hWriting hHolder
  | syncing => exact hSyncing hHolder
  | closing written =>
      cases written with
      | true => exact hClosing hHolder
      | false => exact absurd rfl hPhase
  | replacing => exact hRenaming hHolder
  | truncating =>
      refine canOperate_of_step .truncate (hNext hHolder) ?_
      cases job <;> rfl
  | promoting => exact canOperate_of_step .promote (hNext hHolder) rfl

/-- The mutex is handed on until a live backup has it. -/
theorem canOperate_of_queue {job : BackupJob} {queue : List BackupJob} (hQueue : s.queue = queue)
    (hFree : s.holder = none) (hJob : job ∈ queue) (hLive : s.live job = true) : s.CanOperate := by
  induction queue generalizing s with
  | nil => cases hJob
  | cons head rest ih =>
      by_cases hHead : s.live head = true
      · have hStep : s.step .acquireBackup =
            some { s with queue := rest, holder := some (head, .opening) } := by
          cases head with
          | rotation => simp only [step, hFree, hQueue]
          | periodic generation attempt =>
              have hCurrent : generation = s.generation := by simpa [live] using hHead
              simp only [step, hFree, hQueue, if_pos hCurrent]
        have hOpening : CanOperate { s with queue := rest, holder := some (head, .opening) } :=
          canOperate_of_holder rfl (by simp)
        exact hOpening.prior hStep rfl
      · have hStep : s.step .acquireBackup = some { s with queue := rest } := by
          cases head with
          | rotation => exact absurd rfl hHead
          | periodic generation attempt =>
              have hStale : generation ≠ s.generation := by simpa [live] using hHead
              simp only [step, hFree, hQueue, if_neg hStale]
        have hRest : job ∈ rest := by
          rcases List.mem_cons.mp hJob with rfl | hRest
          · exact absurd hLive hHead
          · exact hRest
        have hLater : CanOperate { s with queue := rest } := ih rfl hFree hRest hLive
        exact hLater.prior hStep rfl

/-- A backup whose turn is to come comes to it, whoever holds the mutex. -/
theorem canOperate_of_live {job : BackupJob} (hJob : job ∈ s.queue) (hLive : s.live job = true) :
    s.CanOperate := by
  cases hHolder : s.holder with
  | none => exact canOperate_of_queue rfl hHolder hJob hLive
  | some holder =>
      obtain ⟨held, phase⟩ := holder
      by_cases hPhase : phase = .closing false
      · subst hPhase
        have hStep : s.step (.settle true) = some (s.fail held) := by
          rw [step, hHolder]
          rfl
        have hFailed : (s.fail held).CanOperate := by
          cases held with
          | periodic generation attempt => exact canOperate_of_queue rfl rfl hJob hLive
          | rotation => exact canOperate_of_queue rfl rfl hJob hLive
        refine hFailed.prior hStep ?_
        cases held <;> rfl
      · exact canOperate_of_holder hHolder hPhase

/-- A backup that sleeps wakes and queues again. -/
theorem canOperate_of_retrying {retry : Nat × Nat} (hRetry : retry ∈ s.retrying)
    (hCurrent : retry.1 = s.generation) : s.CanOperate := by
  obtain ⟨index, hAt⟩ := List.mem_iff_getElem?.mp hRetry
  have hStep : s.step (.retry index) = some { s with
      retrying := s.retrying.eraseIdx index
      queue := s.queue ++ [.periodic retry.1 retry.2] } := by
    rw [step, hAt, Option.map_some, attempt, if_pos hCurrent]
  have hQueued : CanOperate { s with
      retrying := s.retrying.eraseIdx index
      queue := s.queue ++ [.periodic retry.1 retry.2] } :=
    canOperate_of_live (List.mem_append_right _ (List.mem_singleton_self _))
      (by simpa [live] using hCurrent)
  exact hQueued.prior hStep rfl

/-- An append that is under way succeeds. -/
theorem canOperate_of_flushing (h : s.flushing ≠ []) : s.CanOperate := by
  obtain ⟨caller, rest, hFlushing⟩ := List.exists_cons_of_ne_nil h
  cases caller with
  | interval =>
      exact canOperate_of_step .append (a := .appended 0 true) (t := { s.perform .append with
        flushing := rest, writeBuffer := [] }) (by simp [step, hFlushing, perform]) rfl
  | shutdown =>
      exact canOperate_of_step .append (a := .appended 0 true) (t := { s.perform .append with
        flushing := rest, writeBuffer := [], flushed := s.flushed + 1 })
        (by simp [step, hFlushing, perform]) rfl

/-- A backup that is not spent comes to a file, if need be in its next attempt. -/
theorem canOperate_of_not_spent {holder : BackupJob × BackupPhase} (hHolder : s.holder = some holder)
    (hSpent : s.spent holder = false) : s.CanOperate := by
  obtain ⟨job, phase⟩ := holder
  by_cases hPhase : phase = .closing false
  · subst hPhase
    cases job with
    | rotation => cases hSpent
    | periodic generation attempt =>
        simp only [spent, Bool.or_eq_false_iff, decide_eq_false_iff_not, not_not, Nat.not_le] at hSpent
        obtain ⟨hCurrent, hFew⟩ := hSpent
        have hStep : s.step (.settle true) = some (s.fail (.periodic generation attempt)) := by
          rw [step, hHolder]
          rfl
        have hRetry : (generation, attempt + 1) ∈ (s.fail (.periodic generation attempt)).retrying := by
          simp [fail, hFew]
        exact (canOperate_of_retrying hRetry hCurrent).prior hStep rfl
  · exact canOperate_of_holder hHolder hPhase

theorem settled_of_quiesced (h : s.Quiesced) : s.Settled := by
  have hCannot : ¬ s.CanOperate := fun hCan => hCan.not_quiesced h
  refine ⟨fun holder hHolder => ?_, fun job hJob => ?_, fun retry hRetry hCurrent => ?_, ?_⟩
  · by_contra hLive
    exact hCannot (canOperate_of_not_spent hHolder (by simpa using hLive))
  · by_contra hLive
    exact hCannot (canOperate_of_live hJob (by simpa using hLive))
  · exact hCannot (canOperate_of_retrying hRetry hCurrent)
  · by_contra hFlushing
    exact hCannot (canOperate_of_flushing hFlushing)

/-- After `shutdown` or `destroy` nothing more is written, renamed or truncated exactly if no
backup was under way or in line for the current generation, none slept before such an attempt,
and no append of the write buffer was under way. What the late operations write is not looked
at. -/
theorem quiesced_iff_settled {bufferEnabled periodic : Bool} {maxBufferSize : Nat} {actions : List Action}
    (run : Run (ofStep step) (init bufferEnabled periodic maxBufferSize) actions s)
    (hDestroyed : s.destroyed = true) : s.Quiesced ↔ s.Settled := by
  constructor
  · exact settled_of_quiesced
  · intro hSettled later t rest
    have hTorn : s.destroyed = true → s.TornDown := by
      refine run.invariant (P := fun s => s.destroyed = true → s.TornDown)
        (fun _ _ _ h hStep => tornDown_step h hStep) ?_
      intro hStart
      cases hStart
    have hEnd := rest.invariant (P := fun t => t.Settled ∧ t.destroyed = true ∧
        (t.destroyed = true → t.TornDown) ∧ t.operations = s.operations)
      (fun u a v h hStep => ?_) ⟨hSettled, hDestroyed, hTorn, rfl⟩
    · exact hEnd.2.2.2
    · obtain ⟨hIdle, hGone, hTimers, hSame⟩ := h
      obtain ⟨hIdle', hGone', hSame'⟩ := hIdle.step hGone (hTimers hGone) hStep
      exact ⟨hIdle', hGone', tornDown_step hTimers hStep, hSame'.trans hSame⟩

/-- `shutdown` waits for a rotation that has the mutex, and nothing else is under way. -/
theorem quiesced_iff_settled_shutdown : ∃ s : FileActivity, s.destroyed = true ∧
    s.operations = [.rename, .truncate, .promote] ∧ s.Quiesced := by
  have hEnd : (exec step (init false true 100) ([.requestRotation, .acquireMutex, .shutdown,
      .acquireBackup] ++ List.replicate 7 (.settle true) ++
        [.swap, .acquireMutex, .destroyFlushed])).map (fun s =>
        (s.destroyed, s.operations, s.holder.isNone && s.queue.isEmpty,
          s.retrying.isEmpty && s.flushing.isEmpty)) =
      some (true, [.rename, .truncate, .promote], true, true) := by decide +kernel
  obtain ⟨s, hRun, hEq⟩ := Option.map_eq_some_iff.mp hEnd
  simp only [Prod.mk.injEq, Bool.and_eq_true, Option.isNone_iff_eq_none, List.isEmpty_iff] at hEq
  obtain ⟨hDestroyed, hOperations, ⟨hHolder, hQueue⟩, hRetrying, hFlushing⟩ := hEq
  have hSettled : s.Settled := by constructor <;> simp [hHolder, hQueue, hRetrying, hFlushing]
  have run := run_of_exec hRun
  exact ⟨s, hDestroyed, hOperations, (quiesced_iff_settled run hDestroyed).mpr hSettled⟩

/-- `destroy` comes while a periodic backup opens its file. -/
theorem not_quiesced : ¬ ∀ (bufferEnabled periodic : Bool) (maxBufferSize : Nat) (actions : List Action)
    (s : FileActivity), Run (ofStep step) (init bufferEnabled periodic maxBufferSize) actions s →
      s.destroyed = true → s.Quiesced := by
  intro h
  have hEnd : (exec step (init false true 100) [.backupTick, .acquireBackup, .destroy]).map (fun s =>
      (s.destroyed, s.holder)) = some (true, some (.periodic 0 0, .opening)) := by decide +kernel
  obtain ⟨s, hRun, hEq⟩ := Option.map_eq_some_iff.mp hEnd
  obtain ⟨hDestroyed, hHolder⟩ := Prod.mk.inj hEq
  exact (canOperate_of_holder hHolder (by simp)).not_quiesced (h _ _ _ _ s (run_of_exec hRun) hDestroyed)

end FileActivity

end TokenRevoker
