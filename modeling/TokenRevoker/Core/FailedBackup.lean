import TokenRevoker.Core.CrashSafety
import TokenRevoker.Core.JobOrder

/-! Backups whose file operations may fail. A rotation goes on in memory when its
backup fails, and from then on the blobs lag behind the filters. What is in the
current filter stays on disk all the same. What is in the previous one is on disk
only as far as the previous blob has it, once a later periodic backup has replaced
the current blob and emptied the log. -/
namespace TokenRevoker

open Text SignatureFilter

variable {g : Geometry}

/-- `filter?.test(value)`. -/
def Manager.slotTest (slot : Option (SizedFilter g)) (value : JsString) : Bool :=
  match slot with
  | some filter => filter.test value
  | none => false

theorem Manager.slotTest_iff (slot : Option (SizedFilter g)) (value : JsString) :
    slotTest slot value = true ↔ BloomFilter.Addressable g.m g.k value ∧
      SignatureFilter.Covers (SizedFilter.signature g) (slotBits slot) value := by
  by_cases hAddressable : BloomFilter.Addressable g.m g.k value
  · have hSlot := slot_test_iff slot hAddressable
    simp only [hAddressable, true_and]
    exact hSlot
  · cases slot with
    | none => simp [slotTest, hAddressable]
    | some filter => simp [slotTest, SizedFilter.test_eq_true_iff, hAddressable]

theorem Manager.covers_eq (manager : Manager g) (value : JsString) :
    manager.covers value = (slotTest manager.current value || slotTest manager.previous value) := rfl

namespace Store

/-- No item is entered while a backup or a rotation is under way. Concurrent entries have their
own failure, which is not the matter here. -/
def Action.Apart (s : Store g) : Action g → Prop
  | .add _ _ | .applyEntry _ _ => s.holder = none ∧ s.rotating = none
  | _ => True

instance (s : Store g) (a : Action g) : Decidable (a.Apart s) := by
  cases a <;> unfold Action.Apart <;> infer_instance

/-- The steps in which any operation on a file may fail. Whatever fails, the mutexes are
released and the rotation goes on in memory. -/
def FaultySteps (g : Geometry) : Store g → Action g → Store g → Prop :=
  Transition.restrict (Transition.ofStep step) fun s a => a.Apart s

variable {s t : Store g} {a : Action g}

/-- What a call of `add` or `applyEntry` can do, whatever becomes of its appends. -/
inductive Entered (s t : Store g) : Prop where
  | intro (manager : Manager g) (temp : Bytes)
      (filters : s.manager.SameFilters manager ∨ ∃ item, s.manager.Inserted manager item)
      (eq : t = { s with manager := manager, disk := { s.disk with temp := temp } })

theorem backupItem_sync {backups : BackupManager} (hSync : backups.bufferEnabled = false)
    (disk : Disk) (failures : List AppendFailure) (item : JsString) :
    ∃ temp outcome, backups.backupItem disk failures item =
      (backups, { disk with temp := temp }, outcome) := by
  simp only [BackupManager.backupItem, hSync, Bool.false_eq_true, if_false]
  exact ⟨_, _, rfl⟩

theorem enter_entered (hSync : s.backups.bufferEnabled = false) {item : JsString}
    {call : Except String Unit → Manager g × Except RevokerError Unit} (hCall : s.manager.Inserts item call)
    (failures : List AppendFailure) : Entered s (s.enter call failures item).1 := by
  obtain ⟨temp, outcome, hBackup⟩ := backupItem_sync hSync s.disk failures item
  unfold enter
  rcases hFirst : call (.ok ()) with ⟨manager, error | _⟩
  · have hSame := hCall.error (congrArg Prod.snd hFirst)
    rw [hFirst] at hSame
    exact .intro manager s.disk.temp (Or.inl hSame) rfl
  · simp only [hBackup]
    refine .intro _ temp ?_ rfl
    cases hResult : (call outcome).2 with
    | error error => exact Or.inl (hCall.error hResult)
    | ok => exact Or.inr ⟨item, (hCall.ok hResult).2.2⟩

theorem add_entered (hSync : s.backups.bufferEnabled = false) (failures : List AppendFailure)
    (item : JsString) : Entered s (s.add failures item).1 := by
  rw [add_eq_enter]
  exact enter_entered hSync (s.manager.add_inserts item) failures

theorem applyEntry_entered (hSync : s.backups.bufferEnabled = false) (failures : List AppendFailure)
    (item : JsString) : Entered s (s.applyEntry failures item).1 := by
  rw [applyEntry_eq_enter]
  exact enter_entered hSync (s.manager.applyEntry_inserts item) failures

theorem Called.toEntered (h : Called s t) : Entered s t := by
  cases h with
  | refused manager filters eq => exact .intro manager s.disk.temp (Or.inl filters) eq
  | entered item manager accepted filters eq => exact .intro manager _ (Or.inr ⟨item, filters⟩) eq

/-- What a failed operation of the running backup does. -/
inductive Faulted (s : Store g) : Action g → Store g → Prop where
  | closing (job : Job) (phase : Phase g) (message : String) (hHolder : s.holder = some (job, phase))
      (hPhase : phase ≠ .promoting) :
      Faulted s (.settle (.error message)) { s with holder := some (job, .closing (.error message)) }
  | failed (job : Job) (phase : Phase g) (message : String)
      (hHolder : s.holder = some (job, phase)) : Faulted s (.settle (.error message)) (s.fail job)
  | unpromoted (job : Job) (message : String) (hHolder : s.holder = some (job, .promoting)) :
      Faulted s (.promote (.error message)) { s with holder := none, rotating := some .swapping }

theorem proceed_faulted {job : Job} {phase : Phase g} {message : String}
    (hHolder : s.holder = some (job, phase)) (h : s.proceed job phase (.error message) = some t) :
    Faulted s (.settle (.error message)) t := by
  cases phase with
  | opening | replacing written | truncating =>
      cases h
      exact .failed job _ message hHolder
  | writing handed | syncing written =>
      cases h
      exact .closing job _ message hHolder (by simp)
  | closing outcome =>
      cases outcome <;> cases h <;> exact .failed job _ message hHolder
  | promoting => simp [proceed] at h

/-- A step that is no call of `add` or `applyEntry` in either mode: nothing fails, or an
operation of the backup does. -/
theorem step_cases_of_not_call (hAdd : ∀ item failures, a ≠ .add item failures)
    (hApply : ∀ item failures, a ≠ .applyEntry item failures) (h : step s a = some t) :
    Effect s a t ∨ Faulted s a t := by
  cases a with
  | add item failures => exact absurd rfl (hAdd item failures)
  | applyEntry item failures => exact absurd rfl (hApply item failures)
  | settle outcome =>
      cases outcome with
      | ok => exact Or.inl (step_effect_of_not_call hAdd hApply ⟨h, rfl⟩)
      | error message =>
          simp only [step] at h
          split at h
          · rename_i job phase hHolder
            exact Or.inr (proceed_faulted hHolder h)
          · cases h
  | promote outcome =>
      cases outcome with
      | ok => exact Or.inl (step_effect_of_not_call hAdd hApply ⟨h, rfl⟩)
      | error message =>
          simp only [step] at h
          split at h
          · rename_i job hHolder
            cases h
            exact Or.inr (.unpromoted job message hHolder)
          · cases h
  | requestRotation | rotate | tick | retry | acquire | written | swap | crash =>
      exact Or.inl (step_effect_of_not_call hAdd hApply ⟨h, trivial⟩)

/-- A step enters an item, or nothing fails, or an operation of the backup does. -/
theorem step_cases (hSync : s.backups.bufferEnabled = false) (h : step s a = some t) :
    (Entered s t ∧ (∃ x failures, a = .add x failures ∨ a = .applyEntry x failures)) ∨
      Effect s a t ∨ Faulted s a t := by
  cases a with
  | add item failures =>
      cases h
      exact Or.inl ⟨add_entered hSync failures item, item, failures, Or.inl rfl⟩
  | applyEntry item failures =>
      cases h
      exact Or.inl ⟨applyEntry_entered hSync failures item, item, failures, Or.inr rfl⟩
  | _ => exact Or.inr (step_cases_of_not_call (by simp) (by simp) h)

theorem Faulted.inTurn (fault : Faulted s a t) (h : InTurn Eq s) : InTurn Eq t := by
  cases fault with
  | closing job phase message hHolder hPhase => exact h.advance s.disk hHolder (by simp)
  | failed job phase message hHolder => exact h.fail hHolder
  | unpromoted job message hHolder => exact h.leave s.disk hHolder ((h.holds job _ hHolder).2.2 rfl)

/-- What holds of the mutexes and the captures in every state of a run, whatever fails. It does
not depend on the success of any of them. -/
structure Scheduled (s : Store g) : Prop where
  sync : s.backups.bufferEnabled = false
  captured : ∀ capture, s.Known capture → capture.generation ≤ s.backups.generation ∧
    (capture.generation = s.backups.generation → s.rotating = none ∧ capture.filter = s.filter)
  /-- A rotation is inside `backupRotate` exactly while its job waits or runs. -/
  rotations : s.jobs.filter Job.isRotation =
    if s.rotating = some .backingUp then [.rotation s.filter] else []
  holds : ∀ job phase, s.holder = some (job, phase) → job.filter = s.filter ∧
    s.rotating ≠ some .swapping ∧ (phase = .promoting → job.isRotation = true)

theorem Scheduled.inTurn (h : Scheduled s) : InTurn Eq s :=
  ⟨h.captured, h.rotations, h.holds⟩

theorem InTurn.scheduled (h : InTurn Eq s)
    (hSync : s.backups.bufferEnabled = false) : Scheduled s :=
  ⟨hSync, h.captured, h.rotations, h.holds⟩

theorem boot_scheduled (numItems : Nat) (periodic : Bool) (disk : Disk) :
    Scheduled (boot g numItems periodic disk) :=
  (boot_inTurn Eq.refl numItems periodic disk).scheduled rfl

theorem Scheduled.entered (h : Scheduled s) (entered : Entered s t) : Scheduled t := by
  obtain ⟨manager, temp, filters, rfl⟩ := entered
  have hNext : InTurn Eq { s with manager := manager, disk := { s.disk with temp := temp } } :=
    h.inTurn.congr rfl rfl rfl rfl rfl rfl rfl
  exact hNext.scheduled h.sync

theorem Effect.scheduled (effect : Effect s a t) (h : Scheduled s) : Scheduled t :=
  (effect.inTurn Eq.refl h.inTurn).scheduled (effect.sync h.sync)

theorem Faulted.sync (fault : Faulted s a t) (h : s.backups.bufferEnabled = false) :
    t.backups.bufferEnabled = false := by
  cases fault with
  | failed job phase message hHolder => rw [fail_backups, h]
  | closing | unpromoted => exact h

theorem Faulted.scheduled (fault : Faulted s a t) (h : Scheduled s) : Scheduled t :=
  (fault.inTurn h.inTurn).scheduled (fault.sync h.sync)

theorem FaultySteps.scheduled (hStep : FaultySteps g s a t) (h : Scheduled s) : Scheduled t := by
  rcases step_cases h.sync hStep.1 with ⟨entered, -⟩ | effect | fault
  · exact h.entered entered
  · exact effect.scheduled h
  · exact fault.scheduled h

/-- Whatever the suspended backup has written so far has exactly these bits. It has all of them
because no item is entered meanwhile. -/
def Phase.Saves (bits : Set Nat) (disk : Disk) : Phase g → Prop
  | .opening | .closing (.error _) => True
  | .writing bytes | .syncing bytes | .closing (.ok bytes) | .replacing bytes => bytes.bits = bits
  | .truncating | .promoting => blobBits g disk.currentBlob = bits

/-- The running backup saves what the current filter holds, since nothing is entered
while it runs. -/
structure Saving (s : Store g) : Prop extends Scheduled s where
  bytes : ∀ job phase, s.holder = some (job, phase) → Phase.Saves s.manager.window.current s.disk phase

theorem boot_saving (numItems : Nat) (periodic : Bool) (disk : Disk) :
    Saving (boot g numItems periodic disk) :=
  ⟨boot_scheduled numItems periodic disk, by simp [boot]⟩

theorem Effect.bytes (effect : Effect s a t) (h : Saving s) (hApart : a.Apart s) :
    ∀ job phase, t.holder = some (job, phase) → Phase.Saves t.manager.window.current t.disk phase := by
  cases effect with
  | called call isCall =>
      have hFree : s.holder = none := by
        rcases isCall with ⟨x, rfl⟩ | ⟨x, rfl⟩ <;> exact hApart.1
      intro job phase hHolder
      rw [call.frame.2.2.2.2.2.1, hFree] at hHolder
      cases hHolder
  | requested | began | skipped => exact h.bytes
  | ticked | retried =>
      unfold Store.attempt
      split_ifs <;> exact h.bytes
  | opened job rest hFree hQueue hFresh =>
      intro _ _ hEq
      cases hEq
      trivial
  | handed job filter hHolder hLookup =>
      rw [(h.holds job _ hHolder).1] at hLookup
      intro _ _ hEq
      cases hEq
      exact (lookup_current hLookup).symm
  | written job handed live captured hHolder hLookup hFrom hTo =>
      rw [(h.holds job _ hHolder).1] at hLookup
      have hHanded : handed.bits = s.manager.window.current := h.bytes _ _ hHolder
      have hLive := lookup_current hLookup
      intro _ _ hEq
      cases hEq
      refine subset_antisymm ?_ ?_
      · rw [hLive]
        exact (BloomFilter.within_spec hTo).2
      · rw [← hHanded]
        exact (BloomFilter.within_spec hFrom).2
  | synced job bytes hHolder | closed job bytes hHolder =>
      have hBytes : bytes.bits = s.manager.window.current := h.bytes _ _ hHolder
      intro _ _ hEq
      cases hEq
      exact hBytes
  | abandoned job message hHolder => simp [fail_holder]
  | renamed job bytes hHolder =>
      have hBytes : bytes.bits = s.manager.window.current := h.bytes _ _ hHolder
      intro _ _ hEq
      cases hEq
      exact (blobBits_blob bytes).trans hBytes
  | cleared job hHolder =>
      have hBlob : blobBits g s.disk.currentBlob = s.manager.window.current := h.bytes _ _ hHolder
      intro _ _ hEq
      simp only at hEq
      split_ifs at hEq
      cases hEq
      exact hBlob
  | promoted job hHolder => simp
  | swapped hStage =>
      intro job phase hHolder
      exact absurd hStage (h.holds job phase hHolder).2.1
  | crashed => simp [boot]

theorem Faulted.bytes (fault : Faulted s a t) :
    ∀ job phase, t.holder = some (job, phase) → Phase.Saves t.manager.window.current t.disk phase := by
  cases fault with
  | closing job phase message hHolder hPhase =>
      intro _ _ hEq
      cases hEq
      trivial
  | failed job phase message hHolder => simp [fail_holder]
  | unpromoted job message hHolder => simp

theorem FaultySteps.saving (hStep : FaultySteps g s a t) (h : Saving s) : Saving t := by
  refine ⟨hStep.scheduled h.toScheduled, ?_⟩
  rcases step_cases h.sync hStep.1 with ⟨entered, x, failures, hCall⟩ | effect | fault
  · have hFree : s.holder = none := by
      rcases hCall with rfl | rfl <;> exact hStep.2.1
    obtain ⟨manager, temp, filters, rfl⟩ := entered
    simp [hFree]
  · exact effect.bytes h hStep.2
  · exact fault.bytes

theorem run_saving {as : List (Action g)} (run : Transition.Run (FaultySteps g) s as t)
    (h : Saving s) : Saving t :=
  run.invariant (fun _ _ _ h hStep => FaultySteps.saving hStep h) h

/-- The job whose next operation replaces a blob or empties the log. Only three operations of a
backup can lose something: the two renames and the truncation. -/
def destroys (s : Store g) : Action g → Option Job
  | .settle (.ok ()) =>
      match s.holder with
      | some (job, .replacing _) | some (job, .truncating) => some job
      | _ => none
  | .promote (.ok ()) =>
      match s.holder with
      | some (job, .promoting) => some job
      | _ => none
  | _ => none

/-- After the step `restore('all')` finds every item the filters had before it, short of those
in the filter that the rotation is about to drop. What an item is in besides does not matter. -/
def Retains (s t : Store g) (job : Job) : Prop :=
  ∀ x, (Manager.slotTest s.manager.current x = true ∨
      (job.isRotation = false ∧ Manager.slotTest s.manager.previous x = true)) →
    (Manager.restored g s.manager.numItems t.disk).covers x = true

/-- No backup loses anything, whatever failed before it. It is refuted below, by a rotation
whose backup fails. -/
def NeverLoses (g : Geometry) : Prop :=
  ∀ numItems periodic disk as (s t : Store g) a job,
    Transition.Run (FaultySteps g) (boot g numItems periodic disk) as s → FaultySteps g s a t →
    s.destroys a = some job → Retains s t job

/-- The filter that is being saved, with the lines of the log until they are removed. -/
def kept (s : Store g) : SizedFilter g :=
  match s.holder with
  | some (_, .replacing _) =>
      restoreTemp (s.manager.current.getD (SizedFilter.create g)) s.disk.temp
  | _ => s.manager.current.getD (SizedFilter.create g)

/-- Every item of the previous filter is in the previous blob, or in what is being saved. A
failed backup of a rotation breaks it, and the next one that succeeds mends it. -/
def Backed (s : Store g) : Prop :=
  ∀ x, Manager.slotTest s.manager.previous x = true →
    Manager.slotTest (restoreFilterFromFile g s.disk.previousBlob) x = true ∨ s.kept.test x = true

/-- What a restart reports on given files. -/
theorem restored_covers_iff (numItems : Nat) (disk : Disk) (x : JsString) :
    (Manager.restored g numItems disk).covers x = true ↔
      BloomFilter.Addressable g.m g.k x ∧
        (restoredWindow g disk).Covers (SizedFilter.signature g) x := by
  rw [← Manager.restored_window numItems, Manager.covers_eq, Bool.or_eq_true, Manager.slotTest_iff,
    Manager.slotTest_iff, ← and_or_left]
  rfl

/-- What the three operations that can lose something do to the files. -/
theorem destroys_cases {job : Job} (hStep : step s a = some t) (hDestroys : s.destroys a = some job) :
    (∃ bytes, s.holder = some (job, .replacing bytes) ∧
      t.disk = { s.disk with currentBlob := some (blobOfBuckets bytes.buckets) }) ∨
    (s.holder = some (job, .truncating) ∧ t.disk = { s.disk with temp := [] }) ∨
    (s.holder = some (job, .promoting) ∧ t.disk = promoteBlob s.disk) := by
  unfold destroys at hDestroys
  split at hDestroys
  · split at hDestroys
    · rename_i job' bytes hHolder
      cases hDestroys
      simp only [step, hHolder, proceed, Option.some.injEq] at hStep
      subst hStep
      exact Or.inl ⟨bytes, hHolder, rfl⟩
    · rename_i job' hHolder
      cases hDestroys
      refine Or.inr (Or.inl ⟨hHolder, ?_⟩)
      simp only [step, hHolder, proceed] at hStep
      cases job <;> cases hStep <;> rfl
    · cases hDestroys
  · split at hDestroys
    · rename_i job' hHolder
      cases hDestroys
      simp only [step, hHolder, Option.some.injEq] at hStep
      subst hStep
      exact Or.inr (Or.inr ⟨hHolder, rfl⟩)
    · cases hDestroys
  · cases hDestroys

theorem covered_iff (filter : SizedFilter g) (slot : Option (SizedFilter g)) (x : JsString) :
    BloomFilter.Addressable g.m g.k x ∧
        Window.Covers (SizedFilter.signature g) ⟨filter.bits, Manager.slotBits slot⟩ x ↔
      Manager.slotTest slot x = true ∨ filter.test x = true := by
  rw [Manager.slotTest_iff, SizedFilter.test_eq_true_iff, Window.Covers, ← and_or_left]
  exact and_congr_right fun _ => or_comm

/-- Replacing the current blob or emptying the log leaves the previous blob and what
is being saved. -/
theorem restored_iff_kept (h : Saving s) {job : Job} (hStep : step s a = some t)
    (hDestroys : s.destroys a = some job) (hPhase : s.holder ≠ some (job, .promoting)) (x : JsString) :
    (Manager.restored g s.manager.numItems t.disk).covers x = true ↔
      Manager.slotTest (restoreFilterFromFile g s.disk.previousBlob) x = true ∨
        s.kept.test x = true := by
  rw [restored_covers_iff, ← covered_iff]
  rcases destroys_cases hStep hDestroys with ⟨bytes, hHolder, hDisk⟩ | ⟨hHolder, hDisk⟩ | ⟨hHolder, -⟩
  · have hBytes : bytes.bits = Manager.slotBits s.manager.current := h.bytes _ _ hHolder
    have hBlob := blobBits_blob bytes
    unfold blobBits at hBlob
    simp only [kept, hHolder, hDisk, restoredWindow, bits_restoreTemp, slotBits_getD_create, hBlob, hBytes]
  · have hBlob : Manager.slotBits (restoreFilterFromFile g s.disk.currentBlob) =
        Manager.slotBits s.manager.current := h.bytes _ _ hHolder
    simp only [kept, hHolder, hDisk, restoredWindow, tempItems_nil, List.foldl_nil, hBlob,
      slotBits_getD_create]
  · exact absurd hHolder hPhase

/-- The current filter is part of what is being saved. -/
theorem kept_of_current {x : JsString} (h : Manager.slotTest s.manager.current x = true) :
    s.kept.test x = true := by
  obtain ⟨hAddressable, hCovers⟩ := (Manager.slotTest_iff _ x).mp h
  rw [← slotBits_getD_create] at hCovers
  refine SizedFilter.test_eq_true_iff.mpr ⟨hAddressable, ?_⟩
  unfold kept
  split
  · rw [bits_restoreTemp]
    exact hCovers.mono (le_foldl_insert _ _)
  · exact hCovers

/-- What the current filter holds survives every step of every backup. -/
theorem restored_of_current (h : Saving s) {job : Job} (hStep : step s a = some t)
    (hDestroys : s.destroys a = some job) {x : JsString}
    (hCurrent : Manager.slotTest s.manager.current x = true) :
    (Manager.restored g s.manager.numItems t.disk).covers x = true := by
  by_cases hPhase : s.holder = some (job, .promoting)
  · obtain ⟨hAddressable, hCovers⟩ := (Manager.slotTest_iff _ x).mp hCurrent
    rcases destroys_cases hStep hDestroys with ⟨bytes, hHolder, -⟩ | ⟨hHolder, -⟩ | ⟨-, hDisk⟩
    · rw [hPhase] at hHolder
      cases hHolder
    · rw [hPhase] at hHolder
      cases hHolder
    · have hBlob : blobBits g s.disk.currentBlob = Manager.slotBits s.manager.current :=
        h.bytes _ _ hPhase
      rw [← hBlob] at hCovers
      rw [restored_covers_iff, hDisk]
      exact ⟨hAddressable, Or.inr (hCovers.mono (blobBits_promoteBlob s.disk))⟩
  · exact (restored_iff_kept h hStep hDestroys hPhase x).mpr (Or.inr (kept_of_current hCurrent))

theorem Saving.retains_iff (h : Saving s) {job : Job} (hStep : step s a = some t)
    (hDestroys : s.destroys a = some job) : Retains s t job ↔ job.isRotation = true ∨ s.Backed := by
  cases hJob : job.isRotation with
  | true =>
      refine iff_of_true ?_ (Or.inl rfl)
      rintro x (hCurrent | ⟨hPeriodic, -⟩)
      · exact restored_of_current h hStep hDestroys hCurrent
      · rw [hJob] at hPeriodic
        cases hPeriodic
  | false =>
      have hPhase : s.holder ≠ some (job, .promoting) := by
        intro hHolder
        have hRotation := (h.holds job _ hHolder).2.2 rfl
        rw [hJob] at hRotation
        cases hRotation
      have hKept := restored_iff_kept h hStep hDestroys hPhase
      simp only [Bool.false_eq_true, false_or]
      constructor
      · intro hRetains x hPrevious
        exact (hKept x).mp (hRetains x (Or.inr ⟨hJob, hPrevious⟩))
      · rintro hBacked x (hCurrent | ⟨-, hPrevious⟩)
        · exact restored_of_current h hStep hDestroys hCurrent
        · exact (hKept x).mpr (hBacked x hPrevious)

/-- A backup loses nothing exactly when it belongs to a rotation, which drops the previous
filter itself, or when that filter is backed. This is about each step that destroys something,
in every run, whatever fails before it. -/
theorem retains_iff_backed {numItems : Nat} {periodic : Bool} {disk : Disk} {as : List (Action g)}
    {job : Job} (run : Transition.Run (FaultySteps g) (boot g numItems periodic disk) as s)
    (hStep : FaultySteps g s a t) (hDestroys : s.destroys a = some job) :
    Retains s t job ↔ job.isRotation = true ∨ s.Backed :=
  (run_saving run (boot_saving numItems periodic disk)).retains_iff hStep.1 hDestroys

/-- A step function that refuses to enter an item while a backup or a rotation is under way. -/
def faultyStep (g : Geometry) : Store g → Action g → Option (Store g) :=
  Transition.guarded (fun s a => decide (a.Apart s)) step

theorem run_of_faultyStep {as : List (Action g)} (h : Transition.exec (faultyStep g) s as = some t) :
    Transition.Run (FaultySteps g) s as t :=
  Transition.Run.of_guarded (fun _ _ hTest => of_decide_eq_true hTest) (Transition.run_of_exec h)

/-- A rotation whose backup could not open its file, then the rename of the next
rotation's backup. -/
theorem retains_iff_backed_second_rotation :
    ∃ s t : Store .oneBucket,
      Transition.exec (faultyStep .oneBucket) (boot .oneBucket 1 false {}) [.add [97] [],
        .requestRotation, .rotate, .acquire, .settle (.error "EMFILE"), .swap, .requestRotation,
        .rotate, .acquire, .settle (.ok ()), .written (.create _), .settle (.ok ()),
        .settle (.ok ())] = some s ∧
      step s (.settle (.ok ())) = some t ∧ s.destroys (.settle (.ok ())) = some (.rotation 1) ∧
      Retains s t (.rotation 1) := by
  have hRun : ∃ s t : Store .oneBucket,
      Transition.exec (faultyStep .oneBucket) (boot .oneBucket 1 false {}) [.add [97] [],
        .requestRotation, .rotate, .acquire, .settle (.error "EMFILE"), .swap, .requestRotation,
        .rotate, .acquire, .settle (.ok ()), .written (.create _), .settle (.ok ()),
        .settle (.ok ())] = some s ∧
      step s (.settle (.ok ())) = some t ∧ s.destroys (.settle (.ok ())) = some (.rotation 1) :=
    ⟨_, _, rfl, rfl, rfl⟩
  obtain ⟨s, t, hExec, hStep, hDestroys⟩ := hRun
  exact ⟨s, t, hExec, hStep, hDestroys,
    (retains_iff_backed (run_of_faultyStep hExec) ⟨hStep, trivial⟩ hDestroys).mpr (Or.inl rfl)⟩

/-- After a rotation whose backup failed, the next periodic backup empties the log with
the lines that only the previous filter still has. -/
theorem not_neverLoses : ¬ NeverLoses .oneBucket := by
  intro h
  have hRun : ∃ s, Transition.exec (faultyStep .oneBucket) (boot .oneBucket 1 true {}) [.add [97] [],
      .requestRotation, .rotate, .acquire, .settle (.error "EMFILE"), .swap, .tick, .acquire,
      .settle (.ok ()), .written (.create _), .settle (.ok ()), .settle (.ok ()),
      .settle (.ok ())] = some s ∧ Manager.slotTest s.manager.previous [97] = true ∧
      ∃ t, step s (.settle (.ok ())) = some t ∧ s.destroys (.settle (.ok ())) = some (.periodic ⟨1, 1⟩ 0) ∧
        (Manager.restored .oneBucket s.manager.numItems t.disk).covers [97] = false :=
    ⟨_, rfl, by decide, _, rfl, rfl, by decide⟩
  obtain ⟨s, hExec, hPrevious, t, hStep, hDestroys, hLost⟩ := hRun
  have hRetains := h 1 true {} _ s t (.settle (.ok ())) _ (run_of_faultyStep hExec) ⟨hStep, trivial⟩ hDestroys
  exact absurd (hRetains [97] (Or.inr ⟨rfl, hPrevious⟩)) (by simp [hLost])

/-- The operation that fails is none of a rotation's. -/
def Action.SparesRotation (s : Store g) : Action g → Prop
  | .settle (.error _) | .promote (.error _) =>
      ∀ job phase, s.holder = some (job, phase) → job.isRotation = false
  | _ => True

/-- The previous blob has the previous filter, or the one that is about to become it. Failures
of periodic backups do not touch it. -/
structure Mirrored (s : Store g) : Prop where
  steady : s.rotating ≠ some .swapping → s.manager.window.previous ⊆ blobBits g s.disk.previousBlob
  swapping : s.rotating = some .swapping → s.manager.window.current ⊆ blobBits g s.disk.previousBlob
  clean : ∀ job message, s.holder = some (job, .closing (.error message)) → job.isRotation = false

theorem boot_mirrored (numItems : Nat) (periodic : Bool) (disk : Disk) :
    Mirrored (boot g numItems periodic disk) where
  steady := by
    intro _
    rw [boot_window]
    exact subset_rfl
  swapping := by simp [boot]
  clean := by simp [boot]

theorem Mirrored.entered (h : Mirrored s) (entered : Entered s t) (hFree : s.holder = none)
    (hStage : s.rotating = none) : Mirrored t := by
  obtain ⟨manager, temp, filters, rfl⟩ := entered
  have hPrevious : manager.previous = s.manager.previous := by
    rcases filters with hSame | ⟨item, hInserted⟩
    · exact hSame.previous
    · exact hInserted.previous
  refine ⟨fun hStage' => ?_, by simp [hStage], by simp [hFree]⟩
  have hSteady := h.steady hStage'
  simp only [Manager.window, hPrevious] at hSteady ⊢
  exact hSteady

theorem Mirrored.fail (h : Mirrored s) {job : Job} (hJob : job.isRotation = false) :
    Mirrored (s.fail job) := by
  cases job with
  | periodic capture n => exact ⟨h.steady, h.swapping, by simp [Store.fail]⟩
  | rotation filter => cases hJob

theorem Effect.mirrored (effect : Effect s a t) (hSaving : Saving s) (hApart : a.Apart s)
    (h : Mirrored s) : Mirrored t := by
  cases effect with
  | called call isCall =>
      have hFree : s.holder = none ∧ s.rotating = none := by
        rcases isCall with ⟨x, rfl⟩ | ⟨x, rfl⟩ <;> exact hApart
      exact h.entered call.toEntered hFree.1 hFree.2
  | requested => exact ⟨h.steady, h.swapping, h.clean⟩
  | began hFree => exact ⟨fun _ => h.steady (by simp [hFree]), by simp, h.clean⟩
  | ticked | retried =>
      unfold Store.attempt
      split_ifs <;> exact ⟨h.steady, h.swapping, h.clean⟩
  | skipped capture n rest hFree hQueue => exact ⟨h.steady, h.swapping, h.clean⟩
  | opened job rest hFree hQueue hFresh => exact ⟨h.steady, h.swapping, by simp⟩
  | handed job filter hHolder hLookup => exact ⟨h.steady, h.swapping, by simp⟩
  | written job handed live captured hHolder hLookup hFrom hTo =>
      exact ⟨h.steady, h.swapping, by simp⟩
  | synced job bytes hHolder => exact ⟨h.steady, h.swapping, by simp⟩
  | closed job bytes hHolder => exact ⟨h.steady, h.swapping, by simp⟩
  | abandoned job message hHolder => exact h.fail (h.clean job message hHolder)
  | renamed job bytes hHolder => exact ⟨h.steady, h.swapping, by simp⟩
  | cleared job hHolder =>
      refine ⟨h.steady, h.swapping, ?_⟩
      intro _ _ hEq
      simp only at hEq
      split_ifs at hEq
      cases hEq
  | promoted job hHolder =>
      have hBlob : blobBits g s.disk.currentBlob = s.manager.window.current :=
        hSaving.bytes _ _ hHolder
      refine ⟨by simp, fun _ => ?_, by simp⟩
      rw [← hBlob]
      exact blobBits_promoteBlob s.disk
  | swapped hStage =>
      refine ⟨fun _ => ?_, by simp, h.clean⟩
      simp only [Manager.swap_window]
      exact h.swapping hStage
  | crashed => exact boot_mirrored _ _ _

theorem Faulted.mirrored (fault : Faulted s a t) (hSaving : Saving s) (hSpares : a.SparesRotation s)
    (h : Mirrored s) : Mirrored t := by
  cases fault with
  | closing job phase message hHolder hPhase =>
      refine ⟨h.steady, h.swapping, ?_⟩
      intro _ _ hEq
      cases hEq
      exact hSpares job phase hHolder
  | failed job phase message hHolder => exact h.fail (hSpares job phase hHolder)
  | unpromoted job message hHolder =>
      have hRotation := (hSaving.holds job _ hHolder).2.2 rfl
      rw [hSpares job _ hHolder] at hRotation
      cases hRotation

/-- As long as no rotation's backup has failed, no backup loses anything. -/
theorem retains_of_sparesRotation {numItems : Nat} {periodic : Bool} {disk : Disk}
    {as : List (Action g)} {job : Job}
    (run : Transition.Run (Transition.restrict (FaultySteps g) fun s a => a.SparesRotation s)
      (boot g numItems periodic disk) as s)
    (hStep : FaultySteps g s a t) (hDestroys : s.destroys a = some job) : Retains s t job := by
  have h : Saving s ∧ Mirrored s := by
    refine run.invariant (P := fun s => Saving s ∧ Mirrored s) ?_
      ⟨boot_saving numItems periodic disk, boot_mirrored numItems periodic disk⟩
    rintro s a t ⟨hSaving, h⟩ ⟨hStep, hSpares⟩
    refine ⟨hStep.saving hSaving, ?_⟩
    rcases step_cases hSaving.sync hStep.1 with ⟨entered, x, failures, hCall⟩ | effect | fault
    · have hFree : s.holder = none ∧ s.rotating = none := by
        rcases hCall with rfl | rfl <;> exact hStep.2
      exact h.entered entered hFree.1 hFree.2
    · exact effect.mirrored hSaving hStep.2 h
    · exact fault.mirrored hSaving hSpares h
  rw [h.1.retains_iff hStep.1 hDestroys]
  refine Or.inr fun x hPrevious => Or.inl ?_
  have hStage : s.rotating ≠ some .swapping := by
    rcases destroys_cases hStep.1 hDestroys with ⟨bytes, hHolder, -⟩ | ⟨hHolder, -⟩ | ⟨hHolder, -⟩ <;>
      exact (h.1.holds job _ hHolder).2.1
  obtain ⟨hAddressable, hCovers⟩ := (Manager.slotTest_iff _ x).mp hPrevious
  exact (Manager.slotTest_iff _ x).mpr ⟨hAddressable, hCovers.mono (h.2.steady hStage)⟩

end Store

end TokenRevoker
