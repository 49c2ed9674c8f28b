import TokenRevoker.Core.BackupManager
import TokenRevoker.Library.Transition

/-! One instance with its files, step by step. Periodic backups and rotations
queue on the backup mutex; its holder writes the bytes of a filter that `add` may
change meanwhile, renames them into place and truncates the write-ahead log. A
crash loses everything but the files and starts a new instance on them. -/
namespace TokenRevoker

open Text

/-- What a backup interval captured when it was started. Filter objects are
counted by the swaps that made them current. -/
structure Capture where
  filter : Nat
  generation : Nat
  deriving DecidableEq

/-- A call that waits for the backup mutex or holds it. A periodic one knows the filter it was
scheduled for, which need not be the current one any more. -/
inductive Job where
  | periodic (capture : Capture) (attempt : Nat)
  | rotation (filter : Nat)
  deriving DecidableEq

/-- The filter object the call backs up. -/
def Job.filter : Job → Nat
  | .periodic capture _ => capture.filter
  | .rotation filter => filter

def Job.isRotation : Job → Bool
  | .periodic _ _ => false
  | .rotation _ => true

/-- Where `backupLocal` is suspended. `promoting` is the end of `backupRotate`,
after `backupLocal` has returned to it. -/
inductive Phase (g : Geometry) where
  | opening
  | writing (handed : SizedFilter g)
  | syncing (written : SizedFilter g)
  | closing (written : Except String (SizedFilter g))
  | replacing (written : SizedFilter g)
  | truncating
  | promoting
  deriving DecidableEq

/-- The rotation that holds the manager's mutex: inside `backupRotate`, or past it. The two are
told apart because a failed backup leads to the second one as well. -/
inductive RotationStage where
  | backingUp
  | swapping
  deriving DecidableEq

structure Store (g : Geometry) where
  manager : Manager g
  backups : BackupManager
  disk : Disk
  /-- The object that is `manager.current`. -/
  filter : Nat
  interval : Option Capture
  /-- Periodic backups that wait for their next attempt. -/
  retrying : List (Capture × Nat)
  /-- The backup mutex: who waits, in order, and who holds it. -/
  queue : List Job
  holder : Option (Job × Phase g)
  /-- The manager's mutex: how many rotations wait, and the one that holds it. -/
  waiting : Nat
  rotating : Option RotationStage
  deriving DecidableEq

namespace Store

inductive Action (g : Geometry) where
  | add (filterItem : JsString) (failures : List AppendFailure)
  | applyEntry (filterItem : JsString) (failures : List AppendFailure)
  | requestRotation
  | rotate
  | tick
  | retry
  | acquire
  | written (captured : SizedFilter g)
  | settle (outcome : Except String Unit)
  | promote (outcome : Except String Unit)
  | swap
  | crash

variable {g : Geometry}

/-- A new instance on existing files, in synchronous mode. What it restores, it restores before
anything else can run. -/
def boot (g : Geometry) (numItems : Nat) (periodic : Bool) (disk : Disk) : Store g where
  manager := Manager.restored g numItems disk
  backups := {}
  disk := disk
  filter := 0
  interval := if periodic then some ⟨0, 0⟩ else none
  retrying := []
  queue := []
  holder := none
  waiting := 0
  rotating := none

/-- The filter object behind a reference. Only the last two objects are still used. The numbers
are those of the swaps, so a job of an older filter finds nothing. -/
def lookup (s : Store g) (filter : Nat) : Option (SizedFilter g) :=
  if filter = s.filter then s.manager.current
  else if filter + 1 = s.filter then s.manager.previous
  else none

/-- `BloomFilterManager.add` with its backup manager: the item reaches the
write-ahead log once every guard has let it pass. -/
def add (s : Store g) (failures : List AppendFailure) (filterItem : JsString) :
    Store g × Except RevokerError Unit :=
  match s.manager.add (.ok ()) filterItem with
  | (manager, .error error) => ({ s with manager := manager }, .error error)
  | (_, .ok ()) =>
    let (backups, disk, outcome) := s.backups.backupItem s.disk failures filterItem
    let (manager, result) := s.manager.add outcome filterItem
    ({ s with manager := manager, backups := backups, disk := disk }, result)

/-- `BloomFilterManager.applyEntry` with its backup manager. -/
def applyEntry (s : Store g) (failures : List AppendFailure) (filterItem : JsString) :
    Store g × Except RevokerError Unit :=
  match s.manager.applyEntry (.ok ()) filterItem with
  | (manager, .error error) => ({ s with manager := manager }, .error error)
  | (_, .ok ()) =>
    let (backups, disk, outcome) := s.backups.backupItem s.disk failures filterItem
    let (manager, result) := s.manager.applyEntry outcome filterItem
    ({ s with manager := manager, backups := backups, disk := disk }, result)

/-- `#backupWithRetry` makes an attempt unless the filter has rotated since. -/
def attempt (s : Store g) (capture : Capture) (attempt : Nat) : Store g :=
  if capture.generation = s.backups.generation then
    { s with queue := s.queue ++ [.periodic capture attempt] }
  else s

/-- `backupLocal` failed: the mutex is released; a periodic backup tries again
later, at most three times in all, and a rotation goes on in memory. -/
def fail (s : Store g) : Job → Store g
  | .periodic capture attempt =>
      { s with
        holder := none
        retrying := if attempt < 2 then s.retrying ++ [(capture, attempt + 1)] else s.retrying }
  | .rotation _ => { s with holder := none, rotating := some .swapping }

/-- The next step of `backupLocal` after the operation it was suspended on. -/
def proceed (s : Store g) (job : Job) : Phase g → Except String Unit → Option (Store g)
  | .opening, .ok () =>
      (s.lookup job.filter).map fun filter => { s with holder := some (job, .writing filter) }
  | .opening, .error _ => some (s.fail job)
  | .writing _, .ok () => none
  | .writing _, .error message => some { s with holder := some (job, .closing (.error message)) }
  | .syncing written, .ok () => some { s with holder := some (job, .closing (.ok written)) }
  | .syncing _, .error message => some { s with holder := some (job, .closing (.error message)) }
  | .closing (.ok written), .ok () => some { s with holder := some (job, .replacing written) }
  | .closing _, _ => some (s.fail job)
  | .replacing written, .ok () =>
      some { s with
        disk := { s.disk with currentBlob := some (blobOfBuckets written.buckets) }
        holder := some (job, .truncating) }
  | .replacing _, .error _ => some (s.fail job)
  | .truncating, .ok () =>
      let truncated : Store g := { s with disk := { s.disk with temp := [] } }
      match job with
      | .periodic _ _ => some { truncated with holder := none }
      | .rotation _ => some { truncated with holder := some (job, .promoting) }
  | .truncating, .error _ => some (s.fail job)
  | .promoting, _ => none

/-- The current blob becomes the previous one, if there is a current blob. Where there is none,
the previous one stays as it is. -/
def promoteBlob (disk : Disk) : Disk :=
  match disk.currentBlob with
  | some blob => { disk with currentBlob := none, previousBlob := some blob }
  | none => disk

/-- One synchronous stretch of the program, `none` where it cannot run now. -/
def step (s : Store g) : Action g → Option (Store g)
  | .add filterItem failures => some (s.add failures filterItem).1
  | .applyEntry filterItem failures => some (s.applyEntry failures filterItem).1
  | .requestRotation => some { s with waiting := s.waiting + 1 }
  | .rotate =>
      if s.rotating.isSome || s.waiting == 0 then none
      else some { s with
        waiting := s.waiting - 1
        manager := { s.manager with hasRotated := true }
        backups := { s.backups with generation := s.backups.generation + 1 }
        queue := s.queue ++ [.rotation s.filter]
        rotating := some .backingUp }
  | .tick => s.interval.map fun capture => s.attempt capture 0
  | .retry =>
      match s.retrying with
      | [] => none
      | (capture, attempt) :: rest => some ({ s with retrying := rest }.attempt capture attempt)
  | .acquire =>
      match s.holder, s.queue with
      | none, job :: rest =>
        let skipped := match job with
          | .periodic capture _ => capture.generation != s.backups.generation
          | .rotation _ => false
        if skipped then some { s with queue := rest }
        else some { s with queue := rest, holder := some (job, .opening) }
      | _, _ => none
  | .written captured =>
      match s.holder with
      | some (job, .writing handed) =>
        (s.lookup job.filter).bind fun live =>
          -- the bytes on disk lie between the filter that was handed over and the one there is now
          if BloomFilter.within handed.buckets captured.buckets &&
              BloomFilter.within captured.buckets live.buckets then
            some { s with holder := some (job, .syncing captured) }
          else none
      | _ => none
  | .settle outcome =>
      match s.holder with
      | some (job, phase) => s.proceed job phase outcome
      | none => none
  | .promote outcome =>
      match s.holder with
      | some (_, .promoting) =>
        let released : Store g := { s with holder := none, rotating := some .swapping }
        match outcome with
        | .ok () => some { released with disk := promoteBlob s.disk }
        | .error _ => some released
      | _ => none
  | .swap =>
      if s.rotating = some .swapping then
        some { s with
          manager := s.manager.swap
          filter := s.filter + 1
          interval := s.interval.map fun _ => ⟨s.filter + 1, s.backups.generation⟩
          rotating := none }
      else none
  | .crash => some (boot g s.manager.numItems s.interval.isSome s.disk)

/-- What a call of `add` or `applyEntry` can do while no write fails: nothing but
count, or enter one accepted item in the log and in the current filter. -/
inductive Called (s t : Store g) : Prop where
  | refused (manager : Manager g) (filters : s.manager.SameFilters manager)
      (eq : t = { s with manager := manager })
  | entered (item : JsString) (manager : Manager g) (accepted : Acceptable item)
      (filters : s.manager.Inserted manager item)
      (eq : t = { s with
        manager := manager
        disk := { s.disk with temp := s.disk.temp ++ encodeLines [item] } })

theorem backupItem_nil {backups : BackupManager} (hSync : backups.bufferEnabled = false) (disk : Disk)
    (item : JsString) :
    backups.backupItem disk [] item =
      (backups, { disk with temp := disk.temp ++ encodeLines [item] }, .ok ()) := by
  simp [BackupManager.backupItem, hSync, appendWithRetries, encodeLines]

/-- In buffered mode an item is refused by a full buffer, or is pushed. -/
theorem backupItem_buffered {backups : BackupManager} (hBuffered : backups.bufferEnabled = true)
    (disk : Disk) (item : JsString) :
    (∃ message, backups.backupItem disk [] item = (backups, disk, .error message)) ∨
      backups.backupItem disk [] item =
        ({ backups with writeBuffer := backups.writeBuffer ++ [item] }, disk, .ok ()) := by
  simp only [BackupManager.backupItem, hBuffered, if_true]
  split_ifs
  · exact Or.inl ⟨_, rfl⟩
  · exact Or.inr rfl

/-- `add` and `applyEntry` with the manager's part left open. -/
def enter (s : Store g) (call : Except String Unit → Manager g × Except RevokerError Unit)
    (failures : List AppendFailure) (filterItem : JsString) : Store g × Except RevokerError Unit :=
  match call (.ok ()) with
  | (manager, .error error) => ({ s with manager := manager }, .error error)
  | (_, .ok ()) =>
    let (backups, disk, outcome) := s.backups.backupItem s.disk failures filterItem
    let (manager, result) := call outcome
    ({ s with manager := manager, backups := backups, disk := disk }, result)

theorem add_eq_enter (s : Store g) (failures : List AppendFailure) (item : JsString) :
    s.add failures item = s.enter (fun outcome => s.manager.add outcome item) failures item := rfl

theorem applyEntry_eq_enter (s : Store g) (failures : List AppendFailure) (item : JsString) :
    s.applyEntry failures item = s.enter (fun outcome => s.manager.applyEntry outcome item) failures item := rfl

/-- What a call can do with its item in either mode while no write fails, and its result. -/
inductive Took (s : Store g) (item : JsString) : Store g × Except RevokerError Unit → Prop where
  | refused (manager : Manager g) (error : RevokerError) (filters : s.manager.SameFilters manager) :
      Took s item ({ s with manager := manager }, .error error)
  | logged (manager : Manager g) (hSync : s.backups.bufferEnabled = false) (accepted : Acceptable item)
      (filters : s.manager.Inserted manager item) : Took s item ({ s with
        manager := manager
        disk := { s.disk with temp := s.disk.temp ++ encodeLines [item] } }, .ok ())
  | buffered (manager : Manager g) (hBuffered : s.backups.bufferEnabled = true) (accepted : Acceptable item)
      (filters : s.manager.Inserted manager item) : Took s item ({ s with
        manager := manager
        backups := { s.backups with writeBuffer := s.backups.writeBuffer ++ [item] } }, .ok ())

theorem enter_took {s : Store g} {item : JsString}
    {call : Except String Unit → Manager g × Except RevokerError Unit}
    (hCall : s.manager.Inserts item call) : Took s item (s.enter call [] item) := by
  unfold enter
  rcases hFirst : call (.ok ()) with ⟨manager, error | _⟩
  · have hSame := hCall.error (congrArg Prod.snd hFirst)
    rw [hFirst] at hSame
    exact .refused manager error hSame
  · obtain ⟨accepted, -, hInserted⟩ := hCall.ok (congrArg Prod.snd hFirst)
    rw [hFirst] at hInserted
    cases hMode : s.backups.bufferEnabled with
    | false =>
        simp only [backupItem_nil hMode, hFirst]
        exact .logged manager hMode accepted hInserted
    | true =>
        rcases backupItem_buffered hMode s.disk item with ⟨message, hItem⟩ | hItem
        · simp only [hItem]
          rcases hFault : call (.error message) with ⟨manager, error | _⟩
          · have hSame := hCall.error (congrArg Prod.snd hFault)
            rw [hFault] at hSame
            exact .refused manager error hSame
          · have hNever := (hCall.ok (congrArg Prod.snd hFault)).2.1
            cases hNever
        · simp only [hItem, hFirst]
          exact .buffered manager hMode accepted hInserted

theorem add_took (s : Store g) (item : JsString) : Took s item (s.add [] item) := by
  rw [add_eq_enter]
  exact enter_took (s.manager.add_inserts item)

theorem applyEntry_took (s : Store g) (item : JsString) : Took s item (s.applyEntry [] item) := by
  rw [applyEntry_eq_enter]
  exact enter_took (s.manager.applyEntry_inserts item)

theorem Took.called {s : Store g} {item : JsString} {r : Store g × Except RevokerError Unit}
    (h : Took s item r) (hSync : s.backups.bufferEnabled = false) : Called s r.1 := by
  cases h with
  | refused manager error filters => exact .refused manager filters rfl
  | logged manager _ accepted filters => exact .entered item manager accepted filters rfl
  | buffered manager hBuffered => rw [hSync] at hBuffered; cases hBuffered

theorem add_called {s : Store g} (hSync : s.backups.bufferEnabled = false) (item : JsString) :
    Called s (s.add [] item).1 :=
  (add_took s item).called hSync

theorem applyEntry_called {s : Store g} (hSync : s.backups.bufferEnabled = false) (item : JsString) :
    Called s (s.applyEntry [] item).1 :=
  (applyEntry_took s item).called hSync

/-- A call that returns normally has entered its item. -/
theorem Took.of_ok {s : Store g} {item : JsString} {r : Store g × Except RevokerError Unit}
    (h : Took s item r) (hSync : s.backups.bufferEnabled = false) (hOk : r.2 = .ok ()) :
    Acceptable item ∧ ∃ manager, s.manager.Inserted manager item ∧ r.1 = { s with
      manager := manager
      disk := { s.disk with temp := s.disk.temp ++ encodeLines [item] } } := by
  cases h with
  | refused => cases hOk
  | logged manager _ accepted filters => exact ⟨accepted, manager, filters, rfl⟩
  | buffered manager hBuffered => rw [hSync] at hBuffered; cases hBuffered

/-- An `add` that returns normally has entered its item. -/
theorem add_of_ok {s : Store g} (hSync : s.backups.bufferEnabled = false) {item : JsString}
    (h : (s.add [] item).2 = .ok ()) :
    Acceptable item ∧ ∃ manager, s.manager.Inserted manager item ∧
      (s.add [] item).1 = { s with
        manager := manager
        disk := { s.disk with temp := s.disk.temp ++ encodeLines [item] } } :=
  (add_took s item).of_ok hSync h

/-- An `applyEntry` that returns normally has entered its item. -/
theorem applyEntry_of_ok {s : Store g} (hSync : s.backups.bufferEnabled = false) {item : JsString}
    (h : (s.applyEntry [] item).2 = .ok ()) :
    Acceptable item ∧ ∃ manager, s.manager.Inserted manager item ∧
      (s.applyEntry [] item).1 = { s with
        manager := manager
        disk := { s.disk with temp := s.disk.temp ++ encodeLines [item] } } :=
  (applyEntry_took s item).of_ok hSync h

/-- No operation on a file fails. Crashes are not faults: a new process finds what the last
operation has left. -/
def Action.NoFault : Action g → Prop
  | .add _ failures | .applyEntry _ failures => failures = []
  | .settle outcome | .promote outcome => outcome = .ok ()
  | _ => True

/-- A step of core's timers or of its file operations, none of which fails. -/
def Action.isProgress : Action g → Bool
  | .rotate | .tick | .retry | .acquire | .written _ => true
  | .settle (.ok ()) | .promote (.ok ()) => true
  | _ => false

theorem Action.noFault_of_isProgress {a : Action g} (h : a.isProgress = true) : a.NoFault := by
  cases a with
  | settle outcome | promote outcome =>
      cases outcome with
      | error message => cases h
      | ok => rfl
  | add | applyEntry => cases h
  | _ => trivial

/-- The steps while no operation on a file fails. What fails, and how, is the matter of
`FailedBackup`. -/
def Steps (g : Geometry) : Store g → Action g → Store g → Prop :=
  Transition.restrict (Transition.ofStep step) fun _ a => a.NoFault

/-- What one step can do while no operation on a file fails. The lemmas about runs are proved by
these cases, and never unfold `step`. -/
inductive Effect (s : Store g) : Action g → Store g → Prop where
  | called {a : Action g} {t : Store g} (call : Called s t)
      (isCall : (∃ x, a = .add x []) ∨ ∃ x, a = .applyEntry x []) : Effect s a t
  | requested : Effect s .requestRotation { s with waiting := s.waiting + 1 }
  | began (hFree : s.rotating = none) : Effect s .rotate { s with
      waiting := s.waiting - 1
      manager := { s.manager with hasRotated := true }
      backups := { s.backups with generation := s.backups.generation + 1 }
      queue := s.queue ++ [.rotation s.filter]
      rotating := some .backingUp }
  | ticked (capture : Capture) (hInterval : s.interval = some capture) :
      Effect s .tick (s.attempt capture 0)
  | retried (capture : Capture) (n : Nat) (rest : List (Capture × Nat))
      (hRetrying : s.retrying = (capture, n) :: rest) :
      Effect s .retry ({ s with retrying := rest }.attempt capture n)
  | skipped (capture : Capture) (n : Nat) (rest : List Job) (hFree : s.holder = none)
      (hQueue : s.queue = .periodic capture n :: rest) : Effect s .acquire { s with queue := rest }
  | opened (job : Job) (rest : List Job) (hFree : s.holder = none) (hQueue : s.queue = job :: rest)
      (hFresh : ∀ capture n, job = .periodic capture n → capture.generation = s.backups.generation) :
      Effect s .acquire { s with queue := rest, holder := some (job, .opening) }
  | handed (job : Job) (filter : SizedFilter g) (hHolder : s.holder = some (job, .opening))
      (hLookup : s.lookup job.filter = some filter) :
      Effect s (.settle (.ok ())) { s with holder := some (job, .writing filter) }
  | written (job : Job) (handed live captured : SizedFilter g)
      (hHolder : s.holder = some (job, .writing handed)) (hLookup : s.lookup job.filter = some live)
      (hFrom : BloomFilter.within handed.buckets captured.buckets = true)
      (hTo : BloomFilter.within captured.buckets live.buckets = true) :
      Effect s (.written captured) { s with holder := some (job, .syncing captured) }
  | synced (job : Job) (bytes : SizedFilter g) (hHolder : s.holder = some (job, .syncing bytes)) :
      Effect s (.settle (.ok ())) { s with holder := some (job, .closing (.ok bytes)) }
  | closed (job : Job) (bytes : SizedFilter g)
      (hHolder : s.holder = some (job, .closing (.ok bytes))) :
      Effect s (.settle (.ok ())) { s with holder := some (job, .replacing bytes) }
  | abandoned (job : Job) (message : String)
      (hHolder : s.holder = some (job, .closing (.error message))) :
      Effect s (.settle (.ok ())) (s.fail job)
  | renamed (job : Job) (bytes : SizedFilter g) (hHolder : s.holder = some (job, .replacing bytes)) :
      Effect s (.settle (.ok ())) { s with
        disk := { s.disk with currentBlob := some (blobOfBuckets bytes.buckets) }
        holder := some (job, .truncating) }
  | cleared (job : Job) (hHolder : s.holder = some (job, .truncating)) :
      Effect s (.settle (.ok ())) { s with
        disk := { s.disk with temp := [] }
        holder := if job.isRotation then some (job, .promoting) else none }
  | promoted (job : Job) (hHolder : s.holder = some (job, .promoting)) :
      Effect s (.promote (.ok ())) { s with
        holder := none
        rotating := some .swapping
        disk := promoteBlob s.disk }
  | swapped (hStage : s.rotating = some .swapping) : Effect s .swap { s with
      manager := s.manager.swap
      filter := s.filter + 1
      interval := s.interval.map fun _ => ⟨s.filter + 1, s.backups.generation⟩
      rotating := none }
  | crashed : Effect s .crash (boot g s.manager.numItems s.interval.isSome s.disk)

theorem proceed_effect {s t : Store g} {job : Job} {phase : Phase g}
    (hHolder : s.holder = some (job, phase)) (h : s.proceed job phase (.ok ()) = some t) :
    Effect s (.settle (.ok ())) t := by
  cases phase with
  | opening =>
      obtain ⟨filter, hLookup, rfl⟩ := Option.map_eq_some_iff.mp h
      exact .handed job filter hHolder hLookup
  | writing handed => simp [proceed] at h
  | syncing bytes =>
      cases h
      exact .synced job bytes hHolder
  | closing outcome =>
      rcases outcome with message | bytes
      · cases h
        exact .abandoned job message hHolder
      · cases h
        exact .closed job bytes hHolder
  | replacing bytes =>
      cases h
      exact .renamed job bytes hHolder
  | truncating =>
      cases job with
      | periodic capture n =>
          cases h
          exact .cleared _ hHolder
      | rotation filter =>
          cases h
          exact .cleared _ hHolder
  | promoting => simp [proceed] at h

/-- Calls apart, the mode of the backup manager does not matter. -/
theorem step_effect_of_not_call {s t : Store g} {a : Action g}
    (hAdd : ∀ item failures, a ≠ .add item failures)
    (hApply : ∀ item failures, a ≠ .applyEntry item failures) (h : Steps g s a t) : Effect s a t := by
  obtain ⟨h, hFault⟩ := h
  simp only [Transition.ofStep] at h
  cases a with
  | add item failures => exact absurd rfl (hAdd item failures)
  | applyEntry item failures => exact absurd rfl (hApply item failures)
  | requestRotation =>
      cases h
      exact .requested
  | rotate =>
      simp only [step, Option.ite_none_left_eq_some, Bool.or_eq_true, not_or, Bool.not_eq_true,
        Option.isSome_eq_false_iff, Option.isNone_iff_eq_none] at h
      obtain ⟨⟨hFree, -⟩, hEq⟩ := h
      cases hEq
      exact .began hFree
  | tick =>
      obtain ⟨capture, hInterval, rfl⟩ := Option.map_eq_some_iff.mp h
      exact .ticked capture hInterval
  | retry =>
      simp only [step] at h
      split at h
      · cases h
      · rename_i capture n rest hRetrying
        cases h
        exact .retried capture n rest hRetrying
  | acquire =>
      simp only [step] at h
      split at h
      · rename_i job rest hFree hQueue
        cases job with
        | periodic capture n =>
            simp only [bne_iff_ne, ne_eq] at h
            split_ifs at h with hStale
            · cases h
              exact .opened _ rest hFree hQueue (by
                rintro _ _ hEq
                cases hEq
                exact not_not.mp (by simpa using hStale))
            · cases h
              exact .skipped capture n rest hFree hQueue
        | rotation filter =>
            cases h
            exact .opened _ rest hFree hQueue (by simp)
      · cases h
  | written captured =>
      simp only [step] at h
      split at h
      · rename_i job handed hHolder
        obtain ⟨live, hLookup, hWithin⟩ := Option.bind_eq_some_iff.mp h
        simp only [Option.ite_none_right_eq_some, Bool.and_eq_true] at hWithin
        obtain ⟨⟨hFrom, hTo⟩, hEq⟩ := hWithin
        cases hEq
        exact .written job handed live captured hHolder hLookup hFrom hTo
      · cases h
  | settle outcome =>
      obtain rfl : outcome = .ok () := hFault
      simp only [step] at h
      split at h
      · rename_i job phase hHolder
        exact proceed_effect hHolder h
      · cases h
  | promote outcome =>
      obtain rfl : outcome = .ok () := hFault
      simp only [step] at h
      split at h
      · rename_i job hHolder
        cases h
        exact .promoted job hHolder
      · cases h
  | swap =>
      simp only [step, Option.ite_none_right_eq_some] at h
      obtain ⟨hStage, hEq⟩ := h
      cases hEq
      exact .swapped hStage
  | crash =>
      cases h
      exact .crashed

theorem step_effect {s t : Store g} {a : Action g} (hSync : s.backups.bufferEnabled = false)
    (h : Steps g s a t) : Effect s a t := by
  cases a with
  | add item failures =>
      obtain rfl : failures = [] := h.2
      cases h.1
      exact .called (add_called hSync item) (Or.inl ⟨item, rfl⟩)
  | applyEntry item failures =>
      obtain rfl : failures = [] := h.2
      cases h.1
      exact .called (applyEntry_called hSync item) (Or.inr ⟨item, rfl⟩)
  | _ => exact step_effect_of_not_call (by simp) (by simp) h

/-- What holds of the mutexes, the captures and the log in every state of a run without
failures. It is about mutexes, captures and jobs, and so holds whatever the filters have. -/
structure Ordered (s : Store g) : Prop where
  sync : s.backups.bufferEnabled = false
  current : s.manager.current.isSome
  /-- Every line of the log is an accepted item. -/
  log : ∃ items, (∀ x ∈ items, Acceptable x) ∧ s.disk.temp = encodeLines items
  /-- A capture whose generation is current belongs to the current filter, and no
  rotation has begun since. -/
  captured : ∀ capture, (s.interval = some capture ∨ (∃ n, (capture, n) ∈ s.retrying) ∨
    ∃ n, Job.periodic capture n ∈ s.queue) → capture.generation ≤ s.backups.generation ∧
      (capture.generation = s.backups.generation → s.rotating = none ∧ capture.filter = s.filter)
  queued : ∀ filter, Job.rotation filter ∈ s.queue → filter = s.filter
  /-- A rotation is inside `backupRotate` exactly while its job waits or runs. -/
  rotations : s.queue.countP Job.isRotation +
    (s.holder.elim 0 fun held => if held.1.isRotation then 1 else 0) =
      if s.rotating = some .backingUp then 1 else 0
  holds : ∀ job phase, s.holder = some (job, phase) → job.filter = s.filter ∧
    s.rotating ≠ some .swapping ∧ (phase = .promoting → job.isRotation = true) ∧
    ∀ message, phase ≠ .closing (.error message)

theorem boot_ordered (numItems : Nat) (periodic : Bool) {disk : Disk}
    (hLog : ∃ items, (∀ x ∈ items, Acceptable x) ∧ disk.temp = encodeLines items) :
    Ordered (boot g numItems periodic disk) where
  sync := rfl
  current := Manager.restored_current numItems disk
  log := hLog
  captured := by
    rintro capture (hInterval | ⟨n, hRetrying⟩ | ⟨n, hQueue⟩)
    · simp only [boot] at hInterval
      split_ifs at hInterval
      cases hInterval
      exact ⟨le_rfl, fun _ => ⟨rfl, rfl⟩⟩
    · cases hRetrying
    · cases hQueue
  queued := by simp [boot]
  rotations := rfl
  holds := by simp [boot]

variable {s t : Store g} {a : Action g}

theorem Called.frame (h : Called s t) : t.backups = s.backups ∧ t.filter = s.filter ∧
    t.interval = s.interval ∧ t.retrying = s.retrying ∧ t.queue = s.queue ∧ t.holder = s.holder ∧
    t.rotating = s.rotating ∧ t.disk.currentBlob = s.disk.currentBlob ∧
    t.disk.previousBlob = s.disk.previousBlob ∧ t.manager.previous = s.manager.previous := by
  cases h with
  | refused manager filters eq =>
      subst eq
      exact ⟨rfl, rfl, rfl, rfl, rfl, rfl, rfl, rfl, rfl, filters.previous⟩
  | entered item manager accepted filters eq =>
      subst eq
      exact ⟨rfl, rfl, rfl, rfl, rfl, rfl, rfl, rfl, rfl, filters.previous⟩

theorem Called.log (h : Called s t)
    (hLog : ∃ items, (∀ x ∈ items, Acceptable x) ∧ s.disk.temp = encodeLines items) :
    ∃ items, (∀ x ∈ items, Acceptable x) ∧ t.disk.temp = encodeLines items := by
  cases h with
  | refused manager filters eq =>
      subst eq
      exact hLog
  | entered item manager accepted filters eq =>
      subst eq
      obtain ⟨items, hItems, hTemp⟩ := hLog
      refine ⟨items ++ [item], ?_, ?_⟩
      · intro x hx
        rcases List.mem_append.mp hx with hx | hx
        · exact hItems x hx
        · rwa [List.mem_singleton.mp hx]
      · simp only [hTemp, encodeLines_append]

theorem Called.current (h : Called s t) (hCurrent : s.manager.current.isSome) :
    t.manager.current.isSome := by
  cases h with
  | refused manager filters eq =>
      subst eq
      rwa [← filters.current] at hCurrent
  | entered item manager accepted filters eq =>
      subst eq
      simpa [filters.current] using hCurrent

theorem Ordered.called (h : Ordered s) (call : Called s t) : Ordered t := by
  obtain ⟨hBackups, hFilter, hInterval, hRetrying, hQueue, hHolder, hRotating, -⟩ := call.frame
  refine ⟨hBackups ▸ h.sync, call.current h.current, call.log h.log, ?_, ?_, ?_, ?_⟩ <;>
    simp only [hInterval, hRetrying, hQueue, hBackups, hRotating, hFilter, hHolder]
  · exact h.captured
  · exact h.queued
  · exact h.rotations
  · exact h.holds

theorem Ordered.attempt (h : Ordered s) {capture : Capture}
    (hKnown : capture.generation = s.backups.generation →
      s.rotating = none ∧ capture.filter = s.filter) (n : Nat) : Ordered (s.attempt capture n) := by
  unfold Store.attempt
  split_ifs with hFresh
  · refine ⟨h.sync, h.current, h.log, ?_, ?_, ?_, h.holds⟩
    · rintro other (hInterval | hRetrying | ⟨k, hQueue⟩)
      · exact h.captured other (Or.inl hInterval)
      · exact h.captured other (Or.inr (Or.inl hRetrying))
      · rcases List.mem_append.mp hQueue with hQueue | hQueue
        · exact h.captured other (Or.inr (Or.inr ⟨k, hQueue⟩))
        · cases List.mem_singleton.mp hQueue
          exact ⟨hFresh.le, hKnown⟩
    · intro filter hQueue
      rcases List.mem_append.mp hQueue with hQueue | hQueue
      · exact h.queued filter hQueue
      · cases List.mem_singleton.mp hQueue
    · simpa [List.countP_append, Job.isRotation] using h.rotations
  · exact h

theorem Ordered.no_rotation (h : Ordered s) (hStage : s.rotating ≠ some .backingUp) :
    s.queue.countP Job.isRotation = 0 ∧
      ∀ job phase, s.holder = some (job, phase) → job.isRotation = false := by
  have hCount := h.rotations
  rw [if_neg hStage] at hCount
  refine ⟨by omega, ?_⟩
  intro job phase hHolder
  rw [hHolder] at hCount
  cases hJob : job.isRotation
  · rfl
  · simp [hJob] at hCount

/-- The holder keeps its job while it moves on. -/
theorem Ordered.advance (h : Ordered s) {job : Job} {phase phase' : Phase g} {disk : Disk}
    (hHolder : s.holder = some (job, phase)) (hPhase : phase' = .promoting → job.isRotation = true)
    (hClean : ∀ message, phase' ≠ .closing (.error message))
    (hLog : ∃ items, (∀ x ∈ items, Acceptable x) ∧ disk.temp = encodeLines items) :
    Ordered { s with disk := disk, holder := some (job, phase') } := by
  refine ⟨h.sync, h.current, hLog, h.captured, h.queued, ?_, ?_⟩
  · have hCount := h.rotations
    rw [hHolder] at hCount
    exact hCount
  · intro job' phase'' hEq
    cases hEq
    obtain ⟨hFilter, hStage, -⟩ := h.holds job phase hHolder
    exact ⟨hFilter, hStage, hPhase, hClean⟩

theorem Ordered.released (h : Ordered s) {job : Job} {phase : Phase g} {disk : Disk}
    (hHolder : s.holder = some (job, phase)) (hJob : job.isRotation = false)
    (hLog : ∃ items, (∀ x ∈ items, Acceptable x) ∧ disk.temp = encodeLines items) :
    Ordered { s with disk := disk, holder := none } := by
  refine ⟨h.sync, h.current, hLog, h.captured, h.queued, ?_, by simp⟩
  have hCount := h.rotations
  rw [hHolder] at hCount
  simpa [hJob] using hCount

theorem promoteBlob_temp (disk : Disk) : (promoteBlob disk).temp = disk.temp := by
  unfold promoteBlob
  split <;> rfl

/-- The captures that are left when a job leaves the queue. -/
theorem Ordered.captured_rest (h : Ordered s) {job : Job} {rest : List Job} (hQueue : s.queue = job :: rest)
    (capture : Capture) (hKnown : s.interval = some capture ∨ (∃ n, (capture, n) ∈ s.retrying) ∨
      ∃ n, Job.periodic capture n ∈ rest) : capture.generation ≤ s.backups.generation ∧
        (capture.generation = s.backups.generation → s.rotating = none ∧ capture.filter = s.filter) := by
  rcases hKnown with hInterval | hRetrying | ⟨n, hMem⟩
  · exact h.captured capture (Or.inl hInterval)
  · exact h.captured capture (Or.inr (Or.inl hRetrying))
  · exact h.captured capture (Or.inr (Or.inr ⟨n, by rw [hQueue]; exact List.mem_cons_of_mem _ hMem⟩))

/-- A rotation that begins makes every capture stale. -/
theorem Ordered.began (h : Ordered s) (hFree : s.rotating = none) : Ordered { s with
    waiting := s.waiting - 1
    manager := { s.manager with hasRotated := true }
    backups := { s.backups with generation := s.backups.generation + 1 }
    queue := s.queue ++ [.rotation s.filter]
    rotating := some .backingUp } := by
  refine ⟨h.sync, h.current, h.log, ?_, ?_, ?_, ?_⟩
  · intro capture hKnown
    have hOld : s.interval = some capture ∨ (∃ n, (capture, n) ∈ s.retrying) ∨
        ∃ n, Job.periodic capture n ∈ s.queue := by
      rcases hKnown with hInterval | hRetrying | ⟨n, hQueue⟩
      · exact Or.inl hInterval
      · exact Or.inr (Or.inl hRetrying)
      · rcases List.mem_append.mp hQueue with hQueue | hQueue
        · exact Or.inr (Or.inr ⟨n, hQueue⟩)
        · cases List.mem_singleton.mp hQueue
    have hLe := (h.captured capture hOld).1
    refine ⟨hLe.trans (Nat.le_succ _), fun hEq => ?_⟩
    have hEq' : capture.generation = s.backups.generation + 1 := hEq
    omega
  · intro filter hQueue
    rcases List.mem_append.mp hQueue with hQueue | hQueue
    · exact h.queued filter hQueue
    · cases List.mem_singleton.mp hQueue
      rfl
  · have hCount := h.rotations
    rw [hFree] at hCount
    have hZero : s.queue.countP Job.isRotation +
        (s.holder.elim 0 fun held => if held.1.isRotation then 1 else 0) = 0 := by simpa using hCount
    have hJob : (Job.rotation s.filter).isRotation = true := rfl
    simp only [List.countP_append, List.countP_singleton, hJob, if_true]
    omega
  · intro job phase hHolder
    obtain ⟨hFilter, -, hPhase, hClean⟩ := h.holds job phase hHolder
    exact ⟨hFilter, by simp, hPhase, hClean⟩

/-- The first job of the queue gets the mutex. -/
theorem Ordered.opened (h : Ordered s) {job : Job} {rest : List Job} (hFree : s.holder = none)
    (hQueue : s.queue = job :: rest)
    (hFresh : ∀ capture n, job = .periodic capture n → capture.generation = s.backups.generation) :
    Ordered { s with queue := rest, holder := some (job, .opening) } := by
  have hCount := h.rotations
  rw [hFree, hQueue] at hCount
  have hJob : job.filter = s.filter ∧ s.rotating ≠ some .swapping := by
    cases job with
    | periodic capture n =>
        obtain ⟨hNone, hFilter⟩ := (h.captured capture (Or.inr (Or.inr ⟨n, by simp [hQueue]⟩))).2
          (hFresh capture n rfl)
        exact ⟨hFilter, by simp [hNone]⟩
    | rotation filter =>
        refine ⟨h.queued filter (by simp [hQueue]), ?_⟩
        rintro hStage
        simp [hStage, Job.isRotation] at hCount
  refine ⟨h.sync, h.current, h.log, ?_, ?_, ?_, ?_⟩
  · exact h.captured_rest hQueue
  · intro filter hMem
    exact h.queued filter (by rw [hQueue]; exact List.mem_cons_of_mem _ hMem)
  · simpa [List.countP_cons] using hCount
  · intro job' phase hEq
    cases hEq
    exact ⟨hJob.1, hJob.2, by simp, by simp⟩

/-- No backup of the old filter is left when a rotation swaps. -/
theorem Ordered.swapped (h : Ordered s) (hStage : s.rotating = some .swapping) : Ordered { s with
    manager := s.manager.swap
    filter := s.filter + 1
    interval := s.interval.map fun _ => ⟨s.filter + 1, s.backups.generation⟩
    rotating := none } := by
  have hNone := h.no_rotation (by simp [hStage])
  refine ⟨h.sync, rfl, h.log, ?_, ?_, ?_, ?_⟩
  · intro capture hKnown
    have hOld : ∀ other, (∃ n, (other, n) ∈ s.retrying) ∨ (∃ n, Job.periodic other n ∈ s.queue) →
        other.generation < s.backups.generation := by
      intro other hKnown
      obtain ⟨hLe, hFresh⟩ := h.captured other (Or.inr hKnown)
      refine lt_of_le_of_ne hLe fun hEq => ?_
      have := (hFresh hEq).1
      simp [hStage] at this
    rcases hKnown with hInterval | hKnown
    · obtain ⟨old, -, rfl⟩ := Option.map_eq_some_iff.mp hInterval
      exact ⟨le_rfl, fun _ => ⟨rfl, rfl⟩⟩
    · have hLt := hOld capture hKnown
      refine ⟨hLt.le, fun hEq => ?_⟩
      exact absurd hEq (Nat.ne_of_lt hLt)
  · intro filter hMem
    have := List.countP_eq_zero.mp hNone.1 _ hMem
    simp [Job.isRotation] at this
  · have hCount := h.rotations
    rw [hStage] at hCount
    simpa using hCount
  · intro job phase hHolder
    exact absurd hStage (h.holds job phase hHolder).2.1

/-- Every step without failures keeps the order. -/
theorem Effect.ordered (effect : Effect s a t) (h : Ordered s) : Ordered t := by
  cases effect with
  | called call isCall => exact h.called call
  | requested =>
      exact ⟨h.sync, h.current, h.log, h.captured, h.queued, h.rotations, h.holds⟩
  | began hFree => exact h.began hFree
  | ticked capture hInterval => exact h.attempt (h.captured capture (Or.inl hInterval)).2 0
  | retried capture n rest hRetrying =>
      have hKnown := (h.captured capture (Or.inr (Or.inl ⟨n, by simp [hRetrying]⟩))).2
      have hRest : Ordered { s with retrying := rest } := by
        refine ⟨h.sync, h.current, h.log, ?_, h.queued, h.rotations, h.holds⟩
        rintro other (hInterval | ⟨k, hMem⟩ | hQueue)
        · exact h.captured other (Or.inl hInterval)
        · exact h.captured other
            (Or.inr (Or.inl ⟨k, by rw [hRetrying]; exact List.mem_cons_of_mem _ hMem⟩))
        · exact h.captured other (Or.inr (Or.inr hQueue))
      exact hRest.attempt hKnown n
  | skipped capture n rest hFree hQueue =>
      refine ⟨h.sync, h.current, h.log, h.captured_rest hQueue, ?_, ?_, h.holds⟩
      · intro filter hMem
        exact h.queued filter (by rw [hQueue]; exact List.mem_cons_of_mem _ hMem)
      · simpa [hQueue, Job.isRotation] using h.rotations
  | opened job rest hFree hQueue hFresh => exact h.opened hFree hQueue hFresh
  | handed job filter hHolder hLookup => exact h.advance hHolder (by simp) (by simp) h.log
  | written job handed live captured hHolder hLookup hFrom hTo =>
      exact h.advance hHolder (by simp) (by simp) h.log
  | synced job bytes hHolder => exact h.advance hHolder (by simp) (by simp) h.log
  | closed job bytes hHolder => exact h.advance hHolder (by simp) (by simp) h.log
  | abandoned job message hHolder =>
      exact absurd rfl ((h.holds job _ hHolder).2.2.2 message)
  | renamed job bytes hHolder => exact h.advance hHolder (by simp) (by simp) h.log
  | cleared job hHolder =>
      have hLog : ∃ items : List JsString, (∀ x ∈ items, Acceptable x) ∧
          ({ s.disk with temp := [] } : Disk).temp = encodeLines items := ⟨[], by simp, rfl⟩
      split_ifs with hJob
      · exact h.advance hHolder (fun _ => hJob) (by simp) hLog
      · exact h.released hHolder (by simpa using hJob) hLog
  | promoted job hHolder =>
      have hJob := (h.holds job _ hHolder).2.2.1 rfl
      have hCount := h.rotations
      have hStage : s.rotating = some .backingUp := by
        by_contra hStage
        simp [hHolder, hJob, hStage] at hCount
      refine ⟨h.sync, h.current, ?_, ?_, h.queued, ?_, by simp⟩
      · simpa [promoteBlob_temp] using h.log
      · intro capture hKnown
        obtain ⟨hLe, hFresh⟩ := h.captured capture hKnown
        refine ⟨hLe, fun hEq => ?_⟩
        have hNone := (hFresh hEq).1
        simp [hStage] at hNone
      · simp only [hHolder, hJob, hStage, Option.elim_some, if_true] at hCount
        simp only [Option.elim_none, Option.some.injEq, reduceCtorEq, if_false]
        omega
  | swapped hStage => exact h.swapped hStage
  | crashed => exact boot_ordered _ _ h.log

theorem Steps.ordered (hStep : Steps g s a t) (h : Ordered s) : Ordered t :=
  (step_effect h.sync hStep).ordered h

theorem run_ordered {as : List (Action g)} (run : Transition.Run (Steps g) s as t) (h : Ordered s) :
    Ordered t :=
  run.invariant (fun _ _ _ h hStep => Steps.ordered hStep h) h

end Store

end TokenRevoker
