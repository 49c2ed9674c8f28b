import TokenRevoker.Server.CanonicalHistory

/-! The files of a node and the installation of a snapshot over them. The blobs are
replaced one by one, and the state file last: until then it still says that the local
blobs reflect the log up to the old LSN. -/
namespace TokenRevoker

open Text

/-- What `StateFile` keeps. It is replaced by a rename, so it is whole if it is there;
an unreadable one counts as absent. -/
structure SyncState where
  lastLsn : Nat
  generation : Nat
  dirty : Bool
  deriving DecidableEq

structure NodeFiles where
  disk : Disk
  state : Option SyncState
  deriving DecidableEq

/-- How `init` starts a node. -/
inductive StartPath where
  | resume (lastLsn generation : Nat)
  | bootstrap
  deriving DecidableEq

namespace NodeFiles

/-- `#blobsPresent`. -/
def blobsPresent (files : NodeFiles) : Bool :=
  files.disk.currentBlob.isSome || files.disk.previousBlob.isSome

/-- The decision of `init`. -/
def init (files : NodeFiles) : StartPath :=
  match files.state with
  | some state =>
    if !state.dirty && files.blobsPresent then .resume state.lastLsn state.generation else .bootstrap
  | none => .bootstrap

/-- The removals of `#wipeBackupFiles`. -/
def wipeBackupFiles : List (NodeFiles → NodeFiles) :=
  [fun files => { files with disk := { files.disk with currentBlob := none } },
    fun files => { files with disk := { files.disk with previousBlob := none } },
    fun files => { files with disk := { files.disk with temp := [] } }]

def installCurrent (blob : Bytes) (files : NodeFiles) : NodeFiles :=
  if 0 < blob.length then { files with disk := { files.disk with currentBlob := some blob } } else files

def installPrevious (blob : Bytes) (files : NodeFiles) : NodeFiles :=
  if 0 < blob.length then { files with disk := { files.disk with previousBlob := some blob } } else files

/-- What `#bootstrapFromSnapshot` does to the files, in its order. A file that is
written replaces the old one by a rename. -/
def bootstrapSteps (snapshot : SnapshotData) : List (NodeFiles → NodeFiles) :=
  wipeBackupFiles ++ [installCurrent snapshot.currentBlob, installPrevious snapshot.previousBlob,
    fun files => { files with state := some ⟨snapshot.lastBackupLsn, snapshot.generation, false⟩ }]

/-- The files after a crash that lets only the first steps happen. -/
def crashedInBootstrap (files : NodeFiles) (snapshot : SnapshotData) (steps : Nat) : NodeFiles :=
  ((bootstrapSteps snapshot).take steps).foldl (fun files step => step files) files

/-- The node resumes from the LSN of the state file, if there is a blob at all. -/
theorem init_eq_resume {files : NodeFiles} {state : SyncState} (hState : files.state = some state)
    {lastLsn generation : Nat} (h : files.init = .resume lastLsn generation) :
    (files.disk.currentBlob.isSome ∨ files.disk.previousBlob.isSome) ∧ lastLsn = state.lastLsn := by
  rw [init, hState] at h
  simp only [blobsPresent, Bool.and_eq_true, Bool.or_eq_true] at h
  split_ifs at h with hClean
  cases h
  exact ⟨hClean.2, rfl⟩

end NodeFiles

/-- The entry of `x` has this LSN, and fewer than two markers follow it. -/
def StillCovered (history : List LogRecord) (lsn : Nat) (x : JsString) : Prop :=
  (lsn, .entry x) ∈ history ∧ (markersOf (history.filter fun r => lsn < r.1)).length < 2

/-- A filter restored from the files covers every such item with an LSN up to this one. -/
def CoversUpTo (g : Geometry) (numItems : Nat) (disk : Disk) (history : List LogRecord) (last : Nat) :
    Prop :=
  ∀ lsn x, StillCovered history lsn x → lsn ≤ last → (Manager.restored g numItems disk).covers x = true

theorem CoversUpTo.mono {g : Geometry} {numItems : Nat} {disk : Disk} {history : List LogRecord}
    {last last' : Nat} (h : CoversUpTo g numItems disk history last) (hLe : last' ≤ last) :
    CoversUpTo g numItems disk history last' :=
  fun lsn x hCovered hLsn => h lsn x hCovered (hLsn.trans hLe)

/-- `#validateSnapshotGeometry`, which a snapshot passes before any file is touched. -/
def validateSnapshotGeometry (config : FilterConfig) (snapshot : SnapshotData) : Bool :=
  snapshot.numItems == config.numItems && snapshot.fpRate == config.fpRate

/-- A node that is about to install a snapshot, and the log its coordinator keeps. -/
structure Installation (g : Geometry) where
  config : FilterConfig
  history : List LogRecord
  disk : Disk
  lastLsn : Nat
  generation : Nat
  snapshot : SnapshotData

namespace Installation

variable {g : Geometry} {i : Installation g} {steps lsn : Nat} {x : JsString}

/-- The files before the first step. -/
def files (i : Installation g) : NodeFiles := ⟨i.disk, some ⟨i.lastLsn, i.generation, false⟩⟩

/-- The files of the snapshot alone. -/
def installed (i : Installation g) : Disk :=
  (NodeFiles.installPrevious i.snapshot.previousBlob
    (NodeFiles.installCurrent i.snapshot.currentBlob ⟨{}, none⟩)).disk

/-- The log is one a coordinator keeps, the snapshot has the node's geometry, and both
the local files and the snapshot are as good as the LSN they come with. -/
structure Valid (i : Installation g) : Prop where
  lsns : i.history.map Prod.fst = List.range' 1 i.history.length
  markers : markersOf i.history = List.range' 1 (markersOf i.history).length
  items : ∀ lsn x, (lsn, .entry x) ∈ i.history → Acceptable x
  lastLsn_le : i.lastLsn ≤ i.history.length
  backup_le : i.snapshot.lastBackupLsn ≤ i.history.length
  geometry : validateSnapshotGeometry i.config i.snapshot = true
  local_covers : CoversUpTo g i.config.numItems i.disk i.history i.lastLsn
  snapshot_covers : CoversUpTo g i.config.numItems i.installed i.history i.snapshot.lastBackupLsn

/-- After a crash behind this many steps, the node takes the snapshot path again, or it
resumes with files that are as good as the LSN it resumes from. -/
def Atomic (i : Installation g) (steps : Nat) : Prop :=
  ∀ lastLsn generation,
    (i.files.crashedInBootstrap i.snapshot steps).init = .resume lastLsn generation →
    CoversUpTo g i.config.numItems (i.files.crashedInBootstrap i.snapshot steps).disk i.history lastLsn

/-- The snapshot has no blobs. -/
def Empty (i : Installation g) : Prop := i.snapshot.currentBlob = [] ∧ i.snapshot.previousBlob = []

/-- When a crash behind this many steps does no harm. The node resumes from the old LSN
on one old blob after the first step, on one new blob after the fourth, and on both new
blobs after the fifth. -/
def Harmless (i : Installation g) : Nat → Prop
  | 1 => i.lastLsn = 0 ∨ i.disk.currentBlob = none ∨ i.disk.previousBlob = none ∨
      i.Empty ∧ i.lastLsn ≤ i.snapshot.lastBackupLsn
  | 4 => i.lastLsn = 0 ∨ i.snapshot.currentBlob = [] ∨
      i.snapshot.previousBlob = [] ∧ i.lastLsn ≤ i.snapshot.lastBackupLsn
  | 5 => i.lastLsn = 0 ∨ i.Empty ∨ i.lastLsn ≤ i.snapshot.lastBackupLsn
  | _ => True

/-- The same files exist, the same blobs are served, and the LSNs are the same. -/
structure Similar {g' : Geometry} (j : Installation g') (i : Installation g) : Prop where
  current : j.disk.currentBlob.isSome = i.disk.currentBlob.isSome
  previous : j.disk.previousBlob.isSome = i.disk.previousBlob.isSome
  newCurrent : j.snapshot.currentBlob = [] ↔ i.snapshot.currentBlob = []
  newPrevious : j.snapshot.previousBlob = [] ↔ i.snapshot.previousBlob = []
  lastLsn : j.lastLsn = i.lastLsn
  backupLsn : j.snapshot.lastBackupLsn = i.snapshot.lastBackupLsn

theorem Valid.lsn_pos (h : i.Valid) (hCovered : StillCovered i.history lsn x) : 0 < lsn := by
  have hMem : lsn ∈ i.history.map Prod.fst := List.mem_map_of_mem hCovered.1
  rw [h.lsns, List.mem_range'_1] at hMem
  omega

/-- Nothing has to be covered before the first LSN. -/
theorem Valid.coversUpTo_zero (h : i.Valid) (disk : Disk) :
    CoversUpTo g i.config.numItems disk i.history 0 := by
  intro lsn x hCovered hLe
  have := h.lsn_pos hCovered
  omega

theorem installed_eq (i : Installation g) : i.installed =
    { currentBlob := if 0 < i.snapshot.currentBlob.length then some i.snapshot.currentBlob else none
      previousBlob := if 0 < i.snapshot.previousBlob.length then some i.snapshot.previousBlob else none
      temp := [] } := by
  unfold installed NodeFiles.installPrevious NodeFiles.installCurrent
  split_ifs <;> rfl

theorem installed_empty (h : i.Empty) : i.installed = {} := by
  rw [installed_eq, h.1, h.2]
  rfl

theorem covers_restored_empty (g : Geometry) (numItems : Nat) (x : JsString) :
    (Manager.restored g numItems {}).covers x = false := by
  show ((SizedFilter.create g).test x || false) = false
  rw [SizedFilter.test_create, Bool.or_false]

/-- Up to the fifth step the state file is the old one. -/
theorem crashed_state (files : NodeFiles) (snapshot : SnapshotData) (hSteps : steps < 6) :
    (files.crashedInBootstrap snapshot steps).state = files.state := by
  unfold NodeFiles.crashedInBootstrap NodeFiles.bootstrapSteps NodeFiles.wipeBackupFiles
  interval_cases steps <;> try rfl
  · simp only [List.cons_append, List.nil_append, List.take, List.foldl, NodeFiles.installCurrent]
    split_ifs <;> rfl
  · simp only [List.cons_append, List.nil_append, List.take, List.foldl, NodeFiles.installCurrent,
      NodeFiles.installPrevious]
    split_ifs <;> rfl

/-- Before the state file is written, the node can only resume from the old LSN. -/
theorem atomic_of_old (hSteps : steps < 6)
    (h : (i.files.crashedInBootstrap i.snapshot steps).blobsPresent = true →
      CoversUpTo g i.config.numItems (i.files.crashedInBootstrap i.snapshot steps).disk i.history
        i.lastLsn) : i.Atomic steps := by
  intro lastLsn generation hInit
  obtain ⟨hPresent, hLsn⟩ := NodeFiles.init_eq_resume (crashed_state i.files i.snapshot hSteps) hInit
  rw [hLsn]
  exact h (by simpa [NodeFiles.blobsPresent] using hPresent)

theorem crashed_one_disk : (i.files.crashedInBootstrap i.snapshot 1).disk =
    { i.disk with currentBlob := none } := rfl

theorem crashed_four_disk : (i.files.crashedInBootstrap i.snapshot 4).disk =
    { i.installed with previousBlob := none } := by
  rw [installed_eq]
  simp only [NodeFiles.crashedInBootstrap, NodeFiles.bootstrapSteps, NodeFiles.wipeBackupFiles,
    List.cons_append, List.nil_append, List.take, List.foldl, NodeFiles.installCurrent]
  split_ifs <;> rfl

theorem crashed_five_disk : (i.files.crashedInBootstrap i.snapshot 5).disk = i.installed := by
  rw [installed_eq]
  simp only [NodeFiles.crashedInBootstrap, NodeFiles.bootstrapSteps, NodeFiles.wipeBackupFiles,
    List.cons_append, List.nil_append, List.take, List.foldl, NodeFiles.installCurrent,
    NodeFiles.installPrevious]
  split_ifs <;> rfl

theorem crashed_six (n : Nat) : i.files.crashedInBootstrap i.snapshot (n + 6) =
    ⟨i.installed, some ⟨i.snapshot.lastBackupLsn, i.snapshot.generation, false⟩⟩ := by
  have hLength : (NodeFiles.bootstrapSteps i.snapshot).length ≤ n + 6 := Nat.le_add_left 6 n
  rw [NodeFiles.crashedInBootstrap, List.take_of_length_le hLength, ← crashed_five_disk]
  rfl

/-- Where the condition holds, the installation is atomic. -/
theorem Valid.atomic (h : i.Valid) (hHarmless : i.Harmless steps) : i.Atomic steps := by
  match steps, hHarmless with
  | 0, _ => exact atomic_of_old (by decide) fun _ => h.local_covers
  | 1, hHarmless =>
      refine atomic_of_old (by decide) fun hPresent => ?_
      rw [crashed_one_disk]
      rcases hHarmless with hZero | hCurrent | hPrevious | ⟨hEmpty, hLe⟩
      · rw [hZero]
        exact h.coversUpTo_zero _
      · have hSame : ({ i.disk with currentBlob := none } : Disk) = i.disk := by rw [← hCurrent]
        rw [hSame]
        exact h.local_covers
      · rw [NodeFiles.blobsPresent, crashed_one_disk] at hPresent
        simp [hPrevious] at hPresent
      · intro lsn x hCovered hLsn
        have hNone := h.snapshot_covers lsn x hCovered (hLsn.trans hLe)
        rw [installed_empty hEmpty, covers_restored_empty] at hNone
        cases hNone
  | 2, _ => exact atomic_of_old (by decide) fun hPresent => absurd hPresent Bool.false_ne_true
  | 3, _ => exact atomic_of_old (by decide) fun hPresent => absurd hPresent Bool.false_ne_true
  | 4, hHarmless =>
      refine atomic_of_old (by decide) fun hPresent => ?_
      rw [crashed_four_disk]
      rcases hHarmless with hZero | hCurrent | ⟨hPrevious, hLe⟩
      · rw [hZero]
        exact h.coversUpTo_zero _
      · rw [NodeFiles.blobsPresent, crashed_four_disk, installed_eq] at hPresent
        simp [hCurrent] at hPresent
      · have hSame : ({ i.installed with previousBlob := none } : Disk) = i.installed := by
          rw [installed_eq]
          simp [hPrevious]
        rw [hSame]
        exact h.snapshot_covers.mono hLe
  | 5, hHarmless =>
      refine atomic_of_old (by decide) fun hPresent => ?_
      rw [crashed_five_disk]
      rcases hHarmless with hZero | ⟨hCurrent, hPrevious⟩ | hLe
      · rw [hZero]
        exact h.coversUpTo_zero _
      · rw [NodeFiles.blobsPresent, crashed_five_disk, installed_eq] at hPresent
        simp [hCurrent, hPrevious] at hPresent
      · exact h.snapshot_covers.mono hLe
  | n + 6, _ =>
      intro lastLsn generation hInit
      rw [crashed_six] at hInit ⊢
      obtain ⟨-, rfl⟩ := NodeFiles.init_eq_resume rfl hInit
      exact h.snapshot_covers

theorem blob_ne_nil (filter : SizedFilter g) : blobOfBuckets filter.buckets ≠ [] := by
  have hLength := length_blobOfBuckets filter.buckets
  rw [filter.fits.2] at hLength
  have := g.bucketCount_pos
  intro hNil
  rw [hNil, List.length_nil] at hLength
  omega

/-- A blob is left, and an entry up to the old LSN is in none of the files. -/
theorem not_atomic (hSteps : steps < 6)
    (hPresent : (i.files.crashedInBootstrap i.snapshot steps).blobsPresent = true)
    (hCovered : StillCovered i.history lsn x) (hLe : lsn ≤ i.lastLsn)
    (hLost : (Manager.restored g i.config.numItems
      (i.files.crashedInBootstrap i.snapshot steps).disk).covers x = false) : ¬ i.Atomic steps := by
  intro hAtomic
  have hInit : (i.files.crashedInBootstrap i.snapshot steps).init = .resume i.lastLsn i.generation := by
    rw [NodeFiles.init, crashed_state i.files i.snapshot hSteps]
    simp only [hPresent]
    rfl
  have hCovers := hAtomic i.lastLsn i.generation hInit lsn x hCovered hLe
  rw [hLost] at hCovers
  cases hCovers

/-- An installation similar to `i` on a log of markers and then entries of one item. -/
def sample (i : Installation g) (markers : Nat) (disk : Disk)
    (newCurrent newPrevious : SizedFilter .oneBucket) : Installation .oneBucket where
  config := ⟨1, 1 / 10, 60⟩
  history := (List.range' 1 markers).map (fun n => (n, Payload.rotate n)) ++
    (List.range' (markers + 1) (max i.lastLsn i.snapshot.lastBackupLsn - markers)).map
      fun n => (n, Payload.entry [97])
  disk := disk
  lastLsn := i.lastLsn
  generation := i.generation
  snapshot := {
    currentBlob := if i.snapshot.currentBlob = [] then [] else blobOfBuckets newCurrent.buckets
    previousBlob := if i.snapshot.previousBlob = [] then [] else blobOfBuckets newPrevious.buckets
    generation := markers
    lastBackupLsn := i.snapshot.lastBackupLsn
    numItems := 1
    fpRate := 1 / 10
    k := 1
    rotateTime := 60 }

section Sample

variable {markers : Nat} {disk : Disk} {newCurrent newPrevious : SizedFilter .oneBucket}

theorem mem_sample {r : LogRecord} : r ∈ (i.sample markers disk newCurrent newPrevious).history ↔
    (∃ n, 1 ≤ n ∧ n ≤ markers ∧ r = (n, .rotate n)) ∨
      ∃ n, markers < n ∧ n ≤ max i.lastLsn i.snapshot.lastBackupLsn ∧ r = (n, .entry [97]) := by
  simp only [sample, List.mem_append, List.mem_map, List.mem_range'_1]
  constructor
  · rintro (⟨n, hn, rfl⟩ | ⟨n, hn, rfl⟩)
    · exact Or.inl ⟨n, by omega, by omega, rfl⟩
    · exact Or.inr ⟨n, by omega, by omega, rfl⟩
  · rintro (⟨n, hLow, hHigh, rfl⟩ | ⟨n, hLow, hHigh, rfl⟩)
    · exact Or.inl ⟨n, by omega, rfl⟩
    · exact Or.inr ⟨n, by omega, rfl⟩

theorem stillCovered_sample : StillCovered (i.sample markers disk newCurrent newPrevious).history lsn x ↔
    markers < lsn ∧ lsn ≤ max i.lastLsn i.snapshot.lastBackupLsn ∧ x = [97] := by
  constructor
  · rintro ⟨hMem, -⟩
    rcases mem_sample.mp hMem with ⟨n, -, -, hEq⟩ | ⟨n, hLow, hHigh, hEq⟩
    · cases hEq
    · cases hEq
      exact ⟨hLow, hHigh, rfl⟩
  · rintro ⟨hLow, hHigh, rfl⟩
    refine ⟨mem_sample.mpr (Or.inr ⟨lsn, hLow, hHigh, rfl⟩), ?_⟩
    have hNone : markersOf ((i.sample markers disk newCurrent newPrevious).history.filter
        fun r => lsn < r.1) = [] := by
      refine markersOf_eq_nil_iff.mpr fun r hr generation hRotate => ?_
      obtain ⟨hMem, hLt⟩ := List.mem_filter.mp hr
      simp only [decide_eq_true_eq] at hLt
      rcases mem_sample.mp hMem with ⟨n, -, hMarker, rfl⟩ | ⟨n, -, -, rfl⟩
      · omega
      · cases hRotate
    rw [hNone]
    exact Nat.zero_lt_two

theorem valid_sample (hMarkers : markers ≤ max i.lastLsn i.snapshot.lastBackupLsn)
    (hLocal : i.lastLsn ≤ markers ∨ (Manager.restored .oneBucket 1 disk).covers [97] = true)
    (hSnapshot : i.snapshot.lastBackupLsn ≤ markers ∨ (Manager.restored .oneBucket 1
      (i.sample markers disk newCurrent newPrevious).installed).covers [97] = true) :
    (i.sample markers disk newCurrent newPrevious).Valid := by
  have hLength : (i.sample markers disk newCurrent newPrevious).history.length =
      max i.lastLsn i.snapshot.lastBackupLsn := by
    simp only [sample, List.length_append, List.length_map, List.length_range']
    omega
  refine ⟨?_, ?_, ?_, ?_, ?_, by simp [validateSnapshotGeometry, sample], ?_, ?_⟩
  · rw [hLength]
    simp only [sample, List.map_append, List.map_map, Function.comp_def, List.map_id']
    rw [Nat.add_comm markers 1, List.range'_append_1]
    congr 1
    omega
  · simp only [sample, markersOf_append]
    have hEntries : markersOf ((List.range' (markers + 1)
        (max i.lastLsn i.snapshot.lastBackupLsn - markers)).map fun n => (n, Payload.entry [97])) = [] := by
      refine markersOf_eq_nil_iff.mpr fun r hr generation hRotate => ?_
      obtain ⟨n, -, rfl⟩ := List.mem_map.mp hr
      cases hRotate
    have hMarks : markersOf ((List.range' 1 markers).map fun n => (n, Payload.rotate n)) =
        List.range' 1 markers := by
      rw [markersOf, List.filterMap_map]
      exact List.filterMap_some
    rw [hEntries, hMarks, List.append_nil, List.length_range']
  · intro lsn x hMem
    rcases mem_sample.mp hMem with ⟨n, -, -, hEq⟩ | ⟨n, -, -, hEq⟩
    · cases hEq
    · cases hEq
      decide
  · rw [hLength]
    exact Nat.le_max_left _ _
  · rw [hLength]
    exact Nat.le_max_right _ _
  · intro lsn x hCovered hLe
    obtain ⟨hLow, -, rfl⟩ := stillCovered_sample.mp hCovered
    have hLe' : lsn ≤ i.lastLsn := hLe
    exact hLocal.resolve_left (by omega)
  · intro lsn x hCovered hLe
    obtain ⟨hLow, -, rfl⟩ := stillCovered_sample.mp hCovered
    have hLe' : lsn ≤ i.snapshot.lastBackupLsn := hLe
    exact hSnapshot.resolve_left (by omega)

/-- The filter with the bits of the item of the samples. -/
def sampleFilter : SizedFilter .oneBucket := (SizedFilter.create .oneBucket).add [97]

/-- The blobs of a sample, where the installation has one. -/
def sampleDisk (i : Installation g) (current : SizedFilter .oneBucket) (temp : Bytes) : Disk where
  currentBlob := i.disk.currentBlob.map fun _ => blobOfBuckets current.buckets
  previousBlob := i.disk.previousBlob.map fun _ => blobOfBuckets (SizedFilter.create .oneBucket).buckets
  temp := temp

theorem similar_sample (current : SizedFilter .oneBucket) (temp : Bytes) :
    (i.sample markers (i.sampleDisk current temp) newCurrent newPrevious).Similar i where
  current := by simp [sample, sampleDisk]
  previous := by simp [sample, sampleDisk]
  newCurrent := by
    simp only [sample]
    split_ifs with hEmpty
    · simp [hEmpty]
    · simp only [hEmpty, iff_false]
      exact blob_ne_nil newCurrent
  newPrevious := by
    simp only [sample]
    split_ifs with hEmpty
    · simp [hEmpty]
    · simp only [hEmpty, iff_false]
      exact blob_ne_nil newPrevious
  lastLsn := rfl
  backupLsn := rfl

theorem installed_sample : (i.sample markers disk newCurrent newPrevious).installed =
    { currentBlob := if i.snapshot.currentBlob = [] then none else some (blobOfBuckets newCurrent.buckets)
      previousBlob := if i.snapshot.previousBlob = [] then none else some (blobOfBuckets newPrevious.buckets)
      temp := [] } := by
  have hCurrent := List.length_pos_of_ne_nil (blob_ne_nil newCurrent)
  have hPrevious := List.length_pos_of_ne_nil (blob_ne_nil newPrevious)
  rw [installed_eq]
  simp only [sample]
  split_ifs <;> simp_all

/-- The log of a sample with the item of its entries in the local temp file. -/
def sampleTemp : Bytes := encodeLines [[97]]

theorem covers_sampleTemp : (Manager.restored .oneBucket 1
    (i.sampleDisk (SizedFilter.create .oneBucket) sampleTemp)).covers [97] = true := by
  unfold sampleDisk
  cases i.disk.currentBlob <;> cases i.disk.previousBlob <;>
    simp only [Option.map_none, Option.map_some] <;> decide

/-- Both old blobs exist: without the current one, its entries are lost. -/
theorem broken_one (hLsn : i.lastLsn ≠ 0) (hCurrent : i.disk.currentBlob ≠ none)
    (hPrevious : i.disk.previousBlob ≠ none)
    (hSnapshot : ¬ (i.Empty ∧ i.lastLsn ≤ i.snapshot.lastBackupLsn)) :
    ∃ j : Installation .oneBucket, j.Valid ∧ j.Similar i ∧ ¬ j.Atomic 1 := by
  obtain ⟨current, hCurrent⟩ := Option.ne_none_iff_exists'.mp hCurrent
  obtain ⟨previous, hPrevious⟩ := Option.ne_none_iff_exists'.mp hPrevious
  have hDisk : i.sampleDisk sampleFilter [] = ⟨some (blobOfBuckets sampleFilter.buckets),
      some (blobOfBuckets (SizedFilter.create .oneBucket).buckets), []⟩ := by
    rw [sampleDisk, hCurrent, hPrevious]
    rfl
  have hLocal : (Manager.restored .oneBucket 1 (i.sampleDisk sampleFilter [])).covers [97] = true := by
    rw [hDisk]
    decide
  obtain ⟨markers, hMarkers, hServed⟩ : ∃ markers < i.lastLsn, i.snapshot.lastBackupLsn ≤ markers ∨
      (Manager.restored .oneBucket 1 (i.sample markers (i.sampleDisk sampleFilter []) sampleFilter
        sampleFilter).installed).covers [97] = true := by
    by_cases hEmpty : i.Empty
    · exact ⟨i.snapshot.lastBackupLsn, by simpa [hEmpty] using hSnapshot, Or.inl (Nat.le_refl _)⟩
    · refine ⟨0, Nat.pos_of_ne_zero hLsn, Or.inr ?_⟩
      rw [installed_sample]
      rw [Empty] at hEmpty
      split_ifs with hFirst hSecond hSecond
      · exact absurd ⟨hFirst, hSecond⟩ hEmpty
      all_goals decide
  refine ⟨i.sample markers (i.sampleDisk sampleFilter []) sampleFilter sampleFilter,
    valid_sample (by omega) (Or.inr hLocal) hServed, similar_sample _ _,
    not_atomic (by decide) ?_ (stillCovered_sample.mpr ⟨hMarkers, Nat.le_max_left _ _, rfl⟩)
      (Nat.le_refl _) ?_⟩
  · rw [NodeFiles.blobsPresent, crashed_one_disk]
    show (_ || (i.sampleDisk sampleFilter []).previousBlob.isSome) = true
    rw [hDisk]
    rfl
  · rw [crashed_one_disk]
    show (Manager.restored .oneBucket 1
      { i.sampleDisk sampleFilter [] with currentBlob := none }).covers [97] = false
    rw [hDisk]
    decide

/-- Only the new current blob is there: what the other one covers is lost, or what came
after the snapshot. -/
theorem broken_four (hLsn : i.lastLsn ≠ 0) (hCurrent : i.snapshot.currentBlob ≠ [])
    (hRest : ¬ (i.snapshot.previousBlob = [] ∧ i.lastLsn ≤ i.snapshot.lastBackupLsn)) :
    ∃ j : Installation .oneBucket, j.Valid ∧ j.Similar i ∧ ¬ j.Atomic 4 := by
  obtain ⟨markers, hMarkers, hServed⟩ : ∃ markers < i.lastLsn, i.snapshot.lastBackupLsn ≤ markers ∨
      (Manager.restored .oneBucket 1 (i.sample markers (i.sampleDisk (SizedFilter.create _) sampleTemp)
        (SizedFilter.create _) sampleFilter).installed).covers [97] = true := by
    by_cases hPrevious : i.snapshot.previousBlob = []
    · exact ⟨i.snapshot.lastBackupLsn, by simpa [hPrevious] using hRest, Or.inl (Nat.le_refl _)⟩
    · refine ⟨0, Nat.pos_of_ne_zero hLsn, Or.inr ?_⟩
      rw [installed_sample, if_neg hCurrent, if_neg hPrevious]
      decide
  refine ⟨i.sample markers (i.sampleDisk (SizedFilter.create _) sampleTemp) (SizedFilter.create _)
      sampleFilter, valid_sample (by omega) (Or.inr covers_sampleTemp) hServed, similar_sample _ _,
    not_atomic (by decide) ?_ (stillCovered_sample.mpr ⟨hMarkers, Nat.le_max_left _ _, rfl⟩)
      (Nat.le_refl _) ?_⟩
  · rw [NodeFiles.blobsPresent, crashed_four_disk, installed_sample, if_neg hCurrent]
    rfl
  · rw [crashed_four_disk, installed_sample, if_neg hCurrent]
    show (Manager.restored .oneBucket 1
      ⟨some (blobOfBuckets (SizedFilter.create .oneBucket).buckets), none, []⟩).covers [97] = false
    decide

/-- Both new blobs are there: what came after the snapshot is lost. -/
theorem broken_five (hBlobs : ¬ i.Empty) (hLsn : i.snapshot.lastBackupLsn < i.lastLsn) :
    ∃ j : Installation .oneBucket, j.Valid ∧ j.Similar i ∧ ¬ j.Atomic 5 := by
  refine ⟨i.sample i.snapshot.lastBackupLsn (i.sampleDisk (SizedFilter.create _) sampleTemp)
      (SizedFilter.create _) (SizedFilter.create _),
    valid_sample (Nat.le_max_right _ _) (Or.inr covers_sampleTemp) (Or.inl (Nat.le_refl _)),
    similar_sample _ _,
    not_atomic (by decide) ?_ (stillCovered_sample.mpr ⟨hLsn, Nat.le_max_left _ _, rfl⟩)
      (Nat.le_refl _) ?_⟩
  · rw [NodeFiles.blobsPresent, crashed_five_disk, installed_sample]
    rw [Empty, not_and_or] at hBlobs
    rcases hBlobs with hCurrent | hPrevious
    · rw [if_neg hCurrent]
      rfl
    · rw [if_neg hPrevious, Bool.or_eq_true]
      exact Or.inr rfl
  · rw [crashed_five_disk, installed_sample]
    show (Manager.restored .oneBucket 1 _).covers [97] = false
    split_ifs <;> decide

end Sample

theorem exists_broken (h : ¬ i.Harmless steps) :
    ∃ j : Installation .oneBucket, j.Valid ∧ j.Similar i ∧ ¬ j.Atomic steps := by
  match steps, h with
  | 1, h =>
      simp only [Harmless, not_or] at h
      exact broken_one h.1 h.2.1 h.2.2.1 h.2.2.2
  | 4, h =>
      simp only [Harmless, not_or] at h
      exact broken_four h.1 h.2.1 h.2.2
  | 5, h =>
      simp only [Harmless, not_or, Nat.not_le] at h
      exact broken_five h.2.1 h.2.2
  | 0, h | 2, h | 3, h | _ + 6, h => exact absurd trivial h

/-- The condition only looks at which files there are, and at the LSNs. -/
theorem Similar.harmless {g' : Geometry} {j : Installation g'} (h : j.Similar i)
    (hHarmless : i.Harmless steps) : j.Harmless steps := by
  have hCurrent : j.disk.currentBlob = none ↔ i.disk.currentBlob = none := by
    rw [← Option.not_isSome_iff_eq_none, h.current, Option.not_isSome_iff_eq_none]
  have hPrevious : j.disk.previousBlob = none ↔ i.disk.previousBlob = none := by
    rw [← Option.not_isSome_iff_eq_none, h.previous, Option.not_isSome_iff_eq_none]
  match steps, hHarmless with
  | 1, hHarmless | 4, hHarmless | 5, hHarmless =>
      simpa only [Harmless, Empty, h.lastLsn, h.backupLsn, h.newCurrent, h.newPrevious, hCurrent,
        hPrevious] using hHarmless
  | 0, _ | 2, _ | 3, _ | _ + 6, _ => trivial

/-- Among the installations with the same files, the same blobs and the same LSNs, all are
atomic at a point of the installation exactly when a crash there is harmless. A single
installation may be atomic at another point by accident, when its blobs answer like the files
they replace. -/
theorem forall_atomic_iff (i : Installation g) (steps : Nat) :
    (∀ (g' : Geometry) (j : Installation g'), j.Valid → j.Similar i → j.Atomic steps) ↔
      i.Harmless steps := by
  constructor
  · intro h
    by_contra hHarmful
    obtain ⟨j, hValid, hSimilar, hBroken⟩ := exists_broken hHarmful
    exact hBroken (h _ j hValid hSimilar)
  · intro hHarmless g' j hValid hSimilar
    exact hValid.atomic (hSimilar.harmless hHarmless)

/-- A rotation, and an entry after it that is in the local log of the node. The snapshot
of the rotation has one blob, the empty previous filter. -/
def afterRotation : Installation .oneBucket where
  config := ⟨1, 1 / 10, 60⟩
  history := [(1, .rotate 1), (2, .entry [97])]
  disk := ⟨none, some (blobOfBuckets (SizedFilter.create .oneBucket).buckets), encodeLines [[97]]⟩
  lastLsn := 2
  generation := 1
  snapshot := {
    currentBlob := []
    previousBlob := blobOfBuckets (SizedFilter.create .oneBucket).buckets
    generation := 1
    lastBackupLsn := 1
    numItems := 1
    fpRate := 1 / 10
    k := 1
    rotateTime := 60 }

theorem entry_afterRotation {lsn : Nat} {x : JsString} (h : StillCovered afterRotation.history lsn x) :
    lsn = 2 ∧ x = [97] := by
  have hMem := h.1
  simp only [afterRotation, List.mem_cons, Prod.mk.injEq, reduceCtorEq, and_false, Payload.entry.injEq,
    List.not_mem_nil, or_false, false_or] at hMem
  exact hMem

theorem valid_afterRotation : afterRotation.Valid where
  lsns := rfl
  markers := rfl
  items := by
    intro lsn x hMem
    simp only [afterRotation, List.mem_cons, Prod.mk.injEq, reduceCtorEq, and_false,
      Payload.entry.injEq, List.not_mem_nil, or_false, false_or] at hMem
    rw [hMem.2]
    decide
  lastLsn_le := Nat.le_refl _
  backup_le := Nat.le_succ _
  geometry := by simp [validateSnapshotGeometry, afterRotation]
  local_covers := by
    intro lsn x hCovered hLe
    rw [(entry_afterRotation hCovered).2]
    decide
  snapshot_covers := by
    intro lsn x hCovered hLe
    have hLe' : lsn ≤ 1 := hLe
    have := (entry_afterRotation hCovered).1
    omega

/-- A crash after both blobs are installed: the node resumes from the entry without it. -/
theorem not_forall_atomic : ¬ ∀ (g : Geometry) (i : Installation g) (steps : Nat),
    i.Valid → i.Atomic steps := by
  intro h
  have hCovered : StillCovered afterRotation.history 2 [97] := ⟨by simp [afterRotation], by decide⟩
  have hCovers := h .oneBucket afterRotation 5 valid_afterRotation 2 1 (by decide) 2 [97] hCovered
    (Nat.le_refl 2)
  exact absurd hCovers (by decide)

end Installation

end TokenRevoker
