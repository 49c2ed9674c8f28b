import TokenRevoker.Core.Manager
import TokenRevoker.Library.Fields

/-! What `BloomFilterBackupManager` reads from and appends to its files: the blob
of each filter, the write-ahead log of added items, and the restore that a
constructor runs over them. -/
namespace TokenRevoker

open Text SignatureFilter

/-- The four bytes of a bucket in memory order. -/
def wordBytes (w : BitVec 32) : Bytes :=
  [UInt8.ofNat w.toNat, UInt8.ofNat (w.toNat / 2 ^ 8), UInt8.ofNat (w.toNat / 2 ^ 16),
    UInt8.ofNat (w.toNat / 2 ^ 24)]

/-- `Buffer.from(filter.buckets.buffer)`. -/
def blobOfBuckets (buckets : List (BitVec 32)) : Bytes := buckets.flatMap wordBytes

/-- `new Int32Array(buffer)`. -/
def bucketsOfBlob : Bytes → List (BitVec 32)
  | a :: b :: c :: d :: rest =>
      BitVec.ofNat 32 (a.toNat + b.toNat * 2 ^ 8 + c.toNat * 2 ^ 16 + d.toNat * 2 ^ 24) ::
        bucketsOfBlob rest
  | _ => []

theorem bucketsOfBlob_blobOfBuckets (buckets : List (BitVec 32)) :
    bucketsOfBlob (blobOfBuckets buckets) = buckets := by
  induction buckets with
  | nil => rfl
  | cons w buckets ih =>
      have hWord : BitVec.ofNat 32 ((UInt8.ofNat w.toNat).toNat +
          (UInt8.ofNat (w.toNat / 2 ^ 8)).toNat * 2 ^ 8 +
          (UInt8.ofNat (w.toNat / 2 ^ 16)).toNat * 2 ^ 16 +
          (UInt8.ofNat (w.toNat / 2 ^ 24)).toNat * 2 ^ 24) = w := by
        have hLt := w.isLt
        apply BitVec.eq_of_toNat_eq
        simp only [BitVec.toNat_ofNat, UInt8.toNat_ofNat']
        omega
      simp only [blobOfBuckets, List.flatMap_cons, wordBytes, List.cons_append, List.nil_append,
        bucketsOfBlob, hWord] at ih ⊢
      rw [ih]

theorem length_blobOfBuckets (buckets : List (BitVec 32)) :
    (blobOfBuckets buckets).length = 4 * buckets.length := by
  induction buckets with
  | nil => rfl
  | cons w buckets ih =>
      simp only [blobOfBuckets, List.flatMap_cons, List.length_append, List.length_cons, wordBytes,
        List.length_nil] at ih ⊢
      omega

theorem length_bucketsOfBlob (blob : Bytes) : (bucketsOfBlob blob).length = blob.length / 4 := by
  induction blob using bucketsOfBlob.induct with
  | case1 a b c d rest ih =>
      simp only [bucketsOfBlob, List.length_cons, ih]
      omega
  | case2 blob hShort =>
      have hLt : blob.length < 4 := by
        match blob, hShort with
        | [], _ => decide
        | [_], _ => simp
        | [_, _], _ => simp
        | [_, _, _], _ => simp
        | a :: b :: c :: d :: rest, hShort => exact (hShort a b c d rest rfl).elim
      rw [bucketsOfBlob]
      · simp only [List.length_nil]
        omega
      · exact hShort

/-- The files of one instance. A temp file that is missing and one that is empty are the same to
every reader. The bytes are those that a new process would read; what a power loss takes back is
left out. -/
structure Disk where
  currentBlob : Option Bytes := none
  previousBlob : Option Bytes := none
  temp : Bytes := []
  deriving DecidableEq

/-- `backupExists`: some file has bytes in it. -/
def backupExists (disk : Disk) : Bool :=
  [disk.currentBlob.getD [], disk.previousBlob.getD [], disk.temp].any fun file => !file.isEmpty

variable {g : Geometry}

/-- `#hasExpectedGeometry`. -/
def hasExpectedGeometry (g : Geometry) (buffer : Bytes) : Bool :=
  buffer.length % 4 == 0 && buffer.length / 4 == g.bucketCount

theorem length_of_hasExpectedGeometry {buffer : Bytes} (h : hasExpectedGeometry g buffer = true) :
    (bucketsOfBlob buffer).length = g.bucketCount := by
  simp only [hasExpectedGeometry, Bool.and_eq_true, beq_iff_eq] at h
  rw [length_bucketsOfBlob, h.2]

/-- `#restoreFilterFromFile`: a blob of another size is ignored. A file that cannot be read is
not modelled. -/
def restoreFilterFromFile (g : Geometry) (file : Option Bytes) : Option (SizedFilter g) :=
  match file with
  | none => none
  | some buffer =>
    if h : hasExpectedGeometry g buffer = true then
      some (SizedFilter.ofBuckets g (bucketsOfBlob buffer) (length_of_hasExpectedGeometry h))
    else none

/-- A filter's own blob restores to the filter. -/
theorem restoreFilterFromFile_blob (filter : SizedFilter g) :
    restoreFilterFromFile g (some (blobOfBuckets filter.buckets)) = some filter := by
  have hGeometry : hasExpectedGeometry g (blobOfBuckets filter.buckets) = true := by
    simp only [hasExpectedGeometry, length_blobOfBuckets, filter.fits.2, Bool.and_eq_true, beq_iff_eq]
    omega
  simp only [restoreFilterFromFile, dif_pos hGeometry, bucketsOfBlob_blobOfBuckets,
    SizedFilter.ofBuckets_buckets]

/-- The items `#restoreTemp` adds: every line of the temp file that is not blank. Items are
restored as they were decoded, also where the last line was cut short. -/
def tempItems (temp : Bytes) : List JsString := (readLines temp).filter fun line => !isBlank line

def restoreTemp (filter : SizedFilter g) (temp : Bytes) : SizedFilter g :=
  (tempItems temp).foldl SizedFilter.add filter

structure RestoredFilters (g : Geometry) where
  current : Option (SizedFilter g) := none
  previous : Option (SizedFilter g) := none

/-- The argument of `restore`; any other name is refused. -/
inductive FilterName where
  | current
  | previous
  | all
  deriving DecidableEq

def restore (g : Geometry) (filterName : FilterName) (disk : Disk) : RestoredFilters g :=
  let current :=
    if filterName = .previous then none else restoreFilterFromFile g disk.currentBlob
  let previous :=
    if filterName = .current then none else restoreFilterFromFile g disk.previousBlob
  if disk.temp.isEmpty then ⟨current, previous⟩
  else ⟨some (restoreTemp (current.getD (SizedFilter.create g)) disk.temp), previous⟩

/-- The manager a constructor makes over existing files. Its count of insertions starts at zero,
whatever the files bring back. -/
def Manager.restored (g : Geometry) (numItems : Nat) (disk : Disk) : Manager g :=
  if backupExists disk then
    let restoredFilters := restore g .all disk
    Manager.init g numItems restoredFilters.current restoredFilters.previous
  else Manager.init g numItems none none

/-- A failed `appendFileSync`: how many bytes of the line reached the file, and
the text of the error. -/
structure AppendFailure where
  persisted : Nat
  message : String
  deriving DecidableEq

/-- The attempts of `backupItem`, of which `retries` may still follow a failure. -/
def appendWithRetries (line : Bytes) : Nat → List AppendFailure → Bytes → Bytes × Except String Unit
  | _, [], temp => (temp ++ line, .ok ())
  | 0, failure :: _, temp => (temp ++ line.take failure.persisted, .error failure.message)
  | retries + 1, failure :: rest, temp =>
      appendWithRetries line retries rest (temp ++ line.take failure.persisted)

/-- The options and the state in memory of a backup manager. The mutex and the timers are in the
models that let calls overlap. -/
structure BackupManager where
  bufferEnabled : Bool := false
  maxBufferSize : Nat := 100
  writeBuffer : List JsString := []
  generation : Nat := 0
  deriving DecidableEq

namespace BackupManager

def bufferFullMessage (backups : BackupManager) : String :=
  s!"Write buffer full ({backups.maxBufferSize} items). " ++
    "Disk may be unavailable — tokens are not being persisted. " ++
    "Token NOT added to buffer."

def backupItem (backups : BackupManager) (disk : Disk) (failures : List AppendFailure)
    (filterItem : JsString) : BackupManager × Disk × Except String Unit :=
  if backups.bufferEnabled then
    if backups.maxBufferSize ≤ backups.writeBuffer.length then
      (backups, disk, .error backups.bufferFullMessage)
    else ({ backups with writeBuffer := backups.writeBuffer ++ [filterItem] }, disk, .ok ())
  else
    let appended := appendWithRetries (encodeUtf8 (filterItem ++ [newline])) 2 failures disk.temp
    (backups, { disk with temp := appended.1 }, appended.2)

end BackupManager

theorem bits_restoreTemp (filter : SizedFilter g) (temp : Bytes) :
    (restoreTemp filter temp).bits =
      (tempItems temp).foldl (SignatureFilter.insert (SizedFilter.signature g)) filter.bits := by
  unfold restoreTemp
  induction tempItems temp generalizing filter with
  | nil => rfl
  | cons x xs ih => rw [List.foldl_cons, ih, SizedFilter.bits_add, List.foldl_cons]

theorem tempItems_nil : tempItems [] = [] := by decide

/-- Items that were appended to the temp file, one line each, are read back with
their lone surrogates replaced. -/
theorem tempItems_encodeLines_append {items : List JsString} (hItems : ∀ x ∈ items, Acceptable x)
    (tail : Bytes) :
    tempItems (encodeLines items ++ tail) = items.map toWellFormed ++ tempItems tail := by
  rw [tempItems, readLines_encodeLines_append fun x hx => (hItems x hx).newline_not_mem,
    List.filter_append]
  congr 1
  rw [List.filter_eq_self]
  intro line hLine
  obtain ⟨x, hx, rfl⟩ := List.mem_map.mp hLine
  have hBlank : isBlank (toWellFormed x) = isBlank x :=
    all_toWellFormed isWhitespace isWhitespace_surrogate x
  rw [hBlank, (hItems x hx).not_blank]
  rfl

theorem tempItems_encodeLines {items : List JsString} (hItems : ∀ x ∈ items, Acceptable x) :
    tempItems (encodeLines items) = items.map toWellFormed := by
  simpa [tempItems_nil] using tempItems_encodeLines_append hItems []

/-- The window that a restart restores from the files. It is what a crash at this point would
leave of the filters. -/
def restoredWindow (g : Geometry) (disk : Disk) : Window (Set Nat) :=
  ⟨(tempItems disk.temp).foldl (SignatureFilter.insert (SizedFilter.signature g))
      (Manager.slotBits (restoreFilterFromFile g disk.currentBlob)),
    Manager.slotBits (restoreFilterFromFile g disk.previousBlob)⟩

theorem restoreFilterFromFile_empty {file : Option Bytes} (h : (file.getD []).isEmpty = true) :
    restoreFilterFromFile g file = none := by
  cases file with
  | none => rfl
  | some buffer =>
      obtain rfl : buffer = [] := by simpa using h
      have hNot : hasExpectedGeometry g [] = false := by
        have := g.bucketCount_pos
        simp only [hasExpectedGeometry, List.length_nil, Nat.zero_div, Bool.and_eq_false_iff,
          beq_eq_false_iff_ne]
        omega
      simp [restoreFilterFromFile, hNot]

theorem slotBits_getD_create (slot : Option (SizedFilter g)) :
    (slot.getD (SizedFilter.create g)).bits = Manager.slotBits slot := by
  cases slot with
  | none => exact SizedFilter.bits_create g
  | some filter => rfl

theorem init_window (numItems : Nat) (restoredCurrent restoredPrevious : Option (SizedFilter g)) :
    (Manager.init g numItems restoredCurrent restoredPrevious).window =
      ⟨Manager.slotBits restoredCurrent, Manager.slotBits restoredPrevious⟩ := by
  cases restoredCurrent with
  | none => simp [Manager.window, Manager.init, Manager.slotBits, SizedFilter.bits_create]
  | some filter => rfl

/-- A restart restores exactly the window of the files. -/
theorem Manager.restored_window (numItems : Nat) (disk : Disk) :
    (Manager.restored g numItems disk).window = restoredWindow g disk := by
  unfold Manager.restored
  split_ifs with hExists
  · rw [init_window]
    by_cases hTemp : disk.temp.isEmpty = true
    · have hNil : disk.temp = [] := by simpa using hTemp
      simp [restore, restoredWindow, hNil, tempItems_nil]
    · simp [restore, restoredWindow, hTemp, slotBits, bits_restoreTemp, slotBits_getD_create]
  · simp only [backupExists, List.any_cons, List.any_nil, Bool.or_false, Bool.not_eq_true,
      Bool.or_eq_false_iff, Bool.not_eq_false'] at hExists
    obtain ⟨hCurrent, hPrevious, hTemp⟩ := hExists
    have hNil : disk.temp = [] := by simpa using hTemp
    simp only [init_window, restoredWindow, restoreFilterFromFile_empty hCurrent,
      restoreFilterFromFile_empty hPrevious, hNil, tempItems_nil, List.foldl_nil]

theorem Manager.restored_current (numItems : Nat) (disk : Disk) :
    (Manager.restored g numItems disk).current.isSome := by
  unfold Manager.restored
  split_ifs
  · simp only [Manager.init]
    cases (restore g .all disk).current <;> rfl
  · rfl

end TokenRevoker
