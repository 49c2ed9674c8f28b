import TokenRevoker.Core.BackupManager
import TokenRevoker.Server.GenerationStamps
import Mathlib.Data.Rat.Init

/-! The coordinator around its canonical log: the persisted meta state, canonical-first
revocations, and the observer that makes a rotation of its own filter canonical. What
the filter answers to `add` is an argument here; the filter itself is joined to the
coordinator where a result needs both. -/
namespace TokenRevoker

open Text

/-- `generation` counts the coordinated rotations; `lastBackupLsn` is the LSN of the
last marker, up to which the blobs are said to reflect the log. -/
structure MetaState where
  generation : Nat
  lastLsn : Nat
  lastBackupLsn : Nat
  deriving DecidableEq

/-- `EMPTY_META_STATE`. -/
def emptyMetaState : MetaState := ⟨0, 0, 0⟩

/-- `Meta.read`. A meta file is replaced by a rename, so it is whole if it is there. -/
def Meta.read (file : Option MetaState) : MetaState := file.getD emptyMetaState

def Meta.writeFailed (filePath message : String) : RevokerError :=
  .internalError s!"Failed to write coordinator meta file {filePath}: {message}"

/-- What the listener is passed, and the control events of the server. The first two belong to
records of the log and carry an LSN of their own; the other two stand for nothing in it. -/
inductive OutboundEvent where
  | entry (lsn generation : Nat) (item : JsString)
  | rotate (lsn generation : Nat)
  | keepalive (coordinatorLastLsn generation : Nat)
  | resnapshot (generation : Nat)
  deriving DecidableEq

/-- The result of an admin revocation. `success` is false where the item was replicated and the
filter of the coordinator refused it. -/
structure AddResult where
  success : Bool
  message : String
  lsn : Nat
  deriving DecidableEq

/-- The dimensions of the filter that coordinator and nodes are configured with. -/
structure FilterConfig where
  numItems : Nat
  fpRate : Rat
  rotateTime : Nat
  deriving DecidableEq

/-- What a bootstrapping node is served. The blobs are the bytes of the files, empty where there
is no file; nothing here says that they reflect the log up to `lastBackupLsn`. -/
structure SnapshotData where
  currentBlob : Bytes
  previousBlob : Bytes
  generation : Nat
  lastBackupLsn : Nat
  numItems : Nat
  fpRate : Rat
  k : Nat
  rotateTime : Nat
  deriving DecidableEq

/-- A coordinator whose `init` has returned, its meta file, and what its listener
has been passed. -/
structure Coordinator where
  id : String
  walDir : String
  canonical : CanonicalWal
  metaFile : Option MetaState
  metaState : MetaState
  lastRotateLsn : Nat := 0
  ready : Bool := false
  shuttingDown : Bool := false
  sent : List OutboundEvent := []
  deriving DecidableEq

namespace Coordinator

def metaPath (c : Coordinator) : String :=
  let walDir := c.walDir
  let id := c.id
  s!"{walDir}/coordinator-meta-{id}.json"

def lastLsn (c : Coordinator) : Nat := c.canonical.lastLsn

/-- `init` on the files of a log and a meta file. The counters are the larger of what the meta
file says and what the scan of the files finds. No error is modelled: the file of the log and
the meta file can be read and written. -/
def init (id walDir : String) (files : List (Nat × Bytes)) (metaFile : Option MetaState) : Coordinator :=
  let metaState := Meta.read metaFile
  let canonical : CanonicalWal := { dir := walDir, revokerId := id, files := files }
  let scanned := canonical.scan
  let effectiveLastLsn := max metaState.lastLsn scanned.maxLsn
  let effectiveGeneration := max metaState.generation scanned.maxGeneration
  let derived : MetaState := ⟨effectiveGeneration, effectiveLastLsn, metaState.lastBackupLsn⟩
  { id := id
    walDir := walDir
    canonical := canonical.init (effectiveLastLsn + 1) effectiveGeneration metaState.lastBackupLsn
    metaFile := some derived
    metaState := derived
    ready := true }

/-- A new process on the files of the old one. -/
def restart (c : Coordinator) : Coordinator := init c.id c.walDir c.canonical.files c.metaFile

/-- `#onCoreRotation` up to the marker. A marker that cannot be written has taken its LSN, and
the generation stays. -/
def appendMarker (c : Coordinator) (fault : Option String) : Coordinator × Except RevokerError Nat :=
  match c.canonical.appendRotate fault (c.metaState.generation + 1) with
  | (wal, .error error) => ({ c with canonical := wal }, .error error)
  | (wal, .ok rotateLsn) => ({ c with canonical := wal }, .ok rotateLsn)

/-- `#onCoreRotation` from the marker to `meta.write`. The new state is in memory even where it
cannot be written. -/
def checkpoint (c : Coordinator) (fault : Option String) (rotateLsn : Nat) :
    Coordinator × Except RevokerError Unit :=
  let metaState : MetaState := ⟨c.metaState.generation + 1, c.canonical.lastLsn, rotateLsn⟩
  match fault with
  | some message => ({ c with metaState := metaState }, .error (Meta.writeFailed c.metaPath message))
  | none => ({ c with metaState := metaState, metaFile := some metaState }, .ok ())

/-- The rest of `#onCoreRotation`: retention and broadcast. A file that cannot be unlinked
stays, which is not an error; the listener is passed the event last. -/
def retain (c : Coordinator) (unlinkFails : Nat → Bool) (rotateLsn : Nat) :
    Coordinator × Except RevokerError Unit :=
  let newGeneration := c.metaState.generation
  match c.canonical.truncateOldGenerations (newGeneration - 1) rotateLsn unlinkFails with
  | (wal, .error error) => ({ c with canonical := wal }, .error error)
  | (wal, .ok _) =>
    ({ c with
        canonical := wal
        lastRotateLsn := rotateLsn
        sent := c.sent ++ [.rotate rotateLsn newGeneration] }, .ok ())

/-- `#onCoreRotation`, with the errors that `appendFileSync` and `meta.write` throw
and the generations whose file cannot be unlinked. -/
def onCoreRotation (c : Coordinator) (append metaWrite : Option String) (unlinkFails : Nat → Bool) :
    Coordinator × Except RevokerError Unit :=
  if c.ready = false then (c, .ok ())
  else if c.shuttingDown then (c, .ok ())
  else match c.appendMarker append with
    | (c, .error error) => (c, .error error)
    | (c, .ok rotateLsn) =>
      match c.checkpoint metaWrite rotateLsn with
      | (c, .error error) => (c, .error error)
      | (c, .ok ()) => c.retain unlinkFails rotateLsn

def shuttingDownError : RevokerError :=
  .internalError "Cannot add token: coordinator is shutting down."

/-- `add`, with the errors of its two appends and what the filter answers. What is refused
before the append takes no LSN. The listener is passed the entry whatever the filter answers,
but not where an append fails. -/
def add (c : Coordinator) (append : Option String) (applied : Except RevokerError Unit)
    (tombstone : Option String) (item : JsString) : Coordinator × Except RevokerError AddResult :=
  if c.shuttingDown then (c, .error shuttingDownError)
  else match itemValidationError item with
  | some invalid => (c, .error (.validationError invalid))
  | none =>
    match c.canonical.appendEntry append item with
    | (wal, .error error) => ({ c with canonical := wal }, .error error)
    | (wal, .ok lsn) =>
      let sent := c.sent ++ [.entry lsn wal.generation item]
      match applied with
      | .ok () => ({ c with canonical := wal, sent := sent }, .ok ⟨true, "Item revoked", lsn⟩)
      | .error failure =>
        match wal.appendTombstone tombstone lsn item with
        | (wal, .error error) => ({ c with canonical := wal }, .error error)
        | (wal, .ok ()) =>
          let message := failure.message
          ({ c with canonical := wal, sent := sent }, .ok ⟨false,
            s!"Revocation replicated (lsn {lsn}) but the coordinator's local apply failed: {message}",
            lsn⟩)

/-- The checkpoint that `shutdown` writes before it stops the filter. A second call does
nothing. The flag is set before the write, so it stays where the write fails. -/
def shutdown (c : Coordinator) (metaWrite : Option String) : Coordinator × Except RevokerError Unit :=
  if c.shuttingDown then (c, .ok ())
  else
    let metaState : MetaState := { c.metaState with lastLsn := c.canonical.lastLsn }
    match metaWrite with
    | some message =>
      ({ c with shuttingDown := true, metaState := metaState },
        .error (Meta.writeFailed c.metaPath message))
    | none => ({ c with shuttingDown := true, metaState := metaState, metaFile := some metaState }, .ok ())

def readSince (c : Coordinator) (fromLsn maxEvents : Nat) : Except RevokerError (List CanonicalEvent) :=
  c.canonical.readSince fromLsn maxEvents

def canServeFrom (c : Coordinator) (fromLsn : Nat) : Bool := c.canonical.canServeFrom fromLsn

/-- `getSnapshot`: the meta state in memory, and the blobs as they are on disk. -/
def getSnapshot {g : Geometry} (c : Coordinator) (config : FilterConfig)
    (current : Option (SizedFilter g)) (disk : Disk) : Except RevokerError SnapshotData :=
  match current with
  | none => .error (.internalError "Coordinator filter is not available for snapshot")
  | some _ => .ok {
      currentBlob := disk.currentBlob.getD []
      previousBlob := disk.previousBlob.getD []
      generation := c.metaState.generation
      lastBackupLsn := c.metaState.lastBackupLsn
      numItems := config.numItems
      fpRate := config.fpRate
      k := g.k
      rotateTime := config.rotateTime }

/-- The coordinator takes calls, and its generation is that of its log. -/
structure Live (c : Coordinator) (segments : List Segment) : Prop where
  holds : c.canonical.Holds segments
  generation : c.metaState.generation = c.canonical.generation
  pos : 0 < c.canonical.nextLsn
  ready : c.ready = true
  running : c.shuttingDown = false

theorem live_init (id walDir : String) {files : List (Nat × Bytes)} {segments : List Segment}
    (h : Stored files segments) (metaFile : Option MetaState) :
    (init id walDir files metaFile).Live segments where
  holds := CanonicalWal.holds_init { dir := walDir, revokerId := id, files := files } h
    (Nat.lt_succ_of_le (Nat.le_max_right _ _)) (Nat.le_max_right _ _) _
  generation := rfl
  pos := Nat.succ_pos _
  ready := rfl
  running := rfl

/-- The lines an accepted item adds to the log. What the filter refused has its tombstone right
after it, under the same LSN. -/
def entryLines (lsn : Nat) (item : JsString) : Except RevokerError Unit → List Line
  | .ok () => [.entry lsn item]
  | .error _ => [.entry lsn item, .tombstone lsn item]

theorem batch_entryLines {lsn : Nat} (hLsn : 0 < lsn) {item : JsString} (hItem : Acceptable item)
    (applied : Except RevokerError Unit) : Batch lsn (lsn + 1) (entryLines lsn item applied) := by
  cases applied with
  | ok => exact Batch.entry hLsn hItem
  | error => exact Batch.tombstoned hLsn hItem

/-- Whether an entry is applied or buried, its lines have its LSN and no marker. -/
theorem lsn_marker_entryLines {lsn : Nat} {item : JsString} {applied : Except RevokerError Unit} {line : Line}
    (hLine : line ∈ entryLines lsn item applied) : line.lsn = lsn ∧ line.marker = 0 := by
  cases applied with
  | ok =>
      obtain rfl := List.mem_singleton.mp hLine
      exact ⟨rfl, rfl⟩
  | error =>
      rcases List.mem_cons.mp hLine with rfl | hLine
      · exact ⟨rfl, rfl⟩
      · obtain rfl := List.mem_singleton.mp hLine
        exact ⟨rfl, rfl⟩

theorem rotate_notMem_entryLines {lsn lsn' marker : Nat} {item : JsString}
    {applied : Except RevokerError Unit} : Line.rotate lsn' marker ∉ entryLines lsn item applied := by
  cases applied <;> simp [entryLines]

/-- An accepted item is read back with the generation of the file it was appended to. -/
theorem generation_stamp_entryLines {generation lsn : Nat} {item : JsString}
    {applied : Except RevokerError Unit} {event : CanonicalEvent}
    (hEvent : event ∈ stamp generation ((entryLines lsn item applied).map Line.wellFormed)) :
    event.generation = generation := by
  cases applied with
  | ok =>
      obtain rfl := List.mem_singleton.mp hEvent
      rfl
  | error =>
      rcases List.mem_cons.mp hEvent with rfl | hEvent
      · rfl
      · obtain rfl := List.mem_singleton.mp hEvent
        rfl

theorem records_entryLines (lsn : Nat) (item : JsString) (applied : Except RevokerError Unit) :
    records ((entryLines lsn item applied).map Line.wellFormed) = [(lsn, .entry (toWellFormed item))] := by
  cases applied <;> rfl

section Outcomes

variable {c : Coordinator} {segments : List Segment} {item : JsString}
  {applied : Except RevokerError Unit} {append tombstone metaWrite : Option String}

theorem add_refused (hItem : ¬ Acceptable item) : (c.add append applied tombstone item).1 = c := by
  rw [add]
  split
  · rfl
  · cases hError : itemValidationError item with
    | none => exact absurd (itemValidationError_eq_none_iff.mp hError) hItem
    | some invalid => rfl

/-- An append that fails still takes its LSN. -/
theorem add_lost (h : c.Live segments) (hItem : Acceptable item) (message : String) :
    (c.add (some message) applied tombstone item).1 =
      { c with canonical := { c.canonical with nextLsn := c.canonical.nextLsn + 1 } } := by
  simp [add, h.running, itemValidationError_eq_none_iff.mpr hItem, CanonicalWal.appendEntry,
    CanonicalWal.appendLine, h.holds.initialized]

theorem add_unsent (h : c.Live segments) (hItem : Acceptable item) (error : RevokerError)
    (message : String) : (c.add none (.error error) (some message) item).1 = { c with
      canonical := c.canonical.written [Line.entry c.canonical.nextLsn item]
        (c.canonical.nextLsn + 1) c.canonical.generation } := by
  have hInitialized : (c.canonical.written [.entry c.canonical.nextLsn item] (c.canonical.nextLsn + 1)
      c.canonical.generation).initialized = true := h.holds.initialized
  simp [add, h.running, itemValidationError_eq_none_iff.mpr hItem,
    CanonicalWal.appendEntry_ok h.holds.initialized, CanonicalWal.appendTombstone,
    CanonicalWal.appendLine, hInitialized]

theorem add_sent (h : c.Live segments) (hItem : Acceptable item)
    (hWritten : applied = .ok () ∨ tombstone = none) :
    (c.add none applied tombstone item).1 = { c with
      canonical := c.canonical.written (entryLines c.canonical.nextLsn item applied)
        (c.canonical.nextLsn + 1) c.canonical.generation
      sent := c.sent ++ [.entry c.canonical.nextLsn c.canonical.generation item] } := by
  rw [add, if_neg (by rw [h.running]; exact Bool.false_ne_true)]
  simp only [itemValidationError_eq_none_iff.mpr hItem, CanonicalWal.appendEntry_ok h.holds.initialized]
  cases applied with
  | ok => rfl
  | error error =>
      rcases hWritten with hOk | rfl
      · cases hOk
      · have hInitialized : (c.canonical.written [.entry c.canonical.nextLsn item]
            (c.canonical.nextLsn + 1) c.canonical.generation).initialized = true := h.holds.initialized
        have hJoin := CanonicalWal.written_written c.canonical [.entry c.canonical.nextLsn item]
          [.tombstone c.canonical.nextLsn item] (c.canonical.nextLsn + 1) (c.canonical.nextLsn + 1)
          c.canonical.generation
        simp only [CanonicalWal.appendTombstone_ok hInitialized]
        exact congrArg (fun wal => ({ c with
          canonical := wal
          sent := c.sent ++ [OutboundEvent.entry c.canonical.nextLsn c.canonical.generation item] } :
            Coordinator)) hJoin

/-- A revocation that reports success was accepted and is in the filter. -/
theorem add_success (h : c.Live segments) {result : AddResult}
    (hOk : (c.add none applied none item).2 = .ok result) (hSuccess : result.success = true) :
    Acceptable item ∧ applied = .ok () ∧ result.lsn = c.canonical.nextLsn := by
  rw [add, if_neg (by rw [h.running]; exact Bool.false_ne_true)] at hOk
  cases hError : itemValidationError item with
  | some invalid =>
      rw [hError] at hOk
      cases hOk
  | none =>
      simp only [hError, CanonicalWal.appendEntry_ok h.holds.initialized] at hOk
      cases applied with
      | ok =>
          cases hOk
          exact ⟨itemValidationError_eq_none_iff.mp hError, rfl, rfl⟩
      | error failure =>
          simp only at hOk
          split at hOk <;> cases hOk
          cases hSuccess

/-- A revocation that is answered without success was accepted, and the filter refused it. -/
theorem add_failure (h : c.Live segments) {result : AddResult}
    (hOk : (c.add none applied none item).2 = .ok result) (hFailed : result.success = false) :
    Acceptable item ∧ ∃ failure, applied = .error failure := by
  rw [add, if_neg (by rw [h.running]; exact Bool.false_ne_true)] at hOk
  cases hError : itemValidationError item with
  | some invalid =>
      rw [hError] at hOk
      cases hOk
  | none =>
      simp only [hError, CanonicalWal.appendEntry_ok h.holds.initialized] at hOk
      cases applied with
      | ok =>
          cases hOk
          cases hFailed
      | error failure => exact ⟨itemValidationError_eq_none_iff.mp hError, failure, rfl⟩

theorem rotation_lost (h : c.Live segments) (message : String) (unlinkFails : Nat → Bool) :
    (c.onCoreRotation (some message) metaWrite unlinkFails).1 =
      { c with canonical := { c.canonical with nextLsn := c.canonical.nextLsn + 1 } } := by
  simp [onCoreRotation, h.ready, h.running, appendMarker, CanonicalWal.appendRotate,
    CanonicalWal.appendLine, h.holds.initialized]

/-- The log with a marker for the next generation. -/
def markedLog (c : Coordinator) : CanonicalWal :=
  c.canonical.written [.rotate c.canonical.nextLsn (c.metaState.generation + 1)]
    (c.canonical.nextLsn + 1) (c.metaState.generation + 1)

/-- The meta state that goes with that marker. -/
def markedState (c : Coordinator) : MetaState :=
  ⟨c.metaState.generation + 1, c.canonical.nextLsn, c.canonical.nextLsn⟩

theorem appendMarker_ok (h : c.Live segments) :
    c.appendMarker none = ({ c with canonical := c.markedLog }, .ok c.canonical.nextLsn) := by
  simp only [appendMarker, CanonicalWal.appendRotate_ok h.holds.initialized]
  rfl

theorem rotation_unsent (h : c.Live segments) (message : String) (unlinkFails : Nat → Bool) :
    (c.onCoreRotation none (some message) unlinkFails).1 =
      { c with canonical := c.markedLog, metaState := c.markedState } := by
  simp only [onCoreRotation, h.ready, h.running, appendMarker_ok h, checkpoint]
  rfl

theorem rotation_sent (h : c.Live segments) (unlinkFails : Nat → Bool) :
    (c.onCoreRotation none none unlinkFails).1 = { c with
      canonical := (c.markedLog.doomed c.metaState.generation c.canonical.nextLsn unlinkFails).foldl
        CanonicalWal.unlink c.markedLog
      metaState := c.markedState
      metaFile := some c.markedState
      lastRotateLsn := c.canonical.nextLsn
      sent := c.sent ++ [.rotate c.canonical.nextLsn (c.metaState.generation + 1)] } := by
  have hInitialized : c.markedLog.initialized = true := h.holds.initialized
  simp only [onCoreRotation, h.ready, h.running, appendMarker_ok h, checkpoint, retain,
    CanonicalWal.truncateOldGenerations, hInitialized]
  rfl

/-- The files with that marker, before retention. -/
def marked (c : Coordinator) (segments : List Segment) : List Segment :=
  Segment.push c.canonical.generation [.rotate c.canonical.nextLsn (c.metaState.generation + 1)] segments

theorem Live.holds_markedLog (h : c.Live segments) : c.markedLog.Holds (c.marked segments) :=
  h.holds.written (Batch.rotate h.pos _) (Nat.le_succ _) (by simp [Line.marker])
    (by rw [h.generation]; exact Nat.le_succ _)

theorem Live.log_marked (h : c.Live segments) :
    Segment.log (c.marked segments) = Segment.log segments ++
      [(c.canonical.nextLsn, .rotate (c.metaState.generation + 1))] :=
  h.holds.log_written _

/-- What retention leaves of it. -/
def retained (c : Coordinator) (segments : List Segment) (unlinkFails : Nat → Bool) : List Segment :=
  (c.marked segments).filter fun segment =>
    (c.markedLog.doomed c.metaState.generation c.canonical.nextLsn unlinkFails).all fun file =>
      segment.generation ≠ file.1

/-- A rotation that was made canonical leaves a live coordinator. -/
theorem Live.rotation_sent (h : c.Live segments) (unlinkFails : Nat → Bool) :
    (c.onCoreRotation none none unlinkFails).1.Live (c.retained segments unlinkFails) := by
  rw [Coordinator.rotation_sent h]
  refine ⟨h.holds_markedLog.unlink _, ?_, ?_, h.ready, h.running⟩
  · rw [CanonicalWal.foldl_unlink]
    rfl
  · rw [CanonicalWal.foldl_unlink]
    exact Nat.succ_pos _

theorem maxLsn_file_le {wal : CanonicalWal} (h : wal.Holds segments) {bound : Nat}
    (hBound : wal.nextLsn = bound + 1) : ∀ segment ∈ segments, maxLsn (fileEvents segment.file) ≤ bound := by
  intro segment hSegment
  rw [maxLsn_le_iff]
  intro event hEvent
  have hFile : event ∈ wal.files.flatMap fileEvents := by
    rw [h.files]
    exact List.mem_flatMap.mpr ⟨segment.file, List.mem_map_of_mem hSegment, hEvent⟩
  have hBelow := h.log_below (h.mem_log.mpr ⟨event, hFile, rfl⟩)
  rw [CanonicalEvent.record_fst] at hBelow
  omega

/-- Retention that can unlink every file keeps the end of the log. -/
theorem Live.log_retained_suffix (h : c.Live segments) :
    Segment.log (c.retained segments fun _ => false) <:+ Segment.log (c.marked segments) := by
  have hHolds := h.holds_markedLog
  rw [retained, hHolds.filter_doomed c.metaState.generation (maxLsn_file_le hHolds rfl)]
  exact Segment.log_filter_suffix _ hHolds.sorted

end Outcomes

end Coordinator

end TokenRevoker
