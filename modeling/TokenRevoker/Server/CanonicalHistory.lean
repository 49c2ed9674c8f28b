import TokenRevoker.Server.Coordinator

/-! The log as it would be if retention deleted nothing. Every LSN stands in it once,
its markers count the generations, and above what was deleted the files agree with it. -/
namespace TokenRevoker

open Text

/-- The generations that the `Rotate` events of a read start. -/
def eventMarkers (events : List CanonicalEvent) : List Nat :=
  events.filterMap fun
    | .rotate _ generation => some generation
    | _ => none

theorem eventMarkers_eq (events : List CanonicalEvent) :
    eventMarkers events = markersOf (events.map CanonicalEvent.record) := by
  rw [eventMarkers, markersOf, List.filterMap_map]
  congr 1
  funext event
  cases event <;> rfl

namespace Coordinator

/-- What an item adds to the history. A tombstone adds nothing, and a refused item has no LSN.
-/
def entryRecords (c : Coordinator) (item : JsString) : List LogRecord :=
  if Acceptable item then [(c.canonical.nextLsn, .entry (toWellFormed item))] else []

/-- No write fails, but the process may die between any two: the coordinator keeps this history.
The blobs play no part in it. -/
structure Endures (c : Coordinator) (segments : List Segment) (history : List LogRecord) : Prop where
  live : c.Live segments
  lsns : history.map Prod.fst = List.range' 1 history.length
  next : c.canonical.nextLsn = history.length + 1
  retained : ∀ floor, c.canonical.deletedMaxLsn ≤ floor →
    (Segment.log segments).filter (fun r => floor < r.1) = history.filter fun r => floor < r.1
  deleted : c.canonical.deletedMaxLsn ≤ c.metaState.lastBackupLsn
  markers : markersOf history = List.range' 1 c.metaState.generation
  stamped : Stamped segments c.canonical.generation history
  items : ∀ lsn x, (lsn, .entry x) ∈ history → Acceptable x ∧ IsWellFormed x
  backup_le : c.metaState.lastBackupLsn ≤ history.length
  saved : ∃ lastLsn, c.metaFile = some ⟨c.metaState.generation, lastLsn, c.metaState.lastBackupLsn⟩ ∧
    c.metaState.lastBackupLsn ≤ lastLsn ∧ lastLsn ≤ history.length

/-- While every write succeeds: the coordinator keeps this history. No marker is without its
checkpoint then. -/
structure Keeps (c : Coordinator) (segments : List Segment) (history : List LogRecord) : Prop
    extends Endures c segments history where
  lastMarker : ∀ r ∈ history, ∀ generation, r.2 = .rotate generation → r.1 ≤ c.metaState.lastBackupLsn

/-- An LSN up to the last one belongs to one record. -/
theorem exists_record {history : List LogRecord} (hLsns : history.map Prod.fst = List.range' 1 history.length)
    {lsn : Nat} (hPos : 0 < lsn) (hLe : lsn ≤ history.length) : ∃ r ∈ history, r.1 = lsn := by
  have hMem : lsn ∈ history.map Prod.fst := by
    rw [hLsns, List.mem_range'_1]
    omega
  exact List.mem_map.mp hMem

/-- A new process on the files of a log: it finds the next LSN if the meta file covers what
was deleted, and the generation if the meta file and the files together know it. -/
theorem endures_init (id walDir : String) {wal : CanonicalWal} {segments : List Segment}
    {history : List LogRecord} (hHolds : wal.Holds segments)
    (hLsns : history.map Prod.fst = List.range' 1 history.length)
    (hNext : wal.nextLsn = history.length + 1)
    (hRetained : ∀ floor, wal.deletedMaxLsn ≤ floor →
      (Segment.log segments).filter (fun r => floor < r.1) = history.filter fun r => floor < r.1)
    (hMarkers : markersOf history = List.range' 1 wal.generation)
    (hStamped : Stamped segments wal.generation history)
    (hItems : ∀ lsn x, (lsn, .entry x) ∈ history → Acceptable x ∧ IsWellFormed x) {saved : MetaState}
    (hGeneration : max saved.generation wal.scan.maxGeneration = wal.generation)
    (hDeleted : wal.deletedMaxLsn ≤ saved.lastBackupLsn) (hLow : saved.lastBackupLsn ≤ saved.lastLsn)
    (hHigh : saved.lastLsn ≤ history.length) :
    Endures (Coordinator.init id walDir wal.files (some saved)) segments history := by
  have hScan : wal.scan.maxLsn ≤ history.length := by
    refine hHolds.maxLsn_le_iff.mpr fun r hr => ?_
    have := hHolds.log_below hr
    omega
  -- The newest LSN is in the files, or at most the last marker.
  have hFound : history.length ≤ max saved.lastLsn wal.scan.maxLsn := by
    by_cases hGone : history.length ≤ wal.deletedMaxLsn
    · omega
    · obtain ⟨r, hr, hLsn⟩ : ∃ r ∈ history, r.1 = history.length :=
        exists_record hLsns (by omega) (Nat.le_refl _)
      have hLog : r ∈ (Segment.log segments).filter fun r => wal.deletedMaxLsn < r.1 := by
        rw [hRetained _ (Nat.le_refl _), List.mem_filter]
        exact ⟨hr, by simp only [decide_eq_true_eq]; omega⟩
      have hLe : r.1 ≤ wal.scan.maxLsn :=
        hHolds.maxLsn_le_iff.mp (Nat.le_refl _) r (List.mem_filter.mp hLog).1
      omega
  have hLast : max saved.lastLsn wal.scan.maxLsn = history.length := by omega
  have hInit : Coordinator.init id walDir wal.files (some saved) =
        { id := id
          walDir := walDir
          canonical := CanonicalWal.init { dir := walDir, revokerId := id, files := wal.files }
            (history.length + 1) wal.generation saved.lastBackupLsn
          metaFile := some ⟨wal.generation, history.length, saved.lastBackupLsn⟩
          metaState := ⟨wal.generation, history.length, saved.lastBackupLsn⟩
          ready := true } := by
    have hSame : CanonicalWal.scan { dir := walDir, revokerId := id, files := wal.files } = wal.scan := rfl
    simp only [Coordinator.init, Meta.read, Option.getD_some, hSame, hLast, hGeneration]
  have hLive := live_init id walDir hHolds.toStored (some saved)
  rw [hInit] at hLive ⊢
  exact {
    live := hLive
    lsns := hLsns
    next := rfl
    retained := fun floor hFloor => hRetained floor (hDeleted.trans hFloor)
    deleted := Nat.le_refl _
    markers := hMarkers
    stamped := hStamped
    items := hItems
    backup_le := hLow.trans hHigh
    saved := ⟨history.length, rfl, hLow.trans hHigh, Nat.le_refl _⟩ }

namespace Endures

variable {c : Coordinator} {segments : List Segment} {history : List LogRecord} {item : JsString}

theorem lsns_append (h : c.Endures segments history) (payload : Payload) :
    (history ++ [(c.canonical.nextLsn, payload)]).map Prod.fst =
      List.range' 1 (history ++ [(c.canonical.nextLsn, payload)]).length := by
  rw [List.map_append, h.lsns, List.length_append, List.map_singleton, List.length_singleton,
    List.range'_concat, h.next]
  simp [Nat.add_comm]

theorem retained_append (h : c.Endures segments history) {segments' : List Segment} {r : LogRecord}
    (hLog : Segment.log segments' = Segment.log segments ++ [r]) {floor : Nat}
    (hFloor : c.canonical.deletedMaxLsn ≤ floor) :
    (Segment.log segments').filter (fun r => floor < r.1) =
      (history ++ [r]).filter fun r => floor < r.1 := by
  rw [hLog, List.filter_append, List.filter_append, h.retained floor hFloor]

theorem lastLsn_eq (h : c.Endures segments history) : c.lastLsn = history.length := by
  rw [Coordinator.lastLsn, CanonicalWal.lastLsn, h.next, Nat.add_sub_cancel]

theorem le_length (h : c.Endures segments history) {r : LogRecord} (hr : r ∈ history) :
    r.1 ≤ history.length := by
  have hMem : r.1 ∈ history.map Prod.fst := List.mem_map_of_mem hr
  rw [h.lsns, List.mem_range'_1] at hMem
  omega

/-- The generation at the next LSN, once something stands there. -/
theorem generationAt_next (h : c.Endures segments history) (payload : Payload) :
    generationAt (history ++ [(c.canonical.nextLsn, payload)]) c.canonical.nextLsn =
      (markersOf (history ++ [(c.canonical.nextLsn, payload)])).length := by
  refine generationAt_of_le fun r hr => ?_
  rcases List.mem_append.mp hr with hOld | hNew
  · have := h.le_length hOld
    have := h.next
    omega
  · rw [List.mem_singleton.mp hNew]

theorem markers_rotate (h : c.Endures segments history) :
    markersOf (history ++ [(c.canonical.nextLsn, .rotate (c.metaState.generation + 1))]) =
      List.range' 1 (c.metaState.generation + 1) := by
  rw [markersOf_append, h.markers, List.range'_concat]
  simp [markersOf, Nat.add_comm]

theorem items_rotate (h : c.Endures segments history) (lsn : Nat) (x : JsString)
    (hMem : (lsn, .entry x) ∈ history ++ [(c.canonical.nextLsn, .rotate (c.metaState.generation + 1))]) :
    Acceptable x ∧ IsWellFormed x := by
  rcases List.mem_append.mp hMem with hOld | hNew
  · exact h.items lsn x hOld
  · cases List.mem_singleton.mp hNew

theorem stamped_marked (h : c.Endures segments history) :
    Stamped (c.marked segments) (c.metaState.generation + 1)
      (history ++ [(c.canonical.nextLsn, .rotate (c.metaState.generation + 1))]) := by
  rw [h.live.generation]
  refine h.stamped.marker h.live.holds.newest h.live.holds.below (by simp [Line.lsn]) ?_
  intro event hEvent
  rw [h.generationAt_next, ← h.live.generation, h.markers_rotate, List.length_range']
  obtain rfl := List.mem_singleton.mp hEvent
  rfl

/-- An accepted item takes the next LSN. -/
theorem entry (h : c.Endures segments history) (hItem : Acceptable item)
    (applied : Except RevokerError Unit) (sent : List OutboundEvent) :
    Endures { c with
        canonical := c.canonical.written (entryLines c.canonical.nextLsn item applied)
          (c.canonical.nextLsn + 1) c.canonical.generation
        sent := sent }
      (Segment.push c.canonical.generation (entryLines c.canonical.nextLsn item applied) segments)
      (history ++ [(c.canonical.nextLsn, .entry (toWellFormed item))]) where
  live := {
    holds := h.live.holds.written (batch_entryLines h.live.pos hItem applied) (Nat.le_succ _)
      (fun line hLine => by rw [(lsn_marker_entryLines hLine).2]; exact Nat.zero_le _) (Nat.le_refl _)
    generation := h.live.generation
    pos := Nat.succ_pos _
    ready := h.live.ready
    running := h.live.running }
  lsns := h.lsns_append _
  next := by
    rw [List.length_append, List.length_singleton, ← h.next]
    rfl
  retained := fun _ hFloor => h.retained_append
    ((h.live.holds.log_written _).trans (congrArg _ (records_entryLines _ item applied))) hFloor
  deleted := h.deleted
  markers := by
    rw [markersOf_append, h.markers]
    exact List.append_nil _
  stamped := by
    refine h.stamped.entry h.live.holds.below (fun line hLine => (lsn_marker_entryLines hLine).1)
      (fun lsn marker => rotate_notMem_entryLines) fun event hEvent => ?_
    rw [h.generationAt_next, markersOf_append, h.markers]
    have hGeneration := h.live.generation
    have hEvent := generation_stamp_entryLines hEvent
    simp only [markersOf, List.filterMap_cons_none, List.filterMap_nil, List.append_nil,
      List.length_range']
    omega
  items := by
    intro lsn x hMem
    rcases List.mem_append.mp hMem with hOld | hNew
    · exact h.items lsn x hOld
    · cases List.mem_singleton.mp hNew
      exact ⟨hItem.toWellFormed, isWellFormed_toWellFormed item⟩
  backup_le := by
    rw [List.length_append]
    exact Nat.le_add_right_of_le h.backup_le
  saved := by
    obtain ⟨lastLsn, hFile, hLow, hHigh⟩ := h.saved
    refine ⟨lastLsn, hFile, hLow, ?_⟩
    rw [List.length_append]
    exact Nat.le_add_right_of_le hHigh

/-- A marker and the checkpoint after it. -/
theorem marked (h : c.Endures segments history) :
    Endures { c with
        canonical := c.markedLog
        metaState := c.markedState
        metaFile := some c.markedState }
      (c.marked segments)
      (history ++ [(c.canonical.nextLsn, .rotate (c.metaState.generation + 1))]) where
  live := {
    holds := h.live.holds_markedLog
    generation := rfl
    pos := Nat.succ_pos _
    ready := h.live.ready
    running := h.live.running }
  lsns := h.lsns_append _
  next := by
    rw [List.length_append, List.length_singleton, ← h.next]
    rfl
  retained := fun _ hFloor => h.retained_append h.live.log_marked hFloor
  deleted := by
    show c.canonical.deletedMaxLsn ≤ c.canonical.nextLsn
    have := h.deleted
    have := h.backup_le
    have := h.next
    omega
  markers := h.markers_rotate
  stamped := h.stamped_marked
  items := h.items_rotate
  backup_le := by
    show c.canonical.nextLsn ≤ _
    rw [h.next, List.length_append, List.length_singleton]
  saved := by
    refine ⟨c.canonical.nextLsn, rfl, Nat.le_refl _, ?_⟩
    rw [h.next, List.length_append, List.length_singleton]

/-- Retention up to the last marker. -/
theorem unlink (h : c.Endures segments history) {doomed : List (Nat × Bytes)}
    (hDoomed : ∀ file ∈ doomed, file ∈ c.canonical.files ∧
      maxLsn (fileEvents file) ≤ c.metaState.lastBackupLsn) :
    Endures { c with canonical := doomed.foldl CanonicalWal.unlink c.canonical }
      (segments.filter fun segment => doomed.all fun file => segment.generation ≠ file.1) history := by
  have hUnlink := h.live.holds.unlink doomed
  rw [CanonicalWal.foldl_unlink] at hUnlink ⊢
  refine ⟨⟨hUnlink, h.live.generation, h.live.pos, h.live.ready, h.live.running⟩, h.lsns, h.next, ?_,
    CanonicalWal.foldl_max_le_iff.mpr ⟨h.deleted, fun file hFile => (hDoomed file hFile).2⟩, h.markers,
    h.stamped.filter _, h.items, h.backup_le, h.saved⟩
  intro floor hFloor
  obtain ⟨hOld, hFiles⟩ := CanonicalWal.foldl_max_le_iff.mp hFloor
  rw [← h.retained floor hOld]
  refine h.live.holds.log_filter_above fun segment hSegment hDropped => ?_
  rw [List.all_eq_false] at hDropped
  obtain ⟨file, hFile, hSame⟩ := hDropped
  simp only [ne_eq, decide_not, Bool.not_eq_true', decide_eq_false_iff_not, not_not] at hSame
  have hMem := (hDoomed file hFile).1
  rw [h.live.holds.files] at hMem
  obtain ⟨other, hOther, rfl⟩ := List.mem_map.mp hMem
  have hEq : segment = other := KeyedLog.eq_of_key_eq h.live.holds.sorted hSegment hOther hSame
  rw [hEq]
  exact hFiles other.file hFile

/-- Some of the files that retention selects are gone, and the rest is as after the checkpoint. -/
theorem retention (h : c.Endures segments history) (unlinkFails : Nat → Bool)
    {doomed : List (Nat × Bytes)}
    (hDoomed : doomed ⊆ c.markedLog.doomed c.metaState.generation c.canonical.nextLsn unlinkFails) :
    ∃ segments', Endures { c with
        canonical := doomed.foldl CanonicalWal.unlink c.markedLog
        metaState := c.markedState
        metaFile := some c.markedState } segments'
      (history ++ [(c.canonical.nextLsn, .rotate (c.metaState.generation + 1))]) := by
  refine ⟨_, h.marked.unlink fun file hFile => ?_⟩
  have hMem := List.mem_filter.mp (hDoomed hFile)
  refine ⟨hMem.1, ?_⟩
  simp only [CanonicalWal.deletable, Bool.and_eq_true, decide_eq_true_eq] at hMem
  exact hMem.2.1.2

theorem add (h : c.Endures segments history) (applied : Except RevokerError Unit) (item : JsString) :
    ∃ segments', Endures (c.add none applied none item).1 segments' (history ++ c.entryRecords item) := by
  rw [entryRecords]
  split_ifs with hItem
  · rw [add_sent h.live hItem (Or.inr rfl)]
    exact ⟨_, h.entry hItem applied _⟩
  · rw [add_refused hItem, List.append_nil]
    exact ⟨segments, h⟩

theorem rotation (h : c.Endures segments history) (unlinkFails : Nat → Bool) :
    ∃ segments', Endures (c.onCoreRotation none none unlinkFails).1 segments'
      (history ++ [(c.canonical.nextLsn, .rotate (c.metaState.generation + 1))]) := by
  obtain ⟨segments', hEndures⟩ := h.retention unlinkFails (List.Subset.refl _)
  rw [rotation_sent h.live]
  exact ⟨segments', { hEndures with live := { hEndures.live with } }⟩

/-- A new process finds the same generation and the same next LSN. -/
theorem init (h : c.Endures segments history) (id walDir : String) {lastLsn : Nat}
    (hLow : c.metaState.lastBackupLsn ≤ lastLsn) (hHigh : lastLsn ≤ history.length) :
    Endures (Coordinator.init id walDir c.canonical.files
        (some ⟨c.metaState.generation, lastLsn, c.metaState.lastBackupLsn⟩)) segments history := by
  have hGeneration := h.live.generation
  have hMarkers := h.markers
  rw [hGeneration] at hMarkers
  refine endures_init id walDir h.live.holds h.lsns h.next h.retained hMarkers h.stamped h.items ?_
    h.deleted hLow hHigh
  have := h.live.holds.scan_maxGeneration_le
  show max c.metaState.generation _ = _
  omega

/-- A crash at any moment and the restart after it. -/
theorem restart (h : c.Endures segments history) : c.restart.Endures segments history := by
  obtain ⟨lastLsn, hFile, hLow, hHigh⟩ := h.saved
  rw [Coordinator.restart, hFile]
  exact h.init c.id c.walDir hLow hHigh

/-- A graceful shutdown and a restart. -/
theorem shutdown_restart (h : c.Endures segments history) :
    (c.shutdown none).1.restart.Endures segments history := by
  have hLast : c.canonical.lastLsn = history.length := by
    rw [CanonicalWal.lastLsn, h.next]
    rfl
  rw [Coordinator.shutdown, if_neg (by rw [h.live.running]; exact Bool.false_ne_true)]
  have hInit := h.init c.id c.walDir h.backup_le (Nat.le_refl _)
  rw [← hLast] at hInit
  exact hInit

/-- A crash between a marker and its checkpoint: the scan of the files finds the marker. -/
theorem restart_appendMarker (h : c.Endures segments history) :
    (c.appendMarker none).1.restart.Endures (c.marked segments)
      (history ++ [(c.canonical.nextLsn, .rotate (c.metaState.generation + 1))]) := by
  have hHolds := h.live.holds_markedLog
  have hMarker : c.metaState.generation + 1 ≤ c.markedLog.scan.maxGeneration := by
    have hLog : (c.canonical.nextLsn, Payload.rotate (c.metaState.generation + 1)) ∈
        Segment.log (c.marked segments) := by
      rw [h.live.log_marked]
      simp
    obtain ⟨event, hEvent, hRecord⟩ := hHolds.mem_log.mp hLog
    have hLe := (CanonicalWal.scan_maxGeneration_le_iff.mp (Nat.le_refl _)).2 event hEvent
    cases event with
    | entry | tombstone => cases hRecord
    | rotate =>
        cases hRecord
        exact hLe
  obtain ⟨lastLsn, hFile, hLow, hHigh⟩ := h.saved
  rw [Coordinator.restart, appendMarker_ok h.live]
  show Endures (Coordinator.init c.id c.walDir c.markedLog.files c.metaFile) _ _
  rw [hFile]
  refine endures_init c.id c.walDir hHolds (h.lsns_append _) ?_
    (fun _ hFloor => h.retained_append h.live.log_marked hFloor) h.markers_rotate h.stamped_marked
    h.items_rotate ?_ h.deleted hLow ?_
  · rw [List.length_append, List.length_singleton, ← h.next]
    rfl
  · have hLe := hHolds.scan_maxGeneration_le
    show max c.metaState.generation _ = c.metaState.generation + 1
    have hGeneration : c.markedLog.generation = c.metaState.generation + 1 := rfl
    omega
  · rw [List.length_append]
    exact Nat.le_add_right_of_le hHigh

/-- The records above an LSN are those that come after it. -/
theorem filter_eq_drop (h : c.Endures segments history) (fromLsn : Nat) :
    history.filter (fun r => fromLsn < r.1) = history.drop fromLsn := by
  have hOld : (history.take fromLsn).filter (fun r => fromLsn < r.1) = [] := by
    rw [List.filter_eq_nil_iff]
    intro r hr
    have hMem : r.1 ∈ (history.take fromLsn).map Prod.fst := List.mem_map_of_mem hr
    rw [List.map_take, h.lsns] at hMem
    simp only [decide_eq_true_eq]
    rcases Nat.le_total history.length fromLsn with hShort | hLong
    · rw [List.take_range'_of_length_le hShort, List.mem_range'_1] at hMem
      omega
    · rw [List.take_range'_of_length_ge hLong, List.mem_range'_1] at hMem
      omega
  have hNew : (history.drop fromLsn).filter (fun r => fromLsn < r.1) = history.drop fromLsn := by
    rw [List.filter_eq_self]
    intro r hr
    have hMem : r.1 ∈ (history.drop fromLsn).map Prod.fst := List.mem_map_of_mem hr
    rw [List.map_drop, h.lsns, List.drop_range', List.mem_range'_1] at hMem
    simp only [decide_eq_true_eq]
    omega
  calc history.filter (fun r => fromLsn < r.1)
      = (history.take fromLsn ++ history.drop fromLsn).filter (fun r => fromLsn < r.1) := by
        rw [List.take_append_drop]
    _ = history.drop fromLsn := by rw [List.filter_append, hOld, hNew, List.nil_append]

/-- Above what was deleted, a read gives the history. -/
theorem readSince (h : c.Endures segments history) {fromLsn : Nat} (hServed : c.canServeFrom fromLsn = true)
    (maxEvents : Nat) :
    ∃ events, c.readSince fromLsn maxEvents = .ok events ∧ events.map CanonicalEvent.record =
      page maxEvents (history.filter fun r => fromLsn < r.1) := by
  obtain ⟨events, hRead, hMap⟩ := h.live.holds.readSince fromLsn maxEvents
  rw [h.retained fromLsn (by simpa [canServeFrom, CanonicalWal.canServeFrom] using hServed)] at hMap
  exact ⟨events, hRead, hMap⟩

theorem canServeFrom (h : c.Endures segments history) :
    c.canServeFrom c.metaState.lastBackupLsn = true := by
  simpa [Coordinator.canServeFrom, CanonicalWal.canServeFrom] using h.deleted

/-- What came after a state of the log has higher LSNs. -/
theorem lt_of_mem_more (h : c.Endures segments history) {old more : List LogRecord}
    (hSplit : history = old ++ more) {r : LogRecord} (hr : r ∈ more) : old.length < r.1 := by
  subst hSplit
  have hLsns := h.lsns
  rw [List.length_append, ← List.range'_append_1, List.map_append] at hLsns
  have hMore := (List.append_inj' hLsns (by simp)).2
  have hMem : r.1 ∈ List.range' (1 + old.length) more.length := by
    rw [← hMore]
    exact List.mem_map_of_mem hr
  rw [List.mem_range'_1] at hMem
  omega

end Endures

namespace Keeps

variable {c : Coordinator} {segments : List Segment} {history : List LogRecord}

/-- A checkpoint covers every marker before it. -/
theorem lastMarker_of_backup {backup : Nat} (hBackup : history.length ≤ backup)
    (hLsns : history.map Prod.fst = List.range' 1 history.length) :
    ∀ r ∈ history, ∀ generation, r.2 = .rotate generation → r.1 ≤ backup := by
  intro r hr generation hRotate
  have hMem : r.1 ∈ history.map Prod.fst := List.mem_map_of_mem hr
  rw [hLsns, List.mem_range'_1] at hMem
  omega

theorem init (h : c.Keeps segments history) (id walDir : String) {lastLsn : Nat}
    (hLow : c.metaState.lastBackupLsn ≤ lastLsn) (hHigh : lastLsn ≤ history.length) :
    Keeps (Coordinator.init id walDir c.canonical.files
        (some ⟨c.metaState.generation, lastLsn, c.metaState.lastBackupLsn⟩)) segments history where
  toEndures := h.toEndures.init id walDir hLow hHigh
  lastMarker := h.lastMarker

theorem restart (h : c.Keeps segments history) : c.restart.Keeps segments history := by
  obtain ⟨lastLsn, hFile, hLow, hHigh⟩ := h.saved
  rw [Coordinator.restart, hFile]
  exact h.init c.id c.walDir hLow hHigh

theorem shutdown_restart (h : c.Keeps segments history) :
    (c.shutdown none).1.restart.Keeps segments history where
  toEndures := h.toEndures.shutdown_restart
  lastMarker := by
    rw [Coordinator.shutdown, if_neg (by rw [h.live.running]; exact Bool.false_ne_true)]
    exact h.lastMarker

theorem add (h : c.Keeps segments history) (applied : Except RevokerError Unit) (item : JsString) :
    ∃ segments', Keeps (c.add none applied none item).1 segments' (history ++ c.entryRecords item) := by
  obtain ⟨segments', hEndures⟩ := h.toEndures.add applied item
  refine ⟨segments', hEndures, fun r hr generation hRotate => ?_⟩
  have hMeta : (c.add none applied none item).1.metaState = c.metaState := by
    by_cases hItem : Acceptable item
    · rw [add_sent h.live hItem (Or.inr rfl)]
    · rw [add_refused hItem]
  rw [hMeta]
  rcases List.mem_append.mp hr with hOld | hNew
  · exact h.lastMarker r hOld generation hRotate
  · rw [entryRecords] at hNew
    split_ifs at hNew
    · rw [List.mem_singleton.mp hNew] at hRotate
      cases hRotate
    · cases hNew

theorem retention (h : c.Keeps segments history) (unlinkFails : Nat → Bool)
    {doomed : List (Nat × Bytes)}
    (hDoomed : doomed ⊆ c.markedLog.doomed c.metaState.generation c.canonical.nextLsn unlinkFails) :
    ∃ segments', Keeps { c with
        canonical := doomed.foldl CanonicalWal.unlink c.markedLog
        metaState := c.markedState
        metaFile := some c.markedState } segments'
      (history ++ [(c.canonical.nextLsn, .rotate (c.metaState.generation + 1))]) := by
  obtain ⟨segments', hEndures⟩ := h.toEndures.retention unlinkFails hDoomed
  refine ⟨segments', hEndures, lastMarker_of_backup ?_ hEndures.lsns⟩
  rw [List.length_append, List.length_singleton, ← h.next]
  exact Nat.le_refl _

theorem rotation (h : c.Keeps segments history) (unlinkFails : Nat → Bool) :
    ∃ segments', Keeps (c.onCoreRotation none none unlinkFails).1 segments'
      (history ++ [(c.canonical.nextLsn, .rotate (c.metaState.generation + 1))]) := by
  obtain ⟨segments', hKeeps⟩ := h.retention unlinkFails (List.Subset.refl _)
  rw [rotation_sent h.live]
  exact ⟨segments', { hKeeps with live := { hKeeps.live with } }⟩

end Keeps

theorem keeps_init (id walDir : String) : Keeps (Coordinator.init id walDir [] none) [] [] where
  live := live_init id walDir ⟨rfl, by simp, by simp, List.Pairwise.nil, List.Pairwise.nil⟩ none
  lsns := rfl
  next := rfl
  retained := fun _ _ => rfl
  deleted := Nat.le_refl _
  markers := rfl
  stamped := Stamped.nil _ _
  items := by simp
  lastMarker := by simp
  backup_le := Nat.le_refl _
  saved := ⟨0, rfl, Nat.le_refl _, Nat.le_refl _⟩

end Coordinator

/-- A coordinator with every record it has appended, also those that retention has deleted. -/
structure LoggedCoordinator where
  coordinator : Coordinator
  history : List LogRecord
  deriving DecidableEq

namespace LoggedCoordinator

def start (id walDir : String) : LoggedCoordinator := ⟨Coordinator.init id walDir [] none, []⟩

/-- `Coordinator.add` where no append fails. -/
def add (c : LoggedCoordinator) (applied : Except RevokerError Unit) (item : JsString) :
    LoggedCoordinator :=
  ⟨(c.coordinator.add none applied none item).1, c.history ++ c.coordinator.entryRecords item⟩

/-- `Coordinator.#onCoreRotation` where no write fails. -/
def rotation (c : LoggedCoordinator) (unlinkFails : Nat → Bool) : LoggedCoordinator :=
  ⟨(c.coordinator.onCoreRotation none none unlinkFails).1,
    c.history ++ [(c.coordinator.canonical.nextLsn, .rotate (c.coordinator.metaState.generation + 1))]⟩

/-- The records are those of the coordinator's log, and their items can be applied. -/
structure Sound (c : LoggedCoordinator) : Prop where
  keeps : ∃ segments, c.coordinator.Keeps segments c.history
  items : ∀ lsn x, (lsn, .entry x) ∈ c.history → Acceptable x ∧ IsWellFormed x

theorem sound_start (id walDir : String) : (start id walDir).Sound :=
  ⟨⟨[], Coordinator.keeps_init id walDir⟩, by simp [start]⟩

variable {c : LoggedCoordinator}

theorem Sound.add (h : c.Sound) (applied : Except RevokerError Unit) (item : JsString) :
    (c.add applied item).Sound where
  keeps := by
    obtain ⟨segments, hKeeps⟩ := h.keeps
    exact hKeeps.add applied item
  items := by
    intro lsn x hMem
    rcases List.mem_append.mp hMem with hOld | hNew
    · exact h.items lsn x hOld
    · rw [Coordinator.entryRecords] at hNew
      split_ifs at hNew with hItem
      · cases List.mem_singleton.mp hNew
        exact ⟨hItem.toWellFormed, isWellFormed_toWellFormed item⟩
      · cases hNew

theorem Sound.rotation (h : c.Sound) (unlinkFails : Nat → Bool) : (c.rotation unlinkFails).Sound where
  keeps := by
    obtain ⟨segments, hKeeps⟩ := h.keeps
    exact hKeeps.rotation unlinkFails
  items := by
    intro lsn x hMem
    rcases List.mem_append.mp hMem with hOld | hNew
    · exact h.items lsn x hOld
    · cases List.mem_singleton.mp hNew

/-- Two records with one LSN are the same record. -/
theorem Sound.record_eq (h : c.Sound) {r r' : LogRecord} (hr : r ∈ c.history) (hr' : r' ∈ c.history)
    (hLsn : r.1 = r'.1) : r = r' := by
  obtain ⟨segments, hKeeps⟩ := h.keeps
  have hNodup : (c.history.map Prod.fst).Nodup := by
    rw [hKeeps.lsns]
    exact List.nodup_range'
  exact List.inj_on_of_nodup_map hNodup hr hr' hLsn

theorem Sound.lsn_le (h : c.Sound) {r : LogRecord} (hr : r ∈ c.history) :
    0 < r.1 ∧ r.1 ≤ c.history.length := by
  obtain ⟨segments, hKeeps⟩ := h.keeps
  have hMem : r.1 ∈ c.history.map Prod.fst := List.mem_map_of_mem hr
  rw [hKeeps.lsns, List.mem_range'_1] at hMem
  omega

end LoggedCoordinator

end TokenRevoker
