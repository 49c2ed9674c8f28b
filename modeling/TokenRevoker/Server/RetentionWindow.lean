import TokenRevoker.Server.CoordinatorLives

/-! How far back a coordinator can serve. Retention deletes whole files, and a file holds what
was appended in one generation: a node that is at most one rotation behind is served from the
log, one that is further behind is not, and two generations of files stay on disk. -/
namespace TokenRevoker

open Text

section Generations

variable {history : List LogRecord} {r : LogRecord} {lsn lsn' : Nat}

/-- The record is a marker. -/
def LogRecord.marks (r : LogRecord) : Bool :=
  match r.2 with
  | .entry _ => false
  | .rotate _ => true

theorem length_markersOf_filter (history : List LogRecord) (keep : LogRecord → Bool) :
    (markersOf (history.filter keep)).length = history.countP fun r => LogRecord.marks r && keep r := by
  rw [markersOf, List.length_filterMap_eq_countP, List.countP_filter]
  refine List.countP_congr fun r _ => ?_
  obtain ⟨lsn, payload⟩ := r
  cases payload <;> simp [LogRecord.marks]

theorem generationAt_eq_countP (history : List LogRecord) (lsn : Nat) :
    generationAt history lsn = history.countP fun r => LogRecord.marks r && decide (r.1 ≤ lsn) :=
  length_markersOf_filter history _

theorem generationAt_mono (history : List LogRecord) (h : lsn ≤ lsn') :
    generationAt history lsn ≤ generationAt history lsn' := by
  rw [generationAt_eq_countP, generationAt_eq_countP]
  refine List.countP_mono_left fun r _ hr => ?_
  simp only [Bool.and_eq_true, decide_eq_true_eq] at hr ⊢
  exact ⟨hr.1, hr.2.trans h⟩

theorem generationAt_entry (history : List LogRecord) (lsn lsn' : Nat) (x : JsString) :
    generationAt (history ++ [(lsn', .entry x)]) lsn = generationAt history lsn := by
  simp [generationAt_eq_countP, LogRecord.marks]

end Generations

namespace Coordinator

/-- What is in a file was appended in the generation of the file. -/
def Filed (c : Coordinator) (history : List LogRecord) : Prop :=
  ∀ file ∈ c.canonical.files, ∀ event ∈ fileEvents file, file.1 = generationAt history (event.lsn - 1)

variable {c : Coordinator} {segments : List Segment} {history : List LogRecord}

theorem Endures.generation_eq (h : c.Endures segments history) :
    (markersOf history).length = c.metaState.generation := by
  rw [h.markers, List.length_range']

/-- The lines of a file and its events have the same LSNs. -/
theorem exists_event_of_line {segment : Segment} (hValid : segment.Valid) {line : Line}
    (hLine : line ∈ segment.lines) : ∃ event ∈ fileEvents segment.file, event.lsn = line.lsn := by
  rw [Segment.fileEvents_file hValid]
  have hRecord : line.wellFormed.record ∈ segment.events.map CanonicalEvent.record := by
    rw [Segment.events, stamp_map_record]
    exact List.mem_map_of_mem (List.mem_map_of_mem hLine)
  obtain ⟨event, hEvent, hEq⟩ := List.mem_map.mp hRecord
  refine ⟨event, hEvent, ?_⟩
  rw [← CanonicalEvent.record_fst, hEq, Line.record_fst, Line.lsn_wellFormed]

theorem exists_line_of_event {segment : Segment} (hValid : segment.Valid) {event : CanonicalEvent}
    (hEvent : event ∈ fileEvents segment.file) : ∃ line ∈ segment.lines, line.lsn = event.lsn := by
  rw [Segment.fileEvents_file hValid] at hEvent
  obtain ⟨line, hLine, hLsn⟩ := exists_line_of_stamp hEvent
  obtain ⟨line, hMem, rfl⟩ := List.mem_map.mp hLine
  exact ⟨line, hMem, by rwa [Line.lsn_wellFormed] at hLsn⟩

/-- Lines for the next LSN go to the file of the generation in force. -/
theorem Filed.written (h : c.Endures segments history) (hFiled : c.Filed history) {lines : List Line}
    {next generation : Nat} (hLines : ∀ line ∈ lines, line.lsn = c.canonical.nextLsn)
    (hWritten : (c.canonical.written lines next generation).Holds
      (Segment.push c.canonical.generation lines segments)) (payload : Payload) :
    Filed { c with canonical := c.canonical.written lines next generation }
      (history ++ [(c.canonical.nextLsn, payload)]) := by
  have hOld : ∀ segment ∈ segments, ∀ line ∈ segment.lines,
      segment.generation = generationAt (history ++ [(c.canonical.nextLsn, payload)]) (line.lsn - 1) := by
    intro segment hSegment line hLine
    obtain ⟨event, hEvent, hLsn⟩ := exists_event_of_line (h.live.holds.valid segment hSegment) hLine
    have hBelow := h.live.holds.below line (List.mem_flatMap.mpr ⟨segment, hSegment, hLine⟩)
    have hFile : segment.file ∈ c.canonical.files := by
      rw [h.live.holds.files]
      exact List.mem_map_of_mem hSegment
    rw [generationAt_append_of_lt (by simp only; omega), ← hLsn]
    exact hFiled segment.file hFile event hEvent
  have hNew : ∀ line ∈ lines,
      c.canonical.generation = generationAt (history ++ [(c.canonical.nextLsn, payload)]) (line.lsn - 1) := by
    intro line hLine
    have hPos := h.live.pos
    have hNext := h.next
    rw [hLines line hLine, generationAt_append_of_lt (by simp only; omega), generationAt_of_le, h.generation_eq,
      h.live.generation]
    intro r hr
    have := h.le_length hr
    omega
  intro file hFile event hEvent
  obtain ⟨segment, hSegment, rfl⟩ : ∃ segment ∈ Segment.push c.canonical.generation lines segments,
      segment.file = file := by
    rw [hWritten.files] at hFile
    exact List.mem_map.mp hFile
  obtain ⟨line, hLine, hLsn⟩ := exists_line_of_event (hWritten.valid segment hSegment) hEvent
  rw [← hLsn]
  rcases Segment.mem_push hSegment with hMem | rfl | ⟨old, hMem, hGeneration, rfl⟩
  · exact hOld segment hMem line hLine
  · exact hNew line hLine
  · rcases List.mem_append.mp hLine with hBefore | hAfter
    · exact hGeneration ▸ hOld old hMem line hBefore
    · exact hNew line hAfter

theorem Filed.unlink (h : c.Filed history) (doomed : List (Nat × Bytes)) :
    Filed { c with canonical := doomed.foldl CanonicalWal.unlink c.canonical } history := by
  intro file hFile
  refine h file ?_
  rw [CanonicalWal.foldl_unlink] at hFile
  exact (List.mem_filter.mp hFile).1

theorem Filed.add (h : c.Endures segments history) (hFiled : c.Filed history)
    (applied : Except RevokerError Unit) (item : JsString) :
    (c.add none applied none item).1.Filed (history ++ c.entryRecords item) := by
  rw [entryRecords]
  split_ifs with hItem
  · rw [add_sent h.live hItem (Or.inr rfl)]
    exact hFiled.written h (fun line hLine => (lsn_marker_entryLines hLine).1)
      (h.entry hItem applied []).live.holds _
  · rw [add_refused hItem, List.append_nil]
    exact hFiled

/-- The files with the marker of a rotation, before retention. -/
theorem Filed.marked (h : c.Endures segments history) (hFiled : c.Filed history) :
    Filed { c with canonical := c.markedLog }
      (history ++ [(c.canonical.nextLsn, .rotate (c.metaState.generation + 1))]) :=
  hFiled.written h (by simp [Line.lsn]) h.live.holds_markedLog _

theorem Filed.apply (h : c.Endures segments history) (hFiled : c.Filed history) (a : CoordinatorLives.Action) :
    (CoordinatorLives.apply c a).Filed (history ++ CoordinatorLives.appended c a) := by
  cases a with
  | crashInAdd item =>
      rw [CoordinatorLives.apply, CoordinatorLives.interruptedAdd_restart h.live, CoordinatorLives.appended,
        CoordinatorLives.appendedEntry_eq h.live]
      exact hFiled.add h (.ok ()) item
  | step a =>
      cases a with
      | add item applied =>
          rw [CoordinatorLives.appended, CoordinatorLives.appendedEntry_eq h.live]
          exact hFiled.add h applied item
      | rotation unlinkFails =>
          rw [CoordinatorLives.appended, CoordinatorLives.appendedMarker_eq h.live]
          simp only [CoordinatorLives.apply, CoordinatorRestart.apply, rotation_sent h.live]
          exact (hFiled.marked h).unlink _
      | crash =>
          rw [CoordinatorLives.appended, List.append_nil]
          exact hFiled
      | crashAfterMarker =>
          rw [CoordinatorLives.appended, CoordinatorLives.appendedMarker_eq h.live]
          simp only [CoordinatorLives.apply, CoordinatorRestart.apply, appendMarker_ok h.live]
          exact hFiled.marked h
      | crashInRetention unlinkFails unlinked =>
          rw [CoordinatorLives.appended, CoordinatorLives.appendedMarker_eq h.live]
          simp only [CoordinatorLives.apply, CoordinatorRestart.apply, CoordinatorRestart.interrupted_eq h.live]
          exact (hFiled.marked h).unlink _
      | shutdown =>
          rw [CoordinatorLives.appended, List.append_nil]
          simp only [CoordinatorLives.apply, CoordinatorRestart.apply, shutdown, h.live.running]
          exact hFiled

theorem rotation_deleted_le_iff (h : c.Endures segments history) (unlinkFails : Nat → Bool) {bound : Nat} :
    (c.onCoreRotation none none unlinkFails).1.canonical.deletedMaxLsn ≤ bound ↔
      c.canonical.deletedMaxLsn ≤ bound ∧
        ∀ file ∈ c.markedLog.doomed c.metaState.generation c.canonical.nextLsn unlinkFails,
          ∀ event ∈ fileEvents file, event.lsn ≤ bound := by
  rw [rotation_sent h.live, CanonicalWal.foldl_unlink]
  simp only [CanonicalWal.foldl_max_le_iff, maxLsn_le_iff]
  exact Iff.rfl

/-- Above `low`, an LSN that is at most one generation behind is served. -/
def Spares (c : Coordinator) (history : List LogRecord) (low : Nat) : Prop :=
  ∀ lsn, low ≤ lsn → c.metaState.generation ≤ generationAt history lsn + 1 → c.canonical.deletedMaxLsn ≤ lsn

theorem Spares.add (h : c.Endures segments history) {low : Nat} (hSpares : c.Spares history low)
    (applied : Except RevokerError Unit) (item : JsString) :
    (c.add none applied none item).1.Spares (history ++ c.entryRecords item) low := by
  rw [entryRecords]
  split_ifs with hItem
  · rw [add_sent h.live hItem (Or.inr rfl)]
    intro lsn hLow hBehind
    rw [generationAt_entry] at hBehind
    exact hSpares lsn hLow hBehind
  · rw [add_refused hItem, List.append_nil]
    exact hSpares

/-- Retention deletes what is two generations behind the new one. -/
theorem Spares.rotation (h : c.Endures segments history) (hFiled : c.Filed history) {low : Nat}
    (hSpares : c.Spares history low) (unlinkFails : Nat → Bool) :
    (c.onCoreRotation none none unlinkFails).1.Spares
      (history ++ [(c.canonical.nextLsn, .rotate (c.metaState.generation + 1))]) low := by
  intro lsn hLow hBehind
  have hGeneration : (c.onCoreRotation none none unlinkFails).1.metaState.generation =
      c.metaState.generation + 1 := by
    rw [rotation_sent h.live]
    rfl
  rw [hGeneration] at hBehind
  rw [rotation_deleted_le_iff h]
  have hMarked := hFiled.marked h
  have hDeleted := h.deleted
  have hBackup := h.backup_le
  have hNext := h.next
  rcases Nat.lt_or_ge lsn c.canonical.nextLsn with hLt | hGe
  · have hOld : generationAt (history ++ [(c.canonical.nextLsn, .rotate (c.metaState.generation + 1))]) lsn =
        generationAt history lsn := generationAt_append_of_lt hLt
    refine ⟨hSpares lsn hLow (by omega), fun file hFile event hEvent => ?_⟩
    obtain ⟨hMem, hDoomed⟩ := List.mem_filter.mp hFile
    simp only [CanonicalWal.deletable, Bool.and_eq_true, decide_eq_true_eq] at hDoomed
    have hStamp := hMarked file hMem event hEvent
    by_contra hAbove
    have hMono := generationAt_mono (history ++ [(c.canonical.nextLsn, .rotate (c.metaState.generation + 1))])
      (show lsn ≤ event.lsn - 1 by omega)
    omega
  · refine ⟨by omega, fun file hFile event hEvent => ?_⟩
    obtain ⟨hMem, hDoomed⟩ := List.mem_filter.mp hFile
    simp only [CanonicalWal.deletable, Bool.and_eq_true, decide_eq_true_eq] at hDoomed
    exact (maxLsn_le_iff.mp hDoomed.1.2 event hEvent).trans hGe

/-- What one rotation leaves, if it can unlink: the newest two generations. -/
structure Bounded (c : Coordinator) (history : List LogRecord) : Prop where
  floor : ∀ lsn, c.canonical.deletedMaxLsn ≤ lsn → c.metaState.generation ≤ generationAt history lsn + 1
  files : ∀ file ∈ c.canonical.files, c.metaState.generation ≤ file.1 + 1
  /-- From there on a new life serves. -/
  backup : c.metaState.generation ≤ generationAt history c.metaState.lastBackupLsn + 1

theorem Bounded.add (h : c.Endures segments history) (hBounded : c.Bounded history)
    (applied : Except RevokerError Unit) (item : JsString) :
    (c.add none applied none item).1.Bounded (history ++ c.entryRecords item) := by
  rw [entryRecords]
  split_ifs with hItem
  · rw [add_sent h.live hItem (Or.inr rfl)]
    refine ⟨fun lsn hDeleted => ?_, fun file hFile => ?_, ?_⟩
    · rw [generationAt_entry]
      exact hBounded.floor lsn hDeleted
    · rcases mem_of_mem_appendFile hFile with hNew | hOld
      · rw [hNew]
        exact Nat.le_succ_of_le (Nat.le_of_eq h.live.generation)
      · exact hBounded.files file hOld
    · rw [generationAt_entry]
      exact hBounded.backup
  · rw [add_refused hItem, List.append_nil]
    exact hBounded

/-- A new life has the files of the old one, and serves from the consistency point on. -/
theorem Bounded.reopened (h : c.Endures segments history) (hBounded : c.Bounded history) {next : Coordinator}
    {segments' : List Segment} (hNext : next.Endures segments' history)
    (hFiles : next.canonical.files = c.canonical.files)
    (hDeleted : next.canonical.deletedMaxLsn = c.metaState.lastBackupLsn)
    (hBackup : next.metaState.lastBackupLsn = c.metaState.lastBackupLsn) : next.Bounded history := by
  have hGeneration : next.metaState.generation = c.metaState.generation :=
    hNext.generation_eq.symm.trans h.generation_eq
  constructor
  · intro lsn hServed
    rw [hDeleted] at hServed
    have hMono := generationAt_mono history hServed
    have hFloor := hBounded.backup
    omega
  · intro file hFile
    rw [hGeneration]
    exact hBounded.files file (hFiles ▸ hFile)
  · rw [hGeneration, hBackup]
    exact hBounded.backup

theorem Bounded.restart (h : c.Endures segments history) (hBounded : c.Bounded history) :
    c.restart.Bounded history := by
  obtain ⟨lastLsn, hFile, -⟩ := h.saved
  refine hBounded.reopened h h.restart ?_ ?_ ?_ <;> rw [Coordinator.restart, hFile] <;> rfl

theorem Bounded.shutdown_restart (h : c.Endures segments history) (hBounded : c.Bounded history) :
    (c.shutdown none).1.restart.Bounded history := by
  refine hBounded.reopened h h.shutdown_restart ?_ ?_ ?_ <;>
    rw [Coordinator.shutdown, if_neg (by rw [h.live.running]; exact Bool.false_ne_true)] <;> rfl

end Coordinator

namespace CoordinatorLives

variable {c : Coordinator} {segments : List Segment} {old : List LogRecord} {low lsn : Nat}

/-- A rotation, be it one that a crash cuts short. -/
def Action.rotates : Action → Bool
  | .step (.rotation _) | .step .crashAfterMarker | .step (.crashInRetention _ _) => true
  | _ => false

end CoordinatorLives

end TokenRevoker
