import TokenRevoker.Server.CanonicalWal

/-! The canonical log without its files: the sequence of LSNs and what each of
them stands for. As long as every line was appended whole, reading the files
gives back this sequence, each LSN once, in order. -/
namespace TokenRevoker

open Text

/-- What a replica learns from one LSN. An entry and the tombstone that replaced
it say the same. -/
inductive Payload where
  | entry (item : JsString)
  | rotate (generation : Nat)
  deriving DecidableEq

/-- An LSN with its payload. -/
abbrev LogRecord := Nat × Payload

def CanonicalEvent.record : CanonicalEvent → LogRecord
  | .entry lsn _ item | .tombstone lsn _ item => (lsn, .entry item)
  | .rotate lsn generation => (lsn, .rotate generation)

/-- The generation that the event starts, zero for entries. -/
def CanonicalEvent.marker : CanonicalEvent → Nat
  | .rotate _ generation => generation
  | _ => 0

namespace Line

def record : Line → LogRecord
  | .entry lsn item | .tombstone lsn item => (lsn, .entry item)
  | .rotate lsn generation => (lsn, .rotate generation)

/-- The line takes an LSN of its own. A tombstone reuses that of its entry. -/
def assigns : Line → Bool
  | .tombstone _ _ => false
  | _ => true

/-- The generation that the line starts, zero for entries. -/
def marker : Line → Nat
  | .rotate _ generation => generation
  | _ => 0

@[simp] theorem record_fst (line : Line) : line.record.1 = line.lsn := by cases line <;> rfl

@[simp] theorem assigns_wellFormed (line : Line) : line.wellFormed.assigns = line.assigns := by
  cases line <;> rfl

@[simp] theorem marker_wellFormed (line : Line) : line.wellFormed.marker = line.marker := by
  cases line <;> rfl

/-- Lines that say the same still do when they come back from the file. -/
theorem record_wellFormed_congr {line other : Line} (h : line.record = other.record) :
    line.wellFormed.record = other.wellFormed.record := by
  cases line <;> cases other <;>
    simp only [record, wellFormed, Prod.mk.injEq, Payload.entry.injEq, Payload.rotate.injEq,
      reduceCtorEq, and_false] at h ⊢ <;> simp [h.1, h.2]

end Line

@[simp] theorem CanonicalEvent.record_fst (event : CanonicalEvent) : event.record.1 = event.lsn := by
  cases event <;> rfl

/-- The log that lines stand for. A tombstone adds nothing to it: it says what the entry with
its LSN says. -/
def records (lines : List Line) : List LogRecord := (lines.filter Line.assigns).map Line.record

theorem stamp_map_record (generation : Nat) (lines : List Line) :
    (stamp generation lines).map CanonicalEvent.record = lines.map Line.record := by
  induction lines generalizing generation with
  | nil => rfl
  | cons line lines ih => cases line <;> simp [stamp, Line.event, Line.record, CanonicalEvent.record, ih]

theorem stamp_map_marker (generation : Nat) (lines : List Line) :
    (stamp generation lines).map CanonicalEvent.marker = lines.map Line.marker := by
  induction lines generalizing generation with
  | nil => rfl
  | cons line lines ih => cases line <;> simp [stamp, Line.event, Line.marker, CanonicalEvent.marker, ih]

theorem maxLsn_le_iff {events : List CanonicalEvent} {bound : Nat} :
    maxLsn events ≤ bound ↔ ∀ event ∈ events, event.lsn ≤ bound := by
  have hFold : ∀ top, events.foldl (fun top event => max top event.lsn) top ≤ bound ↔
      top ≤ bound ∧ ∀ event ∈ events, event.lsn ≤ bound := by
    induction events with
    | nil => simp
    | cons event events ih =>
        intro top
        rw [List.foldl_cons, ih]
        simp [and_assoc]
  simpa [maxLsn] using hFold 0

theorem CanonicalWal.scan_maxGeneration_le_iff {wal : CanonicalWal} {bound : Nat} :
    wal.scan.maxGeneration ≤ bound ↔
      (∀ file ∈ wal.files, file.1 ≤ bound) ∧ ∀ event ∈ wal.events, event.marker ≤ bound := by
  have hEvents : ∀ (events : List CanonicalEvent) (top : Nat),
      events.foldl (fun top event =>
        match event with
        | .rotate _ generation => max top generation
        | _ => top) top ≤ bound ↔ top ≤ bound ∧ ∀ event ∈ events, event.marker ≤ bound := by
    intro events
    induction events with
    | nil => simp
    | cons event events ih =>
        intro top
        rw [List.foldl_cons, ih]
        cases event <;> simp [CanonicalEvent.marker, and_assoc]
  have hFiles : ∀ (files : List (Nat × Bytes)) (top : Nat),
      files.foldl (fun top file =>
        (fileEvents file).foldl (fun top event =>
          match event with
          | .rotate _ generation => max top generation
          | _ => top) (max top file.1)) top ≤ bound ↔
        top ≤ bound ∧ (∀ file ∈ files, file.1 ≤ bound) ∧
          ∀ event ∈ files.flatMap fileEvents, event.marker ≤ bound := by
    intro files
    induction files with
    | nil => simp
    | cons file files ih =>
        intro top
        rw [List.foldl_cons, ih, hEvents]
        simp only [max_le_iff, List.mem_cons, List.flatMap_cons, List.mem_append, or_imp, forall_and,
          forall_eq]
        tauto
  exact (hFiles wal.files 0).trans (and_iff_right (Nat.zero_le _))

namespace Segment

/-- Every tombstone follows its entry in the same file. -/
def Answered (segment : Segment) : Prop :=
  ∀ line ∈ segment.lines, ∃ entry ∈ segment.lines, entry.assigns = true ∧ entry.record = line.record

variable {generation : Nat} {lines more : List Line} {segments : List Segment} {segment : Segment}

/-- A file after a push is an old one, or the one that was written to. -/
theorem mem_push (h : segment ∈ push generation lines segments) :
    segment ∈ segments ∨ segment = ⟨generation, lines⟩ ∨
      ∃ old ∈ segments, old.generation = generation ∧ segment = ⟨generation, old.lines ++ lines⟩ := by
  induction segments with
  | nil =>
      rw [push, List.mem_singleton] at h
      exact Or.inr (Or.inl h)
  | cons head rest ih =>
      rw [push] at h
      split_ifs at h with hSame
      · rcases List.mem_cons.mp h with rfl | h
        · exact Or.inr (Or.inr ⟨head, by simp, hSame, rfl⟩)
        · exact Or.inl (by simp [h])
      · rcases List.mem_cons.mp h with rfl | h
        · exact Or.inr (Or.inl rfl)
        · exact Or.inl h
      · rcases List.mem_cons.mp h with rfl | h
        · exact Or.inl (by simp)
        · rcases ih h with h | h | ⟨old, hOld, h⟩
          · exact Or.inl (by simp [h])
          · exact Or.inr (Or.inl h)
          · exact Or.inr (Or.inr ⟨old, by simp [hOld], h⟩)

theorem answered_push
    (hLines : ∀ line ∈ lines, ∃ entry ∈ lines, entry.assigns = true ∧ entry.record = line.record)
    (h : ∀ segment ∈ segments, segment.Answered) :
    ∀ segment ∈ push generation lines segments, segment.Answered := by
  intro segment hMem
  rcases mem_push hMem with hOld | rfl | ⟨old, hOld, -, rfl⟩
  · exact h segment hOld
  · exact hLines
  · intro line hl
    rcases List.mem_append.mp hl with hl | hl
    · obtain ⟨entry, hMem, hEntry⟩ := h old hOld line hl
      exact ⟨entry, by simp [hMem], hEntry⟩
    · obtain ⟨entry, hMem, hEntry⟩ := hLines line hl
      exact ⟨entry, by simp [hMem], hEntry⟩

end Segment

/-- The log that the files of these segments are read as. -/
def Segment.log (segments : List Segment) : List LogRecord :=
  records ((segments.flatMap Segment.lines).map Line.wellFormed)

theorem Segment.log_append (segments more : List Segment) :
    Segment.log (segments ++ more) = Segment.log segments ++ Segment.log more := by
  simp [Segment.log, records]

theorem Segment.log_push {generation : Nat} {segments : List Segment}
    (h : ∀ segment ∈ segments, segment.generation ≤ generation)
    (hSorted : segments.Pairwise fun a b => a.generation < b.generation) (lines : List Line) :
    Segment.log (push generation lines segments) =
      Segment.log segments ++ records (lines.map Line.wellFormed) := by
  simp [Segment.log, records, flatMap_lines_push h hSorted]

/-- Files made by appending whole lines with ascending LSNs. -/
structure Stored (files : List (Nat × Bytes)) (segments : List Segment) : Prop where
  files : files = segments.map Segment.file
  valid : ∀ segment ∈ segments, segment.Valid
  answered : ∀ segment ∈ segments, segment.Answered
  sorted : segments.Pairwise fun a b => a.generation < b.generation
  ascending : ((segments.flatMap Segment.lines).filter Line.assigns).Pairwise fun a b => a.lsn < b.lsn

/-- What holds between such files and the counters of the log in memory. -/
structure CanonicalWal.Holds (wal : CanonicalWal) (segments : List Segment) : Prop
    extends Stored wal.files segments where
  initialized : wal.initialized = true
  newest : ∀ segment ∈ segments, segment.generation ≤ wal.generation
  markers : ∀ line ∈ segments.flatMap Segment.lines, line.marker ≤ wal.generation
  below : ∀ line ∈ segments.flatMap Segment.lines, line.lsn < wal.nextLsn

namespace Stored

variable {files : List (Nat × Bytes)} {segments : List Segment}

theorem events (h : Stored files segments) : files.flatMap fileEvents = segments.flatMap Segment.events := by
  rw [h.files]
  exact Segment.events_files h.valid

theorem map_record (h : Stored files segments) :
    (files.flatMap fileEvents).map CanonicalEvent.record =
      ((segments.flatMap Segment.lines).map Line.wellFormed).map Line.record := by
  rw [h.events]
  simp [List.map_flatMap, Segment.events, stamp_map_record]

theorem map_marker (h : Stored files segments) :
    (files.flatMap fileEvents).map CanonicalEvent.marker =
      (segments.flatMap Segment.lines).map Line.marker := by
  rw [h.events]
  simp [List.map_flatMap, Segment.events, stamp_map_marker, Function.comp_def]

/-- The log of the files, with its LSNs in order. -/
theorem pairwise_log (h : Stored files segments) :
    (Segment.log segments).Pairwise fun a b => a.1 < b.1 := by
  rw [Segment.log, records, List.pairwise_map, List.filter_map, List.pairwise_map]
  simpa only [Function.comp_def, Line.assigns_wellFormed, Line.record_fst, Line.lsn_wellFormed]
    using h.ascending

/-- Every line is represented by the one that took its LSN. -/
theorem record_mem_log (h : Stored files segments) {line : Line}
    (hLine : line ∈ segments.flatMap Segment.lines) :
    line.wellFormed.record ∈ Segment.log segments := by
  obtain ⟨segment, hSegment, hMem⟩ := List.mem_flatMap.mp hLine
  obtain ⟨entry, hEntry, hAssigns, hRecord⟩ := h.answered segment hSegment line hMem
  refine List.mem_map.mpr ⟨entry.wellFormed, ?_, Line.record_wellFormed_congr hRecord⟩
  refine List.mem_filter.mpr ⟨?_, by simpa using hAssigns⟩
  exact List.mem_map_of_mem (List.mem_flatMap.mpr ⟨segment, hSegment, hEntry⟩)

theorem mem_log (h : Stored files segments) {r : LogRecord} :
    r ∈ Segment.log segments ↔ ∃ event ∈ files.flatMap fileEvents, event.record = r := by
  rw [← List.mem_map, h.map_record]
  constructor
  · intro hr
    obtain ⟨line, hFilter, rfl⟩ := List.mem_map.mp hr
    exact List.mem_map_of_mem (List.mem_filter.mp hFilter).1
  · intro hr
    obtain ⟨line, hMem, rfl⟩ := List.mem_map.mp hr
    obtain ⟨line, hLine, rfl⟩ := List.mem_map.mp hMem
    exact h.record_mem_log hLine

theorem log_pos (h : Stored files segments) {r : LogRecord} (hr : r ∈ Segment.log segments) : 0 < r.1 := by
  obtain ⟨line, hFilter, rfl⟩ := List.mem_map.mp hr
  obtain ⟨line, hLine, rfl⟩ := List.mem_map.mp (List.mem_filter.mp hFilter).1
  obtain ⟨segment, hSegment, hMem⟩ := List.mem_flatMap.mp hLine
  simpa using Line.lsn_pos (h.valid segment hSegment line hMem)

theorem maxLsn_le_iff (h : Stored files segments) {bound : Nat} :
    maxLsn (files.flatMap fileEvents) ≤ bound ↔ ∀ r ∈ Segment.log segments, r.1 ≤ bound := by
  rw [TokenRevoker.maxLsn_le_iff]
  constructor
  · intro hEvents r hr
    obtain ⟨event, hEvent, rfl⟩ := h.mem_log.mp hr
    simpa using hEvents event hEvent
  · intro hLog event hEvent
    simpa using hLog event.record (h.mem_log.mpr ⟨event, hEvent, rfl⟩)

/-- Reading the files gives every LSN of the log once, in order. -/
theorem ordered_map_record (h : Stored files segments) :
    (KeyedLog.ordered CanonicalEvent.lsn (files.flatMap fileEvents)).map CanonicalEvent.record =
      Segment.log segments :=
  KeyedLog.map_ordered Prod.fst CanonicalEvent.record_fst h.pairwise_log
    (fun event hEvent => h.mem_log.mpr ⟨event, hEvent, rfl⟩) fun _ hr => h.mem_log.mp hr

end Stored

/-- The first `maxEvents` of a list, all of them for zero. -/
def page {α : Type*} (maxEvents : Nat) (l : List α) : List α :=
  if 0 < maxEvents then l.take maxEvents else l

/-- Lines for the LSNs from `first` up to `next`, with every tombstone after its entry. -/
structure Batch (first next : Nat) (lines : List Line) : Prop where
  valid : ∀ line ∈ lines, line.Valid
  answered : ∀ line ∈ lines, ∃ entry ∈ lines, entry.assigns = true ∧ entry.record = line.record
  ascending : (lines.filter Line.assigns).Pairwise fun a b => a.lsn < b.lsn
  lower : ∀ line ∈ lines, first ≤ line.lsn
  upper : ∀ line ∈ lines, line.lsn < next

namespace Batch

variable {lsn : Nat} {item : JsString}

theorem nil (first next : Nat) : Batch first next [] := by
  constructor <;> simp

theorem entry (hLsn : 0 < lsn) (hItem : Acceptable item) : Batch lsn (lsn + 1) [.entry lsn item] where
  valid := by simpa [Line.Valid] using ⟨hLsn, hItem⟩
  answered := by simp [Line.assigns, Line.record]
  ascending := by simp [List.filter_cons, Line.assigns]
  lower := by simp [Line.lsn]
  upper := by simp [Line.lsn]

theorem tombstoned (hLsn : 0 < lsn) (hItem : Acceptable item) :
    Batch lsn (lsn + 1) [.entry lsn item, .tombstone lsn item] where
  valid := by simpa [Line.Valid] using ⟨hLsn, hItem⟩
  answered := by simp [Line.assigns, Line.record]
  ascending := by simp [List.filter_cons, Line.assigns]
  lower := by simp [Line.lsn]
  upper := by simp [Line.lsn]

theorem rotate (hLsn : 0 < lsn) (generation : Nat) : Batch lsn (lsn + 1) [.rotate lsn generation] where
  valid := by simpa [Line.Valid] using hLsn
  answered := by simp [Line.assigns, Line.record]
  ascending := by simp [List.filter_cons, Line.assigns]
  lower := by simp [Line.lsn]
  upper := by simp [Line.lsn]

end Batch

namespace CanonicalWal

/-- The log after lines reached the file of its generation. -/
def written (wal : CanonicalWal) (lines : List Line) (nextLsn generation : Nat) : CanonicalWal :=
  { wal with
    files := appendFile wal.generation (encodeLines (lines.map Line.text)) wal.files
    nextLsn := nextLsn
    generation := generation }

theorem appendEntry_ok {wal : CanonicalWal} (h : wal.initialized = true) (item : JsString) :
    wal.appendEntry none item =
      (wal.written [.entry wal.nextLsn item] (wal.nextLsn + 1) wal.generation, .ok wal.nextLsn) := by
  simp [appendEntry, appendLine, h, written, encodeLines]

theorem appendTombstone_ok {wal : CanonicalWal} (h : wal.initialized = true) (lsn : Nat)
    (item : JsString) : wal.appendTombstone none lsn item =
      (wal.written [.tombstone lsn item] wal.nextLsn wal.generation, .ok ()) := by
  simp [appendTombstone, appendLine, h, written, encodeLines]

theorem appendRotate_ok {wal : CanonicalWal} (h : wal.initialized = true) (generation : Nat) :
    wal.appendRotate none generation =
      (wal.written [.rotate wal.nextLsn generation] (wal.nextLsn + 1) generation, .ok wal.nextLsn) := by
  simp [appendRotate, appendLine, h, written, encodeLines]

theorem appendFile_appendFile (generation : Nat) (a b : Bytes) (files : List (Nat × Bytes)) :
    appendFile generation b (appendFile generation a files) = appendFile generation (a ++ b) files := by
  induction files with
  | nil => simp [appendFile]
  | cons file rest ih =>
      simp only [appendFile]
      split_ifs with hSame
      · simp [appendFile]
      · simp [appendFile]
      · simp [appendFile, *]

/-- Two writes without a new generation between them are one. -/
theorem written_written (wal : CanonicalWal) (lines more : List Line) (first next generation : Nat) :
    (wal.written lines first wal.generation).written more next generation =
      wal.written (lines ++ more) next generation := by
  simp [written, appendFile_appendFile, encodeLines_append]

theorem readSince_eq {wal : CanonicalWal} (h : wal.initialized = true) (fromLsn maxEvents : Nat) :
    wal.readSince fromLsn maxEvents = .ok (page maxEvents (KeyedLog.ordered CanonicalEvent.lsn
      (wal.events.filter fun event => fromLsn < event.lsn))) := by
  simp only [readSince, h, page]
  by_cases hZero : 0 < maxEvents
  · by_cases hLong : maxEvents < (KeyedLog.ordered CanonicalEvent.lsn
        (wal.events.filter fun event => fromLsn < event.lsn)).length
    · simp [hZero, hLong]
    · simp [hLong, List.take_of_length_le (Nat.le_of_not_lt hLong)]
  · simp [hZero]

/-- A read brings events of the files, above the LSN it is asked for. -/
theorem mem_readSince {wal : CanonicalWal} {fromLsn maxEvents : Nat} {events : List CanonicalEvent}
    (h : wal.readSince fromLsn maxEvents = .ok events) {event : CanonicalEvent} (hEvent : event ∈ events) :
    event ∈ wal.events ∧ fromLsn < event.lsn := by
  cases hInitialized : wal.initialized with
  | false =>
      rw [CanonicalWal.readSince, if_pos hInitialized] at h
      cases h
  | true =>
      rw [readSince_eq hInitialized] at h
      cases h
      have hOrdered : event ∈ KeyedLog.ordered CanonicalEvent.lsn
          (wal.events.filter fun event => fromLsn < event.lsn) := by
        rw [page] at hEvent
        split_ifs at hEvent
        · exact List.mem_of_mem_take hEvent
        · exact hEvent
      have hMem := KeyedLog.mem_of_mem_latest (KeyedLog.mem_ordered.mp hOrdered)
      exact ⟨(List.mem_filter.mp hMem).1, of_decide_eq_true (List.mem_filter.mp hMem).2⟩

namespace Holds

variable {wal : CanonicalWal} {segments : List Segment}

theorem readSince (h : wal.Holds segments) (fromLsn maxEvents : Nat) :
    ∃ events, wal.readSince fromLsn maxEvents = .ok events ∧ events.map CanonicalEvent.record =
      page maxEvents ((Segment.log segments).filter fun r => fromLsn < r.1) := by
  have hSorted : (KeyedLog.ordered CanonicalEvent.lsn
      (wal.events.filter fun event => fromLsn < event.lsn)).map CanonicalEvent.record =
        (Segment.log segments).filter fun r => fromLsn < r.1 := by
    have hRecords := h.ordered_map_record
    rw [KeyedLog.ordered_filter, ← hRecords, List.filter_map]
    simp [Function.comp_def, CanonicalWal.events]
  refine ⟨_, CanonicalWal.readSince_eq h.initialized fromLsn maxEvents, ?_⟩
  rw [← hSorted, page, page]
  split_ifs
  · rw [List.map_take]
  · rfl

/-- Appending whole lines for new LSNs. -/
theorem written (h : wal.Holds segments) {lines : List Line} {next generation : Nat}
    (hBatch : Batch wal.nextLsn next lines) (hNext : wal.nextLsn ≤ next)
    (hMarkers : ∀ line ∈ lines, line.marker ≤ generation) (hGeneration : wal.generation ≤ generation) :
    (wal.written lines next generation).Holds (Segment.push wal.generation lines segments) where
  files := by
    rw [CanonicalWal.written, h.files]
    exact Segment.appendFile_push wal.generation lines segments
  valid := Segment.valid_push hBatch.valid h.valid
  answered := Segment.answered_push hBatch.answered h.answered
  sorted := Segment.sorted_push h.sorted
  ascending := by
    rw [Segment.flatMap_lines_push h.newest h.sorted, List.filter_append, List.pairwise_append]
    refine ⟨h.ascending, hBatch.ascending, ?_⟩
    intro a ha b hb
    have hBelow := h.below a (List.mem_filter.mp ha).1
    have hLower := hBatch.lower b (List.mem_filter.mp hb).1
    omega
  initialized := h.initialized
  newest := by
    intro segment hSegment
    show segment.generation ≤ generation
    rcases Segment.generation_push hSegment with hEq | ⟨old, hOld, hEq⟩
    · omega
    · have := h.newest old hOld
      omega
  markers := by
    rw [Segment.flatMap_lines_push h.newest h.sorted]
    intro line hLine
    rcases List.mem_append.mp hLine with hOld | hNew
    · exact (h.markers line hOld).trans hGeneration
    · exact hMarkers line hNew
  below := by
    rw [Segment.flatMap_lines_push h.newest h.sorted]
    intro line hLine
    rcases List.mem_append.mp hLine with hOld | hNew
    · exact (h.below line hOld).trans_le hNext
    · exact hBatch.upper line hNew

theorem log_written (h : wal.Holds segments) (lines : List Line) :
    Segment.log (Segment.push wal.generation lines segments) =
      Segment.log segments ++ records (lines.map Line.wellFormed) :=
  Segment.log_push h.newest h.sorted lines

theorem log_below (h : wal.Holds segments) {r : LogRecord} (hr : r ∈ Segment.log segments) :
    r.1 < wal.nextLsn := by
  obtain ⟨line, hFilter, rfl⟩ := List.mem_map.mp hr
  obtain ⟨line, hLine, rfl⟩ := List.mem_map.mp (List.mem_filter.mp hFilter).1
  simpa using h.below line hLine

/-- Neither a file nor a marker is ahead of the current generation. -/
theorem scan_maxGeneration_le (h : wal.Holds segments) : wal.scan.maxGeneration ≤ wal.generation := by
  refine scan_maxGeneration_le_iff.mpr ⟨fun file hFile => ?_, fun event hEvent => ?_⟩
  · rw [h.files] at hFile
    obtain ⟨segment, hSegment, rfl⟩ := List.mem_map.mp hFile
    exact h.newest segment hSegment
  · have hMarker : event.marker ∈ wal.events.map CanonicalEvent.marker := List.mem_map_of_mem hEvent
    rw [CanonicalWal.events, h.map_marker] at hMarker
    obtain ⟨line, hLine, hEq⟩ := List.mem_map.mp hMarker
    rw [← hEq]
    exact h.markers line hLine

/-- LSNs that were taken and never written leave the files as they are. -/
theorem skip (h : wal.Holds segments) {next : Nat} (hNext : wal.nextLsn ≤ next) :
    CanonicalWal.Holds { wal with nextLsn := next } segments :=
  { h with below := fun line hLine => (h.below line hLine).trans_le hNext }

end Holds

/-- Opening files for appending, above everything the scan found. -/
theorem holds_init (wal : CanonicalWal) {segments : List Segment} (h : Stored wal.files segments)
    {nextLsn generation : Nat} (hLsn : wal.scan.maxLsn < nextLsn)
    (hGeneration : wal.scan.maxGeneration ≤ generation) (deletedMaxLsn : Nat) :
    (wal.init nextLsn generation deletedMaxLsn).Holds segments := by
  obtain ⟨hFiles, hMarkers⟩ := scan_maxGeneration_le_iff.mp hGeneration
  refine { h with initialized := rfl, newest := ?_, markers := ?_, below := ?_ }
  · intro segment hSegment
    refine hFiles segment.file ?_
    rw [h.files]
    exact List.mem_map_of_mem hSegment
  · intro line hLine
    have hMap := h.map_marker
    obtain ⟨event, hEvent, hEq⟩ : ∃ event ∈ wal.files.flatMap fileEvents, event.marker = line.marker := by
      rw [← List.mem_map, hMap]
      exact List.mem_map_of_mem hLine
    rw [← hEq]
    exact hMarkers event hEvent
  · intro line hLine
    have hLe := h.maxLsn_le_iff.mp (Nat.le_refl _) _ (h.record_mem_log hLine)
    rw [Line.record_fst, Line.lsn_wellFormed] at hLe
    exact hLe.trans_lt hLsn

/-- Several files unlinked one after the other. -/
theorem foldl_unlink (doomed : List (Nat × Bytes)) (wal : CanonicalWal) :
    doomed.foldl unlink wal = { wal with
      files := wal.files.filter fun file => doomed.all fun other => file.1 ≠ other.1
      deletedMaxLsn := doomed.foldl (fun top file => max top (maxLsn (fileEvents file)))
        wal.deletedMaxLsn } := by
  induction doomed generalizing wal with
  | nil => simp
  | cons file rest ih =>
      rw [List.foldl_cons, ih, unlink]
      simp [List.filter_filter, Bool.and_comm]

theorem foldl_max_le_iff {doomed : List (Nat × Bytes)} {top bound : Nat} :
    doomed.foldl (fun top file => max top (maxLsn (fileEvents file))) top ≤ bound ↔
      top ≤ bound ∧ ∀ file ∈ doomed, maxLsn (fileEvents file) ≤ bound := by
  induction doomed generalizing top with
  | nil => simp
  | cons file rest ih =>
      rw [List.foldl_cons, ih]
      simp only [max_le_iff, List.mem_cons, forall_eq_or_imp, and_assoc]

/-- Unlinking files leaves the others as they were. -/
theorem Holds.unlink {wal : CanonicalWal} {segments : List Segment} (h : wal.Holds segments)
    (doomed : List (Nat × Bytes)) :
    (doomed.foldl CanonicalWal.unlink wal).Holds
      (segments.filter fun segment => doomed.all fun file => segment.generation ≠ file.1) := by
  rw [foldl_unlink]
  have hMem : ∀ {keep : Segment → Bool} {line : Line}, line ∈ (segments.filter keep).flatMap Segment.lines →
      line ∈ segments.flatMap Segment.lines := by
    intro keep line hLine
    obtain ⟨segment, hSegment, hLine⟩ := List.mem_flatMap.mp hLine
    exact List.mem_flatMap.mpr ⟨segment, (List.mem_filter.mp hSegment).1, hLine⟩
  exact {
    files := by
      rw [h.files, List.filter_map]
      rfl
    valid := fun segment hSegment => h.valid segment (List.mem_filter.mp hSegment).1
    answered := fun segment hSegment => h.answered segment (List.mem_filter.mp hSegment).1
    sorted := h.sorted.filter _
    ascending := h.ascending.sublist ((List.Sublist.flatMap List.filter_sublist _).filter _)
    initialized := h.initialized
    newest := fun segment hSegment => h.newest segment (List.mem_filter.mp hSegment).1
    markers := fun line hLine => h.markers line (hMem hLine)
    below := fun line hLine => h.below line (hMem hLine) }

end CanonicalWal

/-- The lines of a segment lie at most at the highest LSN of its file. -/
theorem Segment.lsn_le_maxLsn {segment : Segment} (h : segment.Valid) {line : Line}
    (hLine : line ∈ segment.lines) : line.lsn ≤ maxLsn (fileEvents segment.file) := by
  have hMap := stamp_map_record segment.generation (segment.lines.map Line.wellFormed)
  obtain ⟨event, hEvent, hRecord⟩ : ∃ event ∈ segment.events, event.record = line.wellFormed.record := by
    rw [← List.mem_map, Segment.events, hMap]
    exact List.mem_map_of_mem (List.mem_map_of_mem hLine)
  have hLsn := congrArg Prod.fst hRecord
  rw [CanonicalEvent.record_fst, Line.record_fst, Line.lsn_wellFormed] at hLsn
  rw [fileEvents_file h, ← hLsn]
  exact maxLsn_le_iff.mp (Nat.le_refl _) event hEvent

/-- If every file can be unlinked and none reaches above the floor, retention keeps
the newest generations and nothing else. -/
theorem CanonicalWal.Holds.filter_doomed {wal : CanonicalWal} {segments : List Segment}
    (h : wal.Holds segments) (keep : Nat) {floor : Nat}
    (hFloor : ∀ segment ∈ segments, maxLsn (fileEvents segment.file) ≤ floor) :
    (segments.filter fun segment => (wal.doomed keep floor fun _ => false).all fun file =>
      segment.generation ≠ file.1) = segments.filter fun segment => keep ≤ segment.generation := by
  refine List.filter_congr fun segment hSegment => ?_
  rw [Bool.eq_iff_iff]
  simp only [CanonicalWal.doomed, h.files, deletable, Bool.not_false, Bool.and_true, List.all_eq_true,
    List.mem_filter, List.mem_map, Bool.and_eq_true, decide_eq_true_eq, and_imp, forall_exists_index,
    forall_apply_eq_imp_iff₂, ne_eq]
  constructor
  · intro hAll
    by_contra hLess
    exact hAll segment hSegment (Nat.lt_of_not_le hLess) (hFloor segment hSegment) rfl
  · intro hKeep other _ hLess _ hSame
    have hGeneration : other.file.1 = other.generation := rfl
    omega

/-- The newest generations are the end of the log. -/
theorem Segment.log_filter_suffix {segments : List Segment} (keep : Nat)
    (h : segments.Pairwise fun a b => a.generation < b.generation) :
    Segment.log (segments.filter fun segment => keep ≤ segment.generation) <:+ Segment.log segments := by
  induction segments with
  | nil => exact List.suffix_refl _
  | cons segment rest ih =>
      obtain ⟨hHead, hRest⟩ := List.pairwise_cons.mp h
      have hCons : Segment.log (segment :: rest) = Segment.log [segment] ++ Segment.log rest :=
        Segment.log_append [segment] rest
      by_cases hKeep : keep ≤ segment.generation
      · have hAll : ((segment :: rest).filter fun segment => keep ≤ segment.generation) =
            segment :: rest := by
          rw [List.filter_eq_self]
          intro other hOther
          rcases List.mem_cons.mp hOther with rfl | hOther
          · simpa using hKeep
          · have := hHead other hOther
            simp only [decide_eq_true_eq]
            omega
        rw [hAll]
      · rw [List.filter_cons_of_neg (by simpa using hKeep), hCons]
        exact (ih hRest).trans (List.suffix_append _ _)

/-- Segments without an LSN above the floor are not seen above it. -/
theorem Stored.log_filter_above {files : List (Nat × Bytes)} {segments : List Segment}
    (h : Stored files segments) {keep : Segment → Bool} {floor : Nat}
    (hDropped : ∀ segment ∈ segments, keep segment = false → maxLsn (fileEvents segment.file) ≤ floor) :
    (Segment.log (segments.filter keep)).filter (fun r => floor < r.1) =
      (Segment.log segments).filter fun r => floor < r.1 := by
  have hValid := h.valid
  clear h
  induction segments with
  | nil => rfl
  | cons segment rest ih =>
      have hRest := ih (fun other hOther => hDropped other (by simp [hOther]))
        fun other hOther => hValid other (by simp [hOther])
      have hCons : ∀ tail, Segment.log (segment :: tail) =
          records (segment.lines.map Line.wellFormed) ++ Segment.log tail := by
        intro tail
        simpa [Segment.log] using Segment.log_append [segment] tail
      cases hKeep : keep segment with
      | true => rw [List.filter_cons_of_pos hKeep, hCons, hCons, List.filter_append, List.filter_append,
            hRest]
      | false =>
          have hNone : (records (segment.lines.map Line.wellFormed)).filter (fun r => floor < r.1) = [] := by
            rw [List.filter_eq_nil_iff]
            intro r hr
            obtain ⟨line, hFilter, rfl⟩ := List.mem_map.mp hr
            obtain ⟨line, hLine, rfl⟩ := List.mem_map.mp (List.mem_filter.mp hFilter).1
            have hLe := Segment.lsn_le_maxLsn (hValid segment (by simp)) hLine
            have hFloor := hDropped segment (by simp) hKeep
            simp only [Line.record_fst, Line.lsn_wellFormed, decide_eq_true_eq]
            omega
          rw [List.filter_cons_of_neg (by simp [hKeep]), hRest, hCons, List.filter_append, hNone,
            List.nil_append]

section Tombstones

variable {generation lsn : Nat} {lines : List Line} {segments : List Segment} {wal : CanonicalWal}
  {x : JsString}

theorem exists_tombstone_stamp_iff :
    (∃ generation', .tombstone lsn generation' x ∈ stamp generation lines) ↔ .tombstone lsn x ∈ lines := by
  induction lines generalizing generation with
  | nil => simp [stamp]
  | cons line rest ih => cases line <;> simp [stamp, Line.event, exists_or, ih]

/-- The tombstones that a read of the files finds are those that were appended. -/
theorem CanonicalWal.Holds.exists_tombstone_iff (h : wal.Holds segments) :
    (∃ generation, .tombstone lsn generation x ∈ wal.events) ↔
      .tombstone lsn x ∈ (segments.flatMap Segment.lines).map Line.wellFormed := by
  rw [CanonicalWal.events, h.events]
  simp only [List.mem_flatMap, Segment.events]
  constructor
  · rintro ⟨generation, segment, hSegment, hEvent⟩
    have hLine := exists_tombstone_stamp_iff.mp ⟨generation, hEvent⟩
    rw [List.map_flatMap, List.mem_flatMap]
    exact ⟨segment, hSegment, hLine⟩
  · intro hLine
    rw [List.map_flatMap, List.mem_flatMap] at hLine
    obtain ⟨segment, hSegment, hMem⟩ := hLine
    obtain ⟨generation, hEvent⟩ := exists_tombstone_stamp_iff.mpr hMem
    exact ⟨generation, segment, hSegment, hEvent⟩

end Tombstones

end TokenRevoker
