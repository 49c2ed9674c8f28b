import TokenRevoker.Server.CanonicalLog

/-! The log says nothing about the generation of an entry: a read gives it that of its file,
or of the last marker before it in the file. It is the number of markers up to its LSN. -/
namespace TokenRevoker

open Text

def CanonicalEvent.generation : CanonicalEvent → Nat
  | .entry _ generation _ | .tombstone _ generation _ | .rotate _ generation => generation

/-- The generations that the markers of a log start, in order. -/
def markersOf (history : List LogRecord) : List Nat :=
  history.filterMap fun r =>
    match r.2 with
    | .entry _ => none
    | .rotate generation => some generation

theorem markersOf_append (history more : List LogRecord) :
    markersOf (history ++ more) = markersOf history ++ markersOf more :=
  List.filterMap_append

theorem markersOf_eq_nil_iff {history : List LogRecord} :
    markersOf history = [] ↔ ∀ r ∈ history, ∀ generation, r.2 ≠ .rotate generation := by
  rw [markersOf, List.filterMap_eq_nil_iff]
  refine forall₂_congr fun r _ => ?_
  cases r.2 <;> simp

/-- How many markers stand up to an LSN. -/
def generationAt (history : List LogRecord) (lsn : Nat) : Nat :=
  (markersOf (history.filter fun r => r.1 ≤ lsn)).length

theorem generationAt_append_of_lt {history : List LogRecord} {r : LogRecord} {lsn : Nat} (h : lsn < r.1) :
    generationAt (history ++ [r]) lsn = generationAt history lsn := by
  have hNone : [r].filter (fun r => r.1 ≤ lsn) = [] := by
    simp only [List.filter_singleton, decide_eq_false (Nat.not_le.mpr h), cond_false]
  rw [generationAt, List.filter_append, hNone, List.append_nil, generationAt]

theorem generationAt_of_le {history : List LogRecord} {lsn : Nat} (h : ∀ r ∈ history, r.1 ≤ lsn) :
    generationAt history lsn = (markersOf history).length := by
  rw [generationAt, List.filter_eq_self.mpr fun r hr => decide_eq_true (h r hr)]

theorem stamp_append {generation : Nat} {lines more : List Line}
    (h : ∀ lsn marker, Line.rotate lsn marker ∉ lines) :
    stamp generation (lines ++ more) = stamp generation lines ++ stamp generation more := by
  induction lines with
  | nil => rfl
  | cons line rest ih =>
      have hRest := ih fun lsn marker hMem => h lsn marker (List.mem_cons_of_mem _ hMem)
      cases line with
      | entry | tombstone => simp [stamp, hRest]
      | rotate lsn marker => exact absurd List.mem_cons_self (h lsn marker)

/-- Every event of a file stands in one of its lines. -/
theorem exists_line_of_stamp {generation : Nat} {lines : List Line} {event : CanonicalEvent}
    (h : event ∈ stamp generation lines) : ∃ line ∈ lines, line.lsn = event.lsn := by
  have hMem : event.record ∈ lines.map Line.record := by
    rw [← stamp_map_record generation]
    exact List.mem_map_of_mem h
  obtain ⟨line, hLine, hRecord⟩ := List.mem_map.mp hMem
  refine ⟨line, hLine, ?_⟩
  rw [← Line.record_fst, hRecord, CanonicalEvent.record_fst]

theorem rotate_notMem_map_wellFormed {lines : List Line} (h : ∀ lsn marker, Line.rotate lsn marker ∉ lines) :
    ∀ lsn marker, Line.rotate lsn marker ∉ lines.map Line.wellFormed := by
  intro lsn marker hMem
  obtain ⟨line, hLine, hEq⟩ := List.mem_map.mp hMem
  cases line with
  | entry | tombstone => cases hEq
  | rotate lsn' marker' => exact h lsn' marker' hLine

/-- The files give every event its generation, and the file of the current generation has
no marker yet. -/
structure Stamped (segments : List Segment) (generation : Nat) (history : List LogRecord) : Prop where
  events : ∀ segment ∈ segments, ∀ event ∈ segment.events,
    event.generation = generationAt history event.lsn
  unmarked : ∀ segment ∈ segments, segment.generation = generation →
    ∀ lsn marker, Line.rotate lsn marker ∉ segment.lines

namespace Stamped

variable {segments : List Segment} {generation : Nat} {history : List LogRecord} {r : LogRecord}
  {lines : List Line}

theorem nil (generation : Nat) (history : List LogRecord) : Stamped [] generation history :=
  ⟨by simp, by simp⟩

theorem filter (h : Stamped segments generation history) (keep : Segment → Bool) :
    Stamped (segments.filter keep) generation history where
  events := fun segment hSegment => h.events segment (List.mem_filter.mp hSegment).1
  unmarked := fun segment hSegment => h.unmarked segment (List.mem_filter.mp hSegment).1

/-- Lines of one new LSN at the end of the newest file. -/
theorem events_push (h : Stamped segments generation history)
    (hBelow : ∀ line ∈ segments.flatMap Segment.lines, line.lsn < r.1)
    (hLines : ∀ line ∈ lines, line.lsn = r.1)
    (hStamp : ∀ event ∈ stamp generation (lines.map Line.wellFormed),
      event.generation = generationAt (history ++ [r]) r.1) :
    ∀ segment ∈ Segment.push generation lines segments, ∀ event ∈ segment.events,
      event.generation = generationAt (history ++ [r]) event.lsn := by
  have hOldEvents : ∀ segment ∈ segments, ∀ event ∈ segment.events,
      event.generation = generationAt (history ++ [r]) event.lsn := by
    intro segment hSegment event hEvent
    obtain ⟨line, hLine, hLsn⟩ := exists_line_of_stamp hEvent
    obtain ⟨line, hMem, rfl⟩ := List.mem_map.mp hLine
    rw [Line.lsn_wellFormed] at hLsn
    have hLt := hBelow line (List.mem_flatMap.mpr ⟨segment, hSegment, hMem⟩)
    rw [generationAt_append_of_lt (hLsn ▸ hLt)]
    exact h.events segment hSegment event hEvent
  have hNewEvents : ∀ event ∈ stamp generation (lines.map Line.wellFormed),
      event.generation = generationAt (history ++ [r]) event.lsn := by
    intro event hEvent
    obtain ⟨line, hLine, hLsn⟩ := exists_line_of_stamp hEvent
    obtain ⟨line, hMem, rfl⟩ := List.mem_map.mp hLine
    rw [Line.lsn_wellFormed, hLines line hMem] at hLsn
    rw [← hLsn]
    exact hStamp event hEvent
  intro segment hSegment event hEvent
  rcases Segment.mem_push hSegment with hOld | rfl | ⟨old, hOld, hGeneration, rfl⟩
  · exact hOldEvents segment hOld event hEvent
  · exact hNewEvents event hEvent
  · have hUnmarked := rotate_notMem_map_wellFormed (h.unmarked old hOld hGeneration)
    rw [Segment.events, List.map_append, stamp_append hUnmarked] at hEvent
    rcases List.mem_append.mp hEvent with hBefore | hAfter
    · refine hOldEvents old hOld event ?_
      rw [Segment.events, hGeneration]
      exact hBefore
    · exact hNewEvents event hAfter

/-- An entry, with or without its tombstone. -/
theorem entry (h : Stamped segments generation history)
    (hBelow : ∀ line ∈ segments.flatMap Segment.lines, line.lsn < r.1)
    (hLines : ∀ line ∈ lines, line.lsn = r.1) (hUnmarked : ∀ lsn marker, Line.rotate lsn marker ∉ lines)
    (hStamp : ∀ event ∈ stamp generation (lines.map Line.wellFormed),
      event.generation = generationAt (history ++ [r]) r.1) :
    Stamped (Segment.push generation lines segments) generation (history ++ [r]) where
  events := h.events_push hBelow hLines hStamp
  unmarked := by
    intro segment hSegment hGeneration lsn marker hMem
    rcases Segment.mem_push hSegment with hOld | rfl | ⟨old, hOld, hOldGeneration, rfl⟩
    · exact h.unmarked segment hOld hGeneration lsn marker hMem
    · exact hUnmarked lsn marker hMem
    · rcases List.mem_append.mp hMem with hBefore | hAfter
      · exact h.unmarked old hOld hOldGeneration lsn marker hBefore
      · exact hUnmarked lsn marker hAfter

/-- A marker, after which the next file is the current one. -/
theorem marker (h : Stamped segments generation history)
    (hNewest : ∀ segment ∈ segments, segment.generation ≤ generation)
    (hBelow : ∀ line ∈ segments.flatMap Segment.lines, line.lsn < r.1)
    (hLines : ∀ line ∈ lines, line.lsn = r.1)
    (hStamp : ∀ event ∈ stamp generation (lines.map Line.wellFormed),
      event.generation = generationAt (history ++ [r]) r.1) :
    Stamped (Segment.push generation lines segments) (generation + 1) (history ++ [r]) where
  events := h.events_push hBelow hLines hStamp
  unmarked := by
    intro segment hSegment hGeneration
    rcases Segment.generation_push hSegment with hEq | ⟨old, hOld, hEq⟩
    · omega
    · have := hNewest old hOld
      omega

end Stamped

end TokenRevoker
