import TokenRevoker.Server.Coordinator
import TokenRevoker.Server.GenerationStamps

/-! What is appended to the canonical log is what is read from it. Beside the log with its
files goes the list of events that a caller of the log has in mind; after any appends and
any number of new processes a read returns a page of that list. -/
namespace TokenRevoker

open Text

namespace LogRoundTrip

/-- The log, and the entry that a tombstone would be for. -/
structure Session where
  wal : CanonicalWal
  lastEntry : Option (Nat × JsString) := none
  deriving DecidableEq

/-- The calls of the log. A tombstone goes to the last entry, as long as nothing was appended
after it; a rotation announces the next generation. -/
inductive Operation where
  | entry (item : JsString)
  | tombstone
  | rotate
  | restart (deletedMaxLsn : Nat)

/-- The item is accepted, and it is Unicode. -/
def Operation.Proper : Operation → Prop
  | .entry item => itemValidationError item = none ∧ IsWellFormed item
  | _ => True

namespace Session

/-- A new process: `scan`, then `init` above what it found. -/
def restart (s : Session) (deletedMaxLsn : Nat) : Session :=
  let scanned := s.wal.scan
  { s with wal := s.wal.init (scanned.maxLsn + 1) scanned.maxGeneration deletedMaxLsn }

def appendEntry (s : Session) (item : JsString) : Session :=
  match s.wal.appendEntry none item with
  | (wal, .error _) => { s with wal := wal }
  | (wal, .ok lsn) => ⟨wal, some (lsn, item)⟩

def appendTombstone (s : Session) : Session :=
  match s.lastEntry with
  | none => s
  | some (lsn, item) => { s with wal := (s.wal.appendTombstone none lsn item).1 }

def appendRotate (s : Session) : Session :=
  match s.wal.appendRotate none (s.wal.generation + 1) with
  | (wal, .error _) => { s with wal := wal }
  | (wal, .ok _) => ⟨wal, none⟩

def apply (s : Session) : Operation → Session
  | .entry item => s.appendEntry item
  | .tombstone => s.appendTombstone
  | .rotate => s.appendRotate
  | .restart deletedMaxLsn => s.restart deletedMaxLsn

def run (s : Session) (operations : List Operation) : Session := operations.foldl apply s

/-- The first process, in an empty directory. -/
def start (dir revokerId : String) (deletedMaxLsn : Nat) : Session :=
  restart { wal := { dir := dir, revokerId := revokerId } } deletedMaxLsn

end Session

/-- How many rotations were announced: the generation in force. -/
def rotations (events : List CanonicalEvent) : Nat :=
  events.countP fun event => match event with
    | .rotate _ _ => true
    | _ => false

/-- What a call adds to the events. Every append has the next LSN and the generation in force,
a rotation the one it announces; a new process adds nothing. -/
def journaled (events : List CanonicalEvent) : Operation → List CanonicalEvent
  | .entry item => events ++ [.entry (events.length + 1) (rotations events) item]
  | .tombstone =>
      match events.getLast? with
      | some (.entry lsn generation item) => events.dropLast ++ [.tombstone lsn generation item]
      | _ => events
  | .rotate => events ++ [.rotate (events.length + 1) (rotations events + 1)]
  | .restart _ => events

/-- The events of all calls. -/
def journal (operations : List Operation) : List CanonicalEvent := operations.foldl journaled []

end LogRoundTrip

namespace Segment

variable {generation : Nat} {lines : List Line} {segments : List Segment}

/-- Lines for the newest file, which has no marker yet, are read as the last events of the log. -/
theorem flatMap_events_push (h : ∀ segment ∈ segments, segment.generation ≤ generation)
    (hSorted : segments.Pairwise fun a b => a.generation < b.generation)
    (hUnmarked : ∀ segment ∈ segments, segment.generation = generation →
      ∀ lsn marker, Line.rotate lsn marker ∉ segment.lines) (lines : List Line) :
    (push generation lines segments).flatMap events =
      segments.flatMap events ++ stamp generation (lines.map Line.wellFormed) := by
  induction segments with
  | nil => simp [push, events]
  | cons head rest ih =>
      rw [push]
      split_ifs with hSame hLess
      · have hHead := rotate_notMem_map_wellFormed (hUnmarked head List.mem_cons_self hSame)
        rw [rest_eq_nil h hSorted hSame]
        simp only [List.flatMap_cons, List.flatMap_nil, List.append_nil, events, List.map_append, hSame]
        exact stamp_append hHead
      · have := h head List.mem_cons_self
        omega
      · rw [List.flatMap_cons, List.flatMap_cons, List.append_assoc,
          ih (fun segment hs => h segment (List.mem_cons_of_mem _ hs)) (List.pairwise_cons.mp hSorted).2
            fun segment hs => hUnmarked segment (List.mem_cons_of_mem _ hs)]

end Segment

/-- Files of whole lines, and none ahead of the current generation, whose file has no marker
yet. -/
structure CanonicalWal.Keeps (wal : CanonicalWal) (segments : List Segment) : Prop where
  files : wal.files = segments.map Segment.file
  valid : ∀ segment ∈ segments, segment.Valid
  sorted : segments.Pairwise fun a b => a.generation < b.generation
  newest : ∀ segment ∈ segments, segment.generation ≤ wal.generation
  unmarked : ∀ segment ∈ segments, segment.generation = wal.generation →
    ∀ lsn marker, Line.rotate lsn marker ∉ segment.lines
  markers : ∀ event ∈ wal.events, event.marker ≤ wal.generation
  initialized : wal.initialized = true

namespace CanonicalWal.Keeps

variable {wal : CanonicalWal} {segments : List Segment} {line : Line} {next : Nat}

theorem events_eq (h : wal.Keeps segments) : wal.events = segments.flatMap Segment.events := by
  rw [CanonicalWal.events, h.files]
  exact Segment.events_files h.valid

/-- A line at the end of the log is one more event. -/
theorem events_written (h : wal.Keeps segments) (hValid : line.Valid) (next generation : Nat) :
    (wal.written [line] next generation).events = wal.events ++ [line.wellFormed.event wal.generation] := by
  have hPushed : ∀ segment ∈ Segment.push wal.generation [line] segments, segment.Valid :=
    Segment.valid_push (by simpa using hValid) h.valid
  have hStamp : stamp wal.generation ([line].map Line.wellFormed) =
      [line.wellFormed.event wal.generation] := by
    cases line <;> rfl
  calc (wal.written [line] next generation).events
      = ((Segment.push wal.generation [line] segments).map Segment.file).flatMap fileEvents := by
        rw [CanonicalWal.events, CanonicalWal.written, h.files]
        exact congrArg (List.flatMap fileEvents) (Segment.appendFile_push wal.generation [line] segments)
    _ = wal.events ++ [line.wellFormed.event wal.generation] := by
        rw [Segment.events_files hPushed, Segment.flatMap_events_push h.newest h.sorted h.unmarked,
          h.events_eq, hStamp]

/-- An entry or a tombstone leaves the generation, and a marker starts the next one. -/
theorem written (h : wal.Keeps segments) (hValid : line.Valid) {generation : Nat}
    (hGeneration : generation = wal.generation ∧ (∀ lsn marker, line ≠ .rotate lsn marker) ∨
      generation = wal.generation + 1 ∧ line.marker ≤ generation) :
    (wal.written [line] next generation).Keeps (Segment.push wal.generation [line] segments) where
  files := by
    rw [CanonicalWal.written, h.files]
    exact Segment.appendFile_push wal.generation [line] segments
  valid := Segment.valid_push (by simpa using hValid) h.valid
  sorted := Segment.sorted_push h.sorted
  newest := by
    intro segment hSegment
    show segment.generation ≤ generation
    rcases Segment.generation_push hSegment with hEq | ⟨old, hOld, hEq⟩
    · omega
    · have := h.newest old hOld
      omega
  unmarked := by
    intro segment hSegment hSame
    rw [show (wal.written [line] next generation).generation = generation from rfl] at hSame
    rcases hGeneration with ⟨rfl, hLine⟩ | ⟨rfl, -⟩
    · intro lsn marker hMem
      rcases Segment.mem_push hSegment with hOld | rfl | ⟨old, hOld, hOldGeneration, rfl⟩
      · exact h.unmarked segment hOld hSame lsn marker hMem
      · exact hLine lsn marker (List.mem_singleton.mp hMem).symm
      · rcases List.mem_append.mp hMem with hBefore | hAfter
        · exact h.unmarked old hOld hOldGeneration lsn marker hBefore
        · exact hLine lsn marker (List.mem_singleton.mp hAfter).symm
    · rcases Segment.generation_push hSegment with hEq | ⟨old, hOld, hEq⟩
      · omega
      · have := h.newest old hOld
        omega
  markers := by
    rw [h.events_written hValid]
    intro event hEvent
    show event.marker ≤ generation
    rcases List.mem_append.mp hEvent with hOld | hNew
    · have := h.markers event hOld
      omega
    · rw [List.mem_singleton.mp hNew]
      rcases hGeneration with ⟨rfl, hLine⟩ | ⟨rfl, hMarker⟩
      · cases line with
        | entry | tombstone => exact Nat.zero_le _
        | rotate lsn marker => exact absurd rfl (hLine lsn marker)
      · cases line with
        | entry | tombstone => exact Nat.zero_le _
        | rotate lsn marker => exact hMarker
  initialized := h.initialized

end CanonicalWal.Keeps

namespace LogRoundTrip

/-- The item of the last event, if a tombstone may follow it. -/
def lastItem (events : List CanonicalEvent) : Option (Nat × JsString) :=
  match events.getLast? with
  | some (.entry lsn _ item) | some (.tombstone lsn _ item) => some (lsn, item)
  | _ => none

/-- The log is read as these events, and its counters go on from them. -/
structure Journaled (s : Session) (segments : List Segment) (events : List CanonicalEvent) : Prop where
  keeps : s.wal.Keeps segments
  ordered : KeyedLog.ordered CanonicalEvent.lsn s.wal.events = events
  lsns : events.map CanonicalEvent.lsn = List.range' 1 events.length
  next : s.wal.nextLsn = events.length + 1
  generation : s.wal.generation = rotations events
  lastEntry : s.lastEntry = lastItem events
  accepted : ∀ last ∈ s.lastEntry, Acceptable last.2 ∧ IsWellFormed last.2
  /-- The last event has the generation in force. -/
  current : ∀ event ∈ events.getLast?, event.generation = rotations events
  marked : rotations events = 0 ∨ ∃ lsn, .rotate lsn (rotations events) ∈ events

variable {s : Session} {segments : List Segment} {events : List CanonicalEvent} {event : CanonicalEvent}
  {line : Line} {item : JsString}

theorem rotations_concat (events : List CanonicalEvent) (event : CanonicalEvent) :
    rotations (events ++ [event]) = rotations events + (match event with
      | .rotate _ _ => 1
      | _ => 0) := by
  rw [rotations, List.countP_append, List.countP_singleton]
  cases event <;> rfl

theorem lastItem_concat (events : List CanonicalEvent) (event : CanonicalEvent) :
    lastItem (events ++ [event]) = (match event with
      | .entry lsn _ item | .tombstone lsn _ item => some (lsn, item)
      | .rotate _ _ => none) := by
  rw [lastItem, List.getLast?_concat]
  cases event <;> rfl

namespace Journaled

theorem lsn_le (h : Journaled s segments events) (hEvent : event ∈ events) :
    0 < event.lsn ∧ event.lsn ≤ events.length := by
  have hMem : event.lsn ∈ List.range' 1 events.length := by
    rw [← h.lsns]
    exact List.mem_map_of_mem hEvent
  rw [List.mem_range'_1] at hMem
  omega

/-- Every line that is read has the LSN of an event. -/
theorem lsn_le_of_mem (h : Journaled s segments events) (hEvent : event ∈ s.wal.events) :
    event.lsn ≤ events.length := by
  obtain ⟨last, hLast, hKey⟩ : ∃ last ∈ KeyedLog.latest CanonicalEvent.lsn s.wal.events,
      last.lsn = event.lsn := KeyedLog.exists_mem_latest hEvent
  rw [← KeyedLog.mem_ordered, h.ordered] at hLast
  rw [← hKey]
  exact (h.lsn_le hLast).2

theorem mem_of_mem (h : Journaled s segments events) (hEvent : event ∈ events) : event ∈ s.wal.events := by
  rw [← h.ordered] at hEvent
  exact KeyedLog.mem_of_mem_latest (KeyedLog.mem_ordered.mp hEvent)

/-- A new LSN is read behind all others. -/
theorem ordered_next (h : Journaled s segments events) (hLsn : event.lsn = events.length + 1) :
    KeyedLog.ordered CanonicalEvent.lsn (s.wal.events ++ [event]) = events ++ [event] := by
  have hBelow : events.filter (fun other => other.lsn < event.lsn) = events := by
    rw [List.filter_eq_self]
    intro other hOther
    have := (h.lsn_le hOther).2
    simp only [decide_eq_true_eq]
    omega
  have hMax : ∀ other ∈ s.wal.events, other.lsn ≤ event.lsn := by
    intro other hOther
    have := h.lsn_le_of_mem hOther
    omega
  rw [KeyedLog.ordered_append_singleton hMax, h.ordered, hBelow]

/-- A line for the last LSN is read in place of its event. -/
theorem ordered_again {front : List CanonicalEvent} {last : CanonicalEvent}
    (h : Journaled s segments (front ++ [last])) (hLsn : event.lsn = last.lsn) :
    KeyedLog.ordered CanonicalEvent.lsn (s.wal.events ++ [event]) = front ++ [event] := by
  have hLsns : front.map CanonicalEvent.lsn ++ [last.lsn] = List.range' 1 front.length ++ [1 + front.length] := by
    have hAll := h.lsns
    rw [List.map_append, List.length_append, ← List.range'_append_1] at hAll
    exact hAll
  obtain ⟨hFront, hLast⟩ := List.append_inj' hLsns rfl
  have hLastLsn : last.lsn = 1 + front.length := List.singleton_inj.mp hLast
  have hBelow : (front ++ [last]).filter (fun other => other.lsn < event.lsn) = front := by
    rw [List.filter_append, List.filter_eq_self.mpr, List.filter_cons_of_neg, List.filter_nil, List.append_nil]
    · simp [hLsn]
    · intro other hOther
      have hMem : other.lsn ∈ List.range' 1 front.length := hFront ▸ List.mem_map_of_mem hOther
      rw [List.mem_range'_1] at hMem
      simp only [decide_eq_true_eq]
      omega
  have hMax : ∀ other ∈ s.wal.events, other.lsn ≤ event.lsn := by
    intro other hOther
    have hLe := h.lsn_le_of_mem hOther
    rw [List.length_append, List.length_singleton] at hLe
    omega
  rw [KeyedLog.ordered_append_singleton hMax, h.ordered, hBelow]

/-- A scan finds the counters as they are. -/
theorem scan_eq (h : Journaled s segments events) :
    s.wal.scan.maxLsn + 1 = s.wal.nextLsn ∧ s.wal.scan.maxGeneration = s.wal.generation := by
  constructor
  · have hLe : s.wal.scan.maxLsn ≤ events.length :=
      maxLsn_le_iff.mpr fun event hEvent => h.lsn_le_of_mem hEvent
    have hGe : events.length ≤ s.wal.scan.maxLsn := by
      cases hLength : events.length with
      | zero => exact Nat.zero_le _
      | succ length =>
          have hMem : events.length ∈ events.map CanonicalEvent.lsn := by
            rw [h.lsns, List.mem_range'_1]
            omega
          obtain ⟨event, hEvent, hLsn⟩ := List.mem_map.mp hMem
          rw [← hLength, ← hLsn]
          exact maxLsn_le_iff.mp (Nat.le_refl _) event (h.mem_of_mem hEvent)
    rw [h.next]
    omega
  · refine Nat.le_antisymm (CanonicalWal.scan_maxGeneration_le_iff.mpr ⟨?_, h.keeps.markers⟩) ?_
    · intro file hFile
      rw [h.keeps.files] at hFile
      obtain ⟨segment, hSegment, rfl⟩ := List.mem_map.mp hFile
      exact h.keeps.newest segment hSegment
    · rw [h.generation]
      rcases h.marked with hZero | ⟨lsn, hMarker⟩
      · omega
      · exact (CanonicalWal.scan_maxGeneration_le_iff.mp (Nat.le_refl _)).2 _ (h.mem_of_mem hMarker)

theorem restart (h : Journaled s segments events) (deletedMaxLsn : Nat) :
    Journaled (s.restart deletedMaxLsn) segments events := by
  obtain ⟨hLsn, hGeneration⟩ := h.scan_eq
  have hRestart : s.restart deletedMaxLsn =
      { s with wal := s.wal.init s.wal.nextLsn s.wal.generation deletedMaxLsn } := by
    rw [Session.restart, hLsn, hGeneration]
  rw [hRestart]
  exact { h with keeps := { h.keeps with initialized := rfl } }

theorem lsns_concat (h : Journaled s segments events) (hLsn : event.lsn = events.length + 1) :
    (events ++ [event]).map CanonicalEvent.lsn = List.range' 1 (events ++ [event]).length := by
  rw [List.map_append, List.length_append, List.map_singleton, List.length_singleton, h.lsns, hLsn,
    ← List.range'_append_1, Nat.add_comm 1 events.length]
  rfl

/-- An entry: the next LSN, in the generation in force. -/
theorem entry (h : Journaled s segments events) (hItem : Acceptable item) (hWellFormed : IsWellFormed item) :
    ∃ segments', Journaled (s.appendEntry item) segments'
      (events ++ [.entry (events.length + 1) (rotations events) item]) := by
  have hValid : (Line.entry s.wal.nextLsn item).Valid := ⟨by rw [h.next]; exact Nat.succ_pos _, hItem⟩
  have hEvent : (Line.entry s.wal.nextLsn item).wellFormed.event s.wal.generation =
      .entry (events.length + 1) (rotations events) item := by
    rw [Line.wellFormed, hWellFormed, h.next, h.generation]
    rfl
  have hSame : rotations (events ++ [.entry (events.length + 1) (rotations events) item]) = rotations events :=
    rotations_concat events _
  rw [Session.appendEntry, CanonicalWal.appendEntry_ok h.keeps.initialized]
  exact ⟨_, {
    keeps := h.keeps.written hValid (Or.inl ⟨rfl, by simp⟩)
    ordered := by
      rw [h.keeps.events_written hValid, hEvent]
      exact h.ordered_next rfl
    lsns := h.lsns_concat rfl
    next := by
      rw [List.length_append, List.length_singleton, ← h.next]
      rfl
    generation := hSame.symm ▸ h.generation
    lastEntry := by rw [lastItem_concat, h.next]
    accepted := by
      intro last hLast
      cases hLast
      exact ⟨hItem, hWellFormed⟩
    current := by
      intro event hLast
      rw [List.getLast?_concat] at hLast
      cases hLast
      exact hSame.symm
    marked := by
      rw [hSame]
      rcases h.marked with hNone | ⟨lsn, hMarker⟩
      · exact Or.inl hNone
      · exact Or.inr ⟨lsn, List.mem_append_left _ hMarker⟩ }⟩

/-- A marker: the next LSN, and the generation that follows. -/
theorem rotate (h : Journaled s segments events) : ∃ segments', Journaled s.appendRotate segments'
    (events ++ [.rotate (events.length + 1) (rotations events + 1)]) := by
  have hValid : (Line.rotate s.wal.nextLsn (s.wal.generation + 1)).Valid := by
    rw [h.next]
    exact Nat.succ_pos _
  have hEvent : (Line.rotate s.wal.nextLsn (s.wal.generation + 1)).wellFormed.event s.wal.generation =
      .rotate (events.length + 1) (rotations events + 1) := by
    rw [h.next, h.generation]
    rfl
  have hNext : rotations (events ++ [.rotate (events.length + 1) (rotations events + 1)]) =
      rotations events + 1 := rotations_concat events _
  rw [Session.appendRotate, CanonicalWal.appendRotate_ok h.keeps.initialized]
  exact ⟨_, {
    keeps := h.keeps.written hValid (Or.inr ⟨rfl, Nat.le_refl _⟩)
    ordered := by
      rw [h.keeps.events_written hValid, hEvent]
      exact h.ordered_next rfl
    lsns := h.lsns_concat rfl
    next := by
      rw [List.length_append, List.length_singleton, ← h.next]
      rfl
    generation := by
      rw [hNext, ← h.generation]
      rfl
    lastEntry := by
      rw [lastItem_concat]
    accepted := by
      intro last hLast
      cases hLast
    current := by
      intro event hLast
      rw [List.getLast?_concat] at hLast
      cases hLast
      exact hNext.symm
    marked := by
      rw [hNext]
      exact Or.inr ⟨events.length + 1, List.mem_append_right _ List.mem_cons_self⟩ }⟩

/-- A tombstone takes the place of the last event. -/
theorem tombstoned {front : List CanonicalEvent} {last : CanonicalEvent} {lsn generation : Nat}
    (h : Journaled s segments (front ++ [last]))
    (hLast : last = .entry lsn generation item ∨ last = .tombstone lsn generation item) :
    ∃ segments', Journaled s.appendTombstone segments' (front ++ [.tombstone lsn generation item]) := by
  have hEntry : s.lastEntry = some (lsn, item) := by
    rw [h.lastEntry, lastItem_concat]
    rcases hLast with rfl | rfl <;> rfl
  obtain ⟨hItem, hWellFormed⟩ := h.accepted (lsn, item) hEntry
  have hLsn : last.lsn = lsn := by rcases hLast with rfl | rfl <;> rfl
  have hCurrent : generation = rotations (front ++ [last]) := by
    rw [← h.current last (by rw [List.getLast?_concat]; rfl)]
    rcases hLast with rfl | rfl <;> rfl
  have hSame : rotations (front ++ [.tombstone lsn generation item]) = rotations (front ++ [last]) := by
    rw [rotations_concat, rotations_concat]
    rcases hLast with rfl | rfl <;> rfl
  have hValid : (Line.tombstone lsn item).Valid := by
    refine ⟨?_, hItem⟩
    rw [← hLsn]
    exact (h.lsn_le (List.mem_append_right _ List.mem_cons_self)).1
  have hEvent : (Line.tombstone lsn item).wellFormed.event s.wal.generation =
      .tombstone lsn generation item := by
    rw [Line.wellFormed, hWellFormed, h.generation, hCurrent]
    rfl
  rw [Session.appendTombstone, hEntry]
  dsimp only
  rw [CanonicalWal.appendTombstone_ok h.keeps.initialized]
  exact ⟨_, {
    keeps := h.keeps.written hValid (Or.inl ⟨rfl, by simp⟩)
    ordered := by
      rw [h.keeps.events_written hValid, hEvent]
      exact h.ordered_again hLsn.symm
    lsns := by
      have hLsns := h.lsns
      rw [List.map_append, List.length_append, List.map_singleton, hLsn] at hLsns
      rw [List.map_append, List.length_append, List.map_singleton]
      exact hLsns
    next := by
      rw [List.length_append, List.length_singleton]
      have hNext := h.next
      rw [List.length_append, List.length_singleton] at hNext
      exact hNext
    generation := hSame.symm ▸ h.generation
    lastEntry := by rw [lastItem_concat]
    accepted := hEntry ▸ h.accepted
    current := by
      intro event hEvent
      rw [List.getLast?_concat] at hEvent
      cases hEvent
      rw [hSame, ← hCurrent]
      rfl
    marked := by
      rw [hSame]
      rcases h.marked with hNone | ⟨lsn', hMarker⟩
      · exact Or.inl hNone
      refine Or.inr ⟨lsn', ?_⟩
      rcases List.mem_append.mp hMarker with hOld | hNew
      · exact List.mem_append_left _ hOld
      · rw [← List.mem_singleton.mp hNew] at hLast
        rcases hLast with hLast | hLast <;> cases hLast }⟩

/-- A tombstone without an entry before it adds nothing. -/
theorem tombstone (h : Journaled s segments events) :
    ∃ segments', Journaled s.appendTombstone segments' (journaled events .tombstone) := by
  cases hLast : events.getLast? with
  | none =>
      have hNone : s.lastEntry = none := by rw [h.lastEntry, lastItem, hLast]
      rw [Session.appendTombstone, hNone, journaled, hLast]
      exact ⟨segments, h⟩
  | some last =>
      have hSplit : events = events.dropLast ++ [last] := (List.dropLast_append_getLast? last hLast).symm
      cases last with
      | entry lsn generation item =>
          rw [journaled, hLast]
          rw [hSplit] at h
          exact h.tombstoned (Or.inl rfl)
      | tombstone lsn generation item =>
          rw [journaled, hLast]
          rw [hSplit] at h ⊢
          exact h.tombstoned (Or.inr rfl)
      | rotate lsn generation =>
          have hNone : s.lastEntry = none := by rw [h.lastEntry, lastItem, hLast]
          rw [Session.appendTombstone, hNone, journaled, hLast]
          exact ⟨segments, h⟩

/-- Every call adds to the log what it adds to the events. -/
theorem apply (h : Journaled s segments events) {operation : Operation} (hProper : operation.Proper) :
    ∃ segments', Journaled (s.apply operation) segments' (journaled events operation) := by
  cases operation with
  | entry item => exact h.entry (itemValidationError_eq_none_iff.mp hProper.1) hProper.2
  | tombstone => exact h.tombstone
  | rotate => exact h.rotate
  | restart deletedMaxLsn => exact ⟨segments, h.restart deletedMaxLsn⟩

theorem run (h : Journaled s segments events) {operations : List Operation}
    (hProper : ∀ operation ∈ operations, operation.Proper) :
    ∃ segments', Journaled (s.run operations) segments' (operations.foldl journaled events) := by
  induction operations generalizing s segments events with
  | nil => exact ⟨segments, h⟩
  | cons operation rest ih =>
      obtain ⟨segments', hNext⟩ := h.apply (hProper operation List.mem_cons_self)
      exact ih hNext fun other hOther => hProper other (List.mem_cons_of_mem _ hOther)

theorem readSince (h : Journaled s segments events) (fromLsn maxEvents : Nat) :
    s.wal.readSince fromLsn maxEvents =
      .ok (page maxEvents (events.filter fun event => fromLsn < event.lsn)) := by
  rw [CanonicalWal.readSince_eq h.keeps.initialized, KeyedLog.ordered_filter, h.ordered]

end Journaled

theorem journaled_start (dir revokerId : String) (deletedMaxLsn : Nat) :
    Journaled (Session.start dir revokerId deletedMaxLsn) [] [] where
  keeps := ⟨rfl, by simp, List.Pairwise.nil, by simp, by simp, by simp [CanonicalWal.events, Session.start,
    Session.restart, CanonicalWal.init], rfl⟩
  ordered := by simp [KeyedLog.ordered, KeyedLog.latest, CanonicalWal.events, Session.start, Session.restart,
    CanonicalWal.init]
  lsns := rfl
  next := rfl
  generation := rfl
  lastEntry := rfl
  accepted := by simp [Session.start, Session.restart]
  current := by simp
  marked := Or.inl rfl

/-- After any calls, with items that are accepted and are Unicode, and any number of new
processes between them, a read returns the first events above the LSN it is asked for: one
for each LSN, in order, as they were appended. -/
theorem readSince_journal (dir revokerId : String) (deletedMaxLsn : Nat) {operations : List Operation}
    (hProper : ∀ operation ∈ operations, operation.Proper) (fromLsn : Nat) {maxEvents : Nat}
    (hMax : 0 < maxEvents) :
    ((Session.start dir revokerId deletedMaxLsn).run operations).wal.readSince fromLsn maxEvents =
        .ok (((journal operations).filter fun event => fromLsn < event.lsn).take maxEvents) ∧
      (journal operations).map CanonicalEvent.lsn = List.range' 1 (journal operations).length := by
  obtain ⟨segments, h⟩ := (journaled_start dir revokerId deletedMaxLsn).run hProper
  refine ⟨?_, h.lsns⟩
  rw [h.readSince, page, if_pos hMax]
  rfl

/-- An item that reads like a marker gets its tombstone from a new process, and an item of
separators is appended after a rotation. -/
def lineLike : List Operation :=
  [.entry [0x32, 0x3A, 0x52, 0x3A, 0x35], .restart 0, .tombstone, .rotate, .restart 0, .entry [0x3A, 0x09, 0x3A]]

theorem readSince_journal_lineLike :
    ((Session.start "canonical" "r" 0).run lineLike).wal.readSince 0 3 =
      .ok [.tombstone 1 0 [0x32, 0x3A, 0x52, 0x3A, 0x35], .rotate 2 1, .entry 3 1 [0x3A, 0x09, 0x3A]] := by
  have hProper : ∀ operation ∈ lineLike, operation.Proper := by
    intro operation hOperation
    simp only [lineLike, List.mem_cons, List.not_mem_nil, or_false] at hOperation
    rcases hOperation with rfl | rfl | rfl | rfl | rfl | rfl
    · exact ⟨by decide +kernel, by unfold IsWellFormed; decide +kernel⟩
    · trivial
    · trivial
    · trivial
    · trivial
    · exact ⟨by decide +kernel, by unfold IsWellFormed; decide +kernel⟩
  exact (readSince_journal "canonical" "r" 0 hProper 0 (show 0 < 3 by decide)).1

end LogRoundTrip

end TokenRevoker
