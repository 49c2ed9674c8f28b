import TokenRevoker.Server.CanonicalLog
import TokenRevoker.Server.TornLine

/-! A coordinator crash that cuts an append off. The next append continues the
line that the crash left, so the first event after the restart is read as part of
a damaged line, although its append returned. -/
namespace TokenRevoker

open Text

namespace Line

variable {lsn generation : Nat} {item : JsString} {q : JsString} {line : Line}

/-- A proper prefix of an entry line, alone in its line, is passed over. -/
theorem parseLine_prefix (h : q <+: (entry lsn item).text) (hProper : q ≠ (entry lsn item).text) :
    parseLine generation q = none := by
  have hItemText : q <+: itemText 0x45 lsn item := h
  have hShorter : (q ++ []).length ≠ (itemText 0x45 lsn item).length := by
    rw [List.append_nil]
    exact fun hLength => hProper (h.eq_of_length hLength)
  rw [← List.append_nil q]
  exact parseLine_cut (Or.inl rfl) hItemText (by simp) hShorter

/-- An item that starts before the line's own item is longer than it. -/
theorem record_ne_of_longer {event : CanonicalEvent} {text u : JsString}
    (hText : text = u ++ line.wellFormed.payload) (hu : u ≠ [])
    (hRead : event = .entry event.lsn generation text ∨ event = .tombstone event.lsn generation text) :
    event.record ≠ line.record := by
  intro hRecord
  have hLength : 0 < u.length := List.length_pos_iff.mpr hu
  cases line with
  | entry lsn' item' | tombstone lsn' item' =>
      have hItem : text = item' := by
        rcases hRead with hRead | hRead <;> rw [hRead] at hRecord <;>
          simpa [CanonicalEvent.record, Line.record] using (Prod.ext_iff.mp hRecord).2
      have hLengths := congrArg List.length hText
      simp only [hItem, Line.wellFormed, Line.payload, List.length_append, List.length_cons,
        length_toWellFormed] at hLengths
      omega
  | rotate lsn' marker =>
      rcases hRead with hRead | hRead <;> rw [hRead] at hRecord <;>
        simp [CanonicalEvent.record, Line.record] at hRecord

/-- A field that ends in a number is no type. -/
theorem append_decimal_ne_singleton {u : JsString} (hu : u = [] ∨ u = [0x45]) {c : UInt16}
    (hc : isDigit c = false) : u ++ decimal lsn ≠ [c] := by
  intro hEq
  rcases hu with rfl | rfl
  · have hDigit : isDigit c = true := by
      refine isDigit_of_mem_decimal (n := lsn) ?_
      rw [List.nil_append] at hEq
      rw [hEq]
      exact List.mem_cons_self
    rw [hc] at hDigit
    cases hDigit
  · have hLength := congrArg List.length hEq
    have hPos := List.length_pos_iff.mpr (decimal_ne_nil lsn)
    simp only [List.length_append, List.length_cons, List.length_nil] at hLength
    omega

/-- A line that continues such a prefix is not read as what it says. -/
theorem parseLine_prefix_append (hLsn : 0 < lsn) (hne : q ≠ []) (h : q <+: (entry lsn item).text)
    (hSame : line.lsn = lsn) {event : CanonicalEvent}
    (hEvent : parseLine generation (q ++ line.wellFormed.text) = some event) :
    event.record ≠ line.record := by
  obtain ⟨lsnText, type, payload, hLine, hLsnText, hType, hNumber, hFields⟩ := parseLine_eq_some hEvent
  have hText : line.wellFormed.text =
      decimal lsn ++ colon :: ([line.wellFormed.type] ++ colon :: line.wellFormed.payload) := by
    rw [Line.text, Line.lsn_wellFormed, hSame]
    rfl
  have hTypeColon : colon ∉ [line.wellFormed.type] := by
    rcases line.wellFormed.type_eq with h | h | h <;> rw [h] <;> decide
  have hItemText : q <+: itemText 0x45 lsn item := h
  rcases prefix_itemText_cases hItemText with hDigits | ⟨u, rfl, hu⟩ | ⟨u, rfl, hu⟩ | ⟨u, rfl, -⟩
  · -- The digits run into those of the line's own LSN.
    have hColon : colon ∉ q ++ decimal lsn := by
      rw [List.mem_append, not_or]
      exact ⟨fun hMem => colon_not_mem_decimal _ (hDigits.subset hMem), colon_not_mem_decimal _⟩
    rw [hText, ← List.append_assoc] at hLine
    obtain ⟨rfl, -⟩ := append_separator_inj hColon hLsnText hLine
    have hValue : digitsValue (q ++ decimal lsn) 0 = event.lsn := by
      rw [numberOf] at hNumber
      split_ifs at hNumber
      exact Option.some.inj hNumber
    have hLarger := lt_digitsValue_append (digitsValue_prefix_pos hLsn hDigits hne) lsn
    intro hRecord
    have hFst := congrArg Prod.fst hRecord
    rw [CanonicalEvent.record_fst, Line.record_fst] at hFst
    omega
  · -- The type is no type any more.
    have hColon : colon ∉ u ++ decimal lsn := by
      rw [List.mem_append, not_or]
      refine ⟨?_, colon_not_mem_decimal _⟩
      rcases hu with rfl | rfl <;> decide
    have hJoined : (decimal lsn ++ colon :: u) ++ line.wellFormed.text =
        decimal lsn ++ colon :: ((u ++ decimal lsn) ++
          colon :: ([line.wellFormed.type] ++ colon :: line.wellFormed.payload)) := by
      rw [hText]
      simp
    rw [hJoined] at hLine
    obtain ⟨-, hRest⟩ := append_separator_inj (colon_not_mem_decimal _) hLsnText hLine
    obtain ⟨rfl, -⟩ := append_separator_inj hColon hType hRest
    have hNoType : ∀ c : UInt16, isDigit c = false → u ++ decimal lsn ≠ [c] :=
      fun c hc => append_decimal_ne_singleton hu hc
    exfalso
    rcases hFields with ⟨hRotate, -⟩ | ⟨hEntry | hTombstone, -⟩
    · exact hNoType _ (by decide) hRotate
    · exact hNoType _ (by decide) hEntry
    · exact hNoType _ (by decide) hTombstone
  · -- The length runs into the LSN, and the rest of the line is read as the item.
    have hColon : colon ∉ u ++ decimal lsn := by
      rw [List.mem_append, not_or]
      exact ⟨fun hMem => colon_not_mem_decimal _ (hu.subset hMem), colon_not_mem_decimal _⟩
    have hJoined : (decimal lsn ++ colon :: ([0x45] ++ colon :: u)) ++ line.wellFormed.text =
        decimal lsn ++ colon :: ([0x45] ++ colon :: ((u ++ decimal lsn) ++
          colon :: ([line.wellFormed.type] ++ colon :: line.wellFormed.payload))) := by
      rw [hText]
      simp
    rw [hJoined] at hLine
    obtain ⟨-, hRest⟩ := append_separator_inj (colon_not_mem_decimal _) hLsnText hLine
    obtain ⟨rfl, rfl⟩ := append_separator_inj (by decide) hType hRest
    rcases hFields with ⟨hRotate, -⟩ | ⟨-, lenText, text, hItem, hLenText, -, hRead⟩
    · exact absurd hRotate (by decide)
    obtain ⟨-, rfl⟩ := append_separator_inj hColon hLenText hItem
    exact record_ne_of_longer (u := [line.wellFormed.type, colon]) (by simp) (by simp) hRead
  · -- The line is read as the end of the item that was cut off.
    have hJoined : (decimal lsn ++ colon :: ([0x45] ++ colon :: (decimal item.length ++ colon :: u))) ++
        line.wellFormed.text = decimal lsn ++ colon :: ([0x45] ++ colon :: (decimal item.length ++
          colon :: (u ++ line.wellFormed.text))) := by
      simp
    rw [hJoined] at hLine
    obtain ⟨-, hRest⟩ := append_separator_inj (colon_not_mem_decimal _) hLsnText hLine
    obtain ⟨rfl, rfl⟩ := append_separator_inj (by decide) hType hRest
    rcases hFields with ⟨hRotate, -⟩ | ⟨-, lenText, text, hItem, hLenText, -, hRead⟩
    · exact absurd hRotate (by decide)
    obtain ⟨-, rfl⟩ := append_separator_inj (colon_not_mem_decimal _) hLenText hItem
    exact record_ne_of_longer (u := u ++ decimal lsn ++ colon :: ([line.wellFormed.type] ++ [colon]))
      (by rw [hText]; simp) (by simp) hRead

end Line

namespace TornTail

/-- A log in use: its last entry while it can still get a tombstone, and the
LSN and payload of every append that returned. -/
structure Session where
  wal : CanonicalWal
  lastEntry : Option (Nat × JsString) := none
  returned : List LogRecord := []
  deriving DecidableEq

/-- What the coordinator does with its log. A rotation never lowers the generation. -/
inductive Operation where
  | entry (item : JsString)
  | tombstone
  | rotate (advance : Nat)
  | restart

namespace Operation

/-- The coordinator has accepted the item. -/
def Accepted : Operation → Prop
  | .entry item => Acceptable item
  | _ => True

def WellFormed : Operation → Prop
  | .entry item => IsWellFormed item
  | _ => True

/-- The operation appends an event with an LSN of its own. -/
def Assigns : Operation → Prop
  | .entry _ | .rotate _ => True
  | _ => False

end Operation

namespace Session

/-- A new process: `scan`, then `init` above what it found. -/
def restart (s : Session) : Session :=
  let scanned := s.wal.scan
  { s with wal := s.wal.init (scanned.maxLsn + 1) scanned.maxGeneration 0, lastEntry := none }

def appendEntry (s : Session) (item : JsString) : Session :=
  match s.wal.appendEntry none item with
  | (wal, .error _) => { s with wal := wal, lastEntry := none }
  | (wal, .ok lsn) => ⟨wal, some (lsn, item), s.returned ++ [(lsn, .entry item)]⟩

def appendTombstone (s : Session) : Session :=
  match s.lastEntry with
  | none => s
  | some (lsn, item) => { s with wal := (s.wal.appendTombstone none lsn item).1, lastEntry := none }

def appendRotate (s : Session) (advance : Nat) : Session :=
  let generation := s.wal.generation + advance
  match s.wal.appendRotate none generation with
  | (wal, .error _) => { s with wal := wal, lastEntry := none }
  | (wal, .ok lsn) => ⟨wal, none, s.returned ++ [(lsn, .rotate generation)]⟩

def apply (s : Session) : Operation → Session
  | .entry item => s.appendEntry item
  | .tombstone => s.appendTombstone
  | .rotate advance => s.appendRotate advance
  | .restart => s.restart

def run (s : Session) (operations : List Operation) : Session := operations.foldl apply s

/-- A coordinator started in an empty directory. -/
def start (dir revokerId : String) : Session := restart { wal := { dir := dir, revokerId := revokerId } }

/-- A crash that leaves `torn` at the end of the current file, and the restart after it. -/
def tear (s : Session) (torn : Bytes) : Session :=
  restart { s with wal := { s.wal with files := appendFile s.wal.generation torn s.wal.files } }

def largestLsn (s : Session) : Nat := s.returned.foldl (fun top r => max top r.1) 0

/-- Every event whose append returned is read back, and no higher LSN is found. -/
def Faithful (s : Session) : Prop :=
  (∃ events, s.wal.readSince 0 0 = .ok events ∧
    ∀ r ∈ s.returned, ∃ event ∈ events, event.record = r) ∧
  s.wal.scan.maxLsn = s.largestLsn

end Session

/-- The record as it comes back from a file. -/
def wellFormed (r : LogRecord) : LogRecord :=
  match r with
  | (lsn, .entry item) => (lsn, .entry (toWellFormed item))
  | (lsn, .rotate generation) => (lsn, .rotate generation)

@[simp] theorem wellFormed_fst (r : LogRecord) : (wellFormed r).1 = r.1 := by
  obtain ⟨lsn, _ | _⟩ := r <;> rfl

/-- A log without damage, and what was returned is what it holds. -/
structure Sound (s : Session) (segments : List Segment) : Prop where
  holds : s.wal.Holds segments
  log : Segment.log segments = s.returned.map wellFormed
  next : s.wal.nextLsn = s.largestLsn + 1
  /-- The last entry is the last line of its file. -/
  lastEntry : ∀ lsn item, s.lastEntry = some (lsn, item) → ∃ before base,
    CanonicalWal.Holds before base ∧ Acceptable item ∧ before.nextLsn = lsn ∧ 0 < lsn ∧
      s.wal = before.written [.entry lsn item] (lsn + 1) before.generation ∧
      segments = Segment.push before.generation [.entry lsn item] base

namespace Session

theorem largestLsn_append (s : Session) (wal : CanonicalWal) (lastEntry : Option (Nat × JsString))
    (r : LogRecord) :
    largestLsn ⟨wal, lastEntry, s.returned ++ [r]⟩ = max s.largestLsn r.1 := by
  simp [largestLsn]

theorem largestLsn_le_iff {s : Session} {bound : Nat} :
    s.largestLsn ≤ bound ↔ ∀ r ∈ s.returned, r.1 ≤ bound := by
  have hFold : ∀ (l : List LogRecord) (top : Nat),
      l.foldl (fun top r => max top r.1) top ≤ bound ↔ top ≤ bound ∧ ∀ r ∈ l, r.1 ≤ bound := by
    intro l
    induction l with
    | nil => simp
    | cons r l ih =>
        intro top
        rw [List.foldl_cons, ih]
        simp only [max_le_iff, List.mem_cons, forall_eq_or_imp, and_assoc]
  exact (hFold s.returned 0).trans (and_iff_right (Nat.zero_le _))

end Session

namespace Sound

variable {s : Session} {segments : List Segment} {operation : Operation}

theorem scan_maxLsn (h : Sound s segments) : s.wal.scan.maxLsn = s.largestLsn := by
  have hIff : ∀ bound, s.wal.scan.maxLsn ≤ bound ↔ s.largestLsn ≤ bound := by
    intro bound
    rw [Session.largestLsn_le_iff]
    refine h.holds.maxLsn_le_iff.trans ?_
    rw [h.log, List.forall_mem_map]
    simp only [wellFormed_fst]
  exact Nat.le_antisymm ((hIff _).mpr (Nat.le_refl _)) ((hIff _).mp (Nat.le_refl _))

/-- An undamaged log loses nothing but the surrogates of ill-formed items. -/
theorem faithful_iff (h : Sound s segments) : s.Faithful ↔ ∀ r ∈ s.returned, wellFormed r = r := by
  obtain ⟨events, hRead, hMap⟩ := h.holds.readSince 0 0
  have hAll : (Segment.log segments).filter (fun r => decide (0 < r.1)) = Segment.log segments :=
    List.filter_eq_self.mpr fun r hr => by simpa using h.holds.log_pos hr
  have hPage : events.map CanonicalEvent.record = s.returned.map wellFormed := by
    rw [hMap, hAll, h.log]
    rfl
  have hSorted := h.holds.pairwise_log
  rw [h.log] at hSorted
  have hMem : ∀ r, (∃ event ∈ events, event.record = r) ↔ r ∈ s.returned.map wellFormed := by
    intro r
    rw [← hPage, List.mem_map]
  simp only [Session.Faithful, h.scan_maxLsn, and_true, hRead, Except.ok.injEq, exists_eq_left', hMem]
  refine forall₂_congr fun r hr => ⟨fun hLog => ?_, fun hEq => hEq ▸ List.mem_map_of_mem hr⟩
  exact KeyedLog.eq_of_key_eq hSorted (List.mem_map_of_mem hr) hLog (wellFormed_fst r)

theorem restart (h : Sound s segments) : Sound s.restart segments where
  holds := CanonicalWal.holds_init s.wal h.holds.toStored (Nat.lt_succ_self _) (Nat.le_refl _) 0
  log := h.log
  next := congrArg (· + 1) h.scan_maxLsn
  lastEntry := by simp [Session.restart]

/-- One append of an item or a marker that returned. -/
theorem append (h : Sound s segments) {line : Line} {generation : Nat}
    {lastEntry : Option (Nat × JsString)} (hLine : line.assigns = true)
    (hBatch : Batch s.wal.nextLsn (s.wal.nextLsn + 1) [line]) (hMarker : line.marker ≤ generation)
    (hGeneration : s.wal.generation ≤ generation)
    (hLast : ∀ lsn item, lastEntry = some (lsn, item) →
      line = .entry lsn item ∧ Acceptable item ∧ generation = s.wal.generation) :
    Sound ⟨s.wal.written [line] (s.wal.nextLsn + 1) generation, lastEntry, s.returned ++ [line.record]⟩
      (Segment.push s.wal.generation [line] segments) where
  holds := h.holds.written hBatch (Nat.le_succ _) (by simpa using hMarker) hGeneration
  log := by
    rw [h.holds.log_written, h.log, List.map_append]
    cases line with
    | entry lsn item | rotate lsn marker => rfl
    | tombstone lsn item => simp [Line.assigns] at hLine
  next := by
    have hLower := hBatch.lower line (by simp)
    have hUpper := hBatch.upper line (by simp)
    have hNext := h.next
    rw [Session.largestLsn_append, Line.record_fst]
    show s.wal.nextLsn + 1 = _
    omega
  lastEntry := by
    intro lsn item hEq
    obtain ⟨rfl, hItem, rfl⟩ := hLast lsn item hEq
    have hLower := hBatch.lower _ (List.mem_singleton_self _)
    have hUpper := hBatch.upper _ (List.mem_singleton_self _)
    have hNext := h.next
    simp only [Line.lsn] at hLower hUpper
    obtain rfl : lsn = s.wal.nextLsn := by omega
    exact ⟨s.wal, segments, h.holds, hItem, rfl, by omega, rfl, rfl⟩

theorem appendTombstone (h : Sound s segments) : ∃ segments', Sound s.appendTombstone segments' := by
  rw [Session.appendTombstone]
  cases hLast : s.lastEntry with
  | none => exact ⟨segments, h⟩
  | some last =>
      obtain ⟨lsn, item⟩ := last
      obtain ⟨before, base, hBase, hItem, rfl, hPos, hWal, rfl⟩ := h.lastEntry lsn item hLast
      have hWritten : (s.wal.appendTombstone none before.nextLsn item).1 =
          before.written [.entry before.nextLsn item, .tombstone before.nextLsn item]
            (before.nextLsn + 1) before.generation := by
        rw [CanonicalWal.appendTombstone_ok h.holds.initialized, hWal]
        exact CanonicalWal.written_written before _ _ _ _ _
      refine ⟨Segment.push before.generation
        [.entry before.nextLsn item, .tombstone before.nextLsn item] base, ?_⟩
      have hHolds := hBase.written (Batch.tombstoned hPos hItem) (Nat.le_succ _)
        (by simp [Line.marker]) (Nat.le_refl before.generation)
      rw [← hWritten] at hHolds
      refine ⟨hHolds, ?_, ?_, by simp⟩
      · have hLog := h.log
        rw [hBase.log_written] at hLog ⊢
        exact hLog
      · have hNext := h.next
        rw [hWal] at hNext
        show (s.wal.appendTombstone none before.nextLsn item).1.nextLsn = _
        rw [hWritten]
        exact hNext

/-- Every operation keeps an undamaged log undamaged. -/
theorem apply (h : Sound s segments) (hAccepted : operation.Accepted) :
    ∃ segments', Sound (s.apply operation) segments' := by
  have hPos : 0 < s.wal.nextLsn := by
    rw [h.next]
    exact Nat.succ_pos _
  cases operation with
  | entry item =>
      refine ⟨Segment.push s.wal.generation [.entry s.wal.nextLsn item] segments, ?_⟩
      rw [Session.apply, Session.appendEntry, CanonicalWal.appendEntry_ok h.holds.initialized]
      refine h.append rfl (Batch.entry hPos hAccepted) (Nat.zero_le _) (Nat.le_refl _) ?_
      rintro lsn item' ⟨⟩
      exact ⟨rfl, hAccepted, rfl⟩
  | tombstone => exact h.appendTombstone
  | rotate advance =>
      refine ⟨Segment.push s.wal.generation
        [.rotate s.wal.nextLsn (s.wal.generation + advance)] segments, ?_⟩
      rw [Session.apply, Session.appendRotate, CanonicalWal.appendRotate_ok h.holds.initialized]
      exact h.append rfl (Batch.rotate hPos _) (Nat.le_refl _) (Nat.le_add_right _ _) (by simp)
  | restart => exact ⟨segments, h.restart⟩

theorem run {operations : List Operation} (h : Sound s segments)
    (hAccepted : ∀ operation ∈ operations, operation.Accepted) :
    ∃ segments', Sound (s.run operations) segments' := by
  induction operations generalizing s segments with
  | nil => exact ⟨segments, h⟩
  | cons operation rest ih =>
      obtain ⟨segments', hNext⟩ := h.apply (hAccepted operation (by simp))
      exact ih hNext fun other hOther => hAccepted other (by simp [hOther])

end Sound

theorem sound_start (dir revokerId : String) : Sound (Session.start dir revokerId) [] where
  holds := CanonicalWal.holds_init { dir := dir, revokerId := revokerId }
    ⟨rfl, by simp, by simp, List.Pairwise.nil, List.Pairwise.nil⟩ (Nat.lt_succ_self _) (Nat.le_refl _) 0
  log := rfl
  next := rfl
  lastEntry := by simp [Session.start, Session.restart]

/-- The prefixes of a nonempty list are the empty one and those after its head. -/
theorem forall_prefix_cons {operation : Operation} {rest : List Operation} {P : List Operation → Prop} :
    (∀ done, done <+: operation :: rest → P done) ↔
      P [] ∧ ∀ done, done <+: rest → P (operation :: done) := by
  simp only [List.prefix_cons_iff, or_imp, forall_and, forall_eq]
  refine and_congr_right fun _ => ⟨fun h done hDone => h _ ⟨done, rfl, hDone⟩, ?_⟩
  rintro h _ ⟨done, rfl, hDone⟩
  exact h done hDone

/-- What an operation returned can be read back exactly if its item is well formed. -/
theorem Sound.returned_apply {s : Session} {segments : List Segment} (h : Sound s segments)
    (operation : Operation) :
    (∀ r ∈ (s.apply operation).returned, wellFormed r = r) ↔
      (∀ r ∈ s.returned, wellFormed r = r) ∧ operation.WellFormed := by
  cases operation with
  | entry item =>
      rw [Session.apply, Session.appendEntry, CanonicalWal.appendEntry_ok h.holds.initialized]
      simp [Operation.WellFormed, IsWellFormed, wellFormed, or_imp, forall_and]
  | tombstone =>
      rw [Session.apply, Session.appendTombstone]
      split <;> simp [Operation.WellFormed]
  | rotate advance =>
      rw [Session.apply, Session.appendRotate, CanonicalWal.appendRotate_ok h.holds.initialized]
      simp [Operation.WellFormed, wellFormed, or_imp, forall_and]
  | restart => simp [Session.apply, Session.restart, Operation.WellFormed]

theorem Sound.returned_run {s : Session} {segments : List Segment} {operations : List Operation}
    (h : Sound s segments) (hAccepted : ∀ operation ∈ operations, operation.Accepted) :
    (∀ r ∈ (s.run operations).returned, wellFormed r = r) ↔
      (∀ r ∈ s.returned, wellFormed r = r) ∧ ∀ operation ∈ operations, operation.WellFormed := by
  induction operations generalizing s segments with
  | nil => simp [Session.run]
  | cons operation rest ih =>
      obtain ⟨segments', hNext⟩ := h.apply (hAccepted operation (by simp))
      have hRest := ih hNext fun other hOther => hAccepted other (by simp [hOther])
      rw [h.returned_apply] at hRest
      simpa [Session.run, and_assoc] using hRest

/-- Without damage, only ill-formed items are not read back. -/
theorem Sound.forall_faithful {s : Session} {segments : List Segment} {operations : List Operation}
    (h : Sound s segments) (hAccepted : ∀ operation ∈ operations, operation.Accepted) :
    (∀ done, done <+: operations → (s.run done).Faithful) ↔
      (∀ r ∈ s.returned, wellFormed r = r) ∧ ∀ operation ∈ operations, operation.WellFormed := by
  induction operations generalizing s segments with
  | nil => simpa [Session.run] using h.faithful_iff
  | cons operation rest ih =>
      obtain ⟨segments', hNext⟩ := h.apply (hAccepted operation (by simp))
      have hRest := ih hNext fun other hOther => hAccepted other (by simp [hOther])
      rw [h.returned_apply] at hRest
      rw [forall_prefix_cons]
      simp only [Session.run, List.foldl_nil, List.foldl_cons, h.faithful_iff] at hRest ⊢
      rw [hRest]
      simp only [List.mem_cons, forall_eq_or_imp]
      tauto

section Damage

/-- The torn text stands at the end of the current file, and nothing else changed. -/
structure Damaged (base : Session) (q : JsString) (s : Session) : Prop where
  files : s.wal.files = appendFile base.wal.generation (encodeUtf8 q) base.wal.files
  generation : s.wal.generation = base.wal.generation
  nextLsn : s.wal.nextLsn = base.wal.nextLsn
  initialized : s.wal.initialized = true
  returned : s.returned = base.returned
  lastEntry : s.lastEntry = none

variable {base s : Session} {segments : List Segment} {q : JsString} {item : JsString}

theorem readLines_encodeUtf8 (hAscii : IsAscii q) (hLine : newline ∉ q) : readLines (encodeUtf8 q) = [q] := by
  rw [readLines, decodeUtf8_encodeUtf8, isWellFormed_of_no_surrogate hAscii.not_surrogate,
    splitOn_of_not_mem hLine]

/-- The events of the damaged log, if `more` follows the torn text. -/
theorem Sound.events_damaged (h : Sound base segments) (more : Bytes) :
    ∃ last, (appendFile base.wal.generation more base.wal.files).flatMap fileEvents =
      base.wal.events ++ parseLines last (readLines more) := by
  obtain ⟨last, hEvents⟩ :=
    Segment.events_appendFile h.holds.valid h.holds.newest h.holds.sorted more
  rw [← h.holds.files] at hEvents
  exact ⟨last, by rw [hEvents, ← h.holds.events]; rfl⟩

/-- What an appended entry line looks like to the reader while it is cut off. -/
structure Cut (lsn : Nat) (item q : JsString) : Prop where
  ascii : IsAscii q
  ne_nil : q ≠ []
  prefix_text : q <+: (Line.entry lsn item).text
  proper : q ≠ (Line.entry lsn item).text
  newline_not_mem : newline ∉ q

/-- The cut line adds no event. -/
theorem Sound.events_cut (h : Sound base segments) (hCut : Cut base.wal.nextLsn item q)
    (hFiles : s.wal.files = appendFile base.wal.generation (encodeUtf8 q) base.wal.files) :
    s.wal.events = base.wal.events := by
  obtain ⟨last, hEvents⟩ := h.events_damaged (encodeUtf8 q)
  rw [CanonicalWal.events, hFiles, hEvents, readLines_encodeUtf8 hCut.ascii hCut.newline_not_mem]
  simp [parseLines, Line.parseLine_prefix hCut.prefix_text hCut.proper]

/-- A restart finds the same LSNs and the same generation as before the damage. -/
theorem damaged_restart (h : Sound base segments) (hCut : Cut base.wal.nextLsn item q)
    (hFiles : s.wal.files = appendFile base.wal.generation (encodeUtf8 q) base.wal.files)
    (hReturned : s.returned = base.returned) : Damaged base q s.restart := by
  have hEvents := h.events_cut hCut hFiles
  refine ⟨hFiles, ?_, ?_, rfl, hReturned, rfl⟩
  · show s.wal.scan.maxGeneration = base.wal.generation
    obtain ⟨file, hFile, hSame⟩ := exists_mem_appendFile base.wal.generation (encodeUtf8 q) base.wal.files
    refine Nat.le_antisymm (CanonicalWal.scan_maxGeneration_le_iff.mpr ⟨?_, ?_⟩) ?_
    · intro other hOther
      rw [hFiles] at hOther
      rcases mem_of_mem_appendFile hOther with hEq | hOld
      · exact hEq.le
      · rw [h.holds.files] at hOld
        obtain ⟨segment, hSegment, rfl⟩ := List.mem_map.mp hOld
        exact h.holds.newest segment hSegment
    · rw [hEvents]
      intro event hEvent
      have hMarker : event.marker ∈ base.wal.events.map CanonicalEvent.marker :=
        List.mem_map_of_mem hEvent
      rw [CanonicalWal.events, h.holds.map_marker] at hMarker
      obtain ⟨line, hLine, hEq⟩ := List.mem_map.mp hMarker
      rw [← hEq]
      exact h.holds.markers line hLine
    · rw [← hFiles] at hFile
      rw [← hSame]
      exact (CanonicalWal.scan_maxGeneration_le_iff.mp (Nat.le_refl _)).1 file hFile
  · show s.wal.scan.maxLsn + 1 = base.wal.nextLsn
    rw [h.next, ← h.scan_maxLsn]
    simp only [CanonicalWal.scan, hEvents]

theorem Damaged.faithful_iff (h : Sound base segments) (hCut : Cut base.wal.nextLsn item q)
    (hDamaged : Damaged base q s) : s.Faithful ↔ ∀ r ∈ base.returned, wellFormed r = r := by
  have hEvents := h.events_cut hCut hDamaged.files
  rw [← h.faithful_iff]
  simp only [Session.Faithful, CanonicalWal.readSince_eq hDamaged.initialized,
    CanonicalWal.readSince_eq h.holds.initialized, CanonicalWal.scan, Session.largestLsn, hEvents,
    hDamaged.returned]

/-- The first event after the restart is lost in the line that was cut off. -/
theorem Damaged.not_faithful (h : Sound base segments) (hCut : Cut base.wal.nextLsn item q)
    (hDamaged : Damaged base q s) (line : Line) (hValid : line.Valid)
    (hLsn : line.lsn = base.wal.nextLsn) {next generation : Nat} {lastEntry : Option (Nat × JsString)} :
    ¬ Session.Faithful ⟨s.wal.written [line] next generation, lastEntry, s.returned ++ [line.record]⟩ := by
  rintro ⟨⟨events, hRead, hAll⟩, -⟩
  have hPos : 0 < base.wal.nextLsn := by
    rw [← hLsn]
    exact Line.lsn_pos hValid
  obtain ⟨event, hEvent, hRecord⟩ := hAll line.record (by simp)
  have hInitialized : (s.wal.written [line] next generation).initialized = true := hDamaged.initialized
  obtain rfl := Except.ok.inj ((CanonicalWal.readSince_eq hInitialized 0 0).symm.trans hRead)
  have hMem : event ∈ (s.wal.written [line] next generation).events :=
    (List.mem_filter.mp (KeyedLog.mem_of_mem_latest (KeyedLog.mem_ordered.mp hEvent))).1
  obtain ⟨last, hEvents⟩ := h.events_damaged (encodeUtf8 q ++ encodeUtf8 (line.text ++ [newline]))
  have hFiles : (s.wal.written [line] next generation).files = appendFile base.wal.generation
      (encodeUtf8 q ++ encodeUtf8 (line.text ++ [newline])) base.wal.files := by
    simp [CanonicalWal.written, hDamaged.files, hDamaged.generation, CanonicalWal.appendFile_appendFile,
      encodeLines]
  have hLines : readLines (encodeUtf8 q ++ encodeUtf8 (line.text ++ [newline])) =
      [q ++ line.wellFormed.text, []] := by
    have hWhole : newline ∉ q ++ line.wellFormed.text := by
      rw [List.mem_append, not_or]
      exact ⟨hCut.newline_not_mem, Line.newline_not_mem_text (Line.wellFormed_valid hValid)⟩
    have hSplit := splitOn_terminated [q ++ line.wellFormed.text] [] (by simpa using hWhole)
    rw [readLines, decodeUtf8_encodeUtf8_append, decodeUtf8_encodeUtf8, toWellFormed_terminated,
      Line.toWellFormed_text, isWellFormed_of_no_surrogate hCut.ascii.not_surrogate]
    simpa using hSplit
  rw [CanonicalWal.events, hFiles, hEvents, hLines] at hMem
  rcases List.mem_append.mp hMem with hOld | hNew
  · have hLog := h.holds.mem_log.mpr ⟨event, hOld, hRecord⟩
    have hLe := h.holds.maxLsn_le_iff.mp (Nat.le_refl _) _ hLog
    have hMax : maxLsn (base.wal.files.flatMap fileEvents) = base.largestLsn := h.scan_maxLsn
    have hNext := h.next
    rw [Line.record_fst] at hLe
    omega
  · have hParsed : parseLine last (q ++ line.wellFormed.text) = some event := by
      rw [parseLines, if_neg (by simp [hCut.ne_nil])] at hNew
      cases hParse : parseLine last (q ++ line.wellFormed.text) with
      | none => simp [hParse, parseLines] at hNew
      | some parsed => cases parsed <;> simp [hParse, parseLines] at hNew <;> simp [hNew]
    exact Line.parseLine_prefix_append hPos hCut.ne_nil hCut.prefix_text hLsn hParsed hRecord

theorem Damaged.forall_faithful (h : Sound base segments) (hCut : Cut base.wal.nextLsn item q)
    {operations : List Operation} (hAccepted : ∀ operation ∈ operations, operation.Accepted)
    (hDamaged : Damaged base q s) :
    (∀ done, done <+: operations → (s.run done).Faithful) ↔
      (∀ r ∈ base.returned, wellFormed r = r) ∧ ∀ operation ∈ operations, ¬ operation.Assigns := by
  have hPos : 0 < s.wal.nextLsn := by
    rw [hDamaged.nextLsn, h.next]
    exact Nat.succ_pos _
  induction operations generalizing s with
  | nil => simpa [Session.run] using hDamaged.faithful_iff h hCut
  | cons operation rest ih =>
      have hRest : ∀ other ∈ rest, other.Accepted := fun other hOther => hAccepted other (by simp [hOther])
      rw [forall_prefix_cons]
      simp only [List.mem_cons, forall_eq_or_imp]
      -- The state after the operation is damaged again, or an event was lost.
      cases operation with
      | entry item' =>
          have hLost : ¬ (s.apply (.entry item')).Faithful := by
            rw [Session.apply, Session.appendEntry, CanonicalWal.appendEntry_ok hDamaged.initialized]
            have hItem : Acceptable item' := hAccepted (.entry item') (by simp)
            exact hDamaged.not_faithful h hCut (.entry s.wal.nextLsn item') ⟨hPos, hItem⟩ hDamaged.nextLsn
          exact iff_of_false (fun hAll => hLost (hAll.2 [] List.nil_prefix))
            fun hNone => hNone.2.1 trivial
      | rotate advance =>
          have hLost : ¬ (s.apply (.rotate advance)).Faithful := by
            rw [Session.apply, Session.appendRotate, CanonicalWal.appendRotate_ok hDamaged.initialized]
            exact hDamaged.not_faithful h hCut (.rotate s.wal.nextLsn (s.wal.generation + advance)) hPos
              hDamaged.nextLsn
          exact iff_of_false (fun hAll => hLost (hAll.2 [] List.nil_prefix))
            fun hNone => hNone.2.1 trivial
      | tombstone =>
          have hSame : s.apply .tombstone = s := by
            simp [Session.apply, Session.appendTombstone, hDamaged.lastEntry]
          have hRun : ∀ done, s.run (.tombstone :: done) = s.run done := fun done =>
            congrArg (fun t => Session.run t done) hSame
          simp only [hRun]
          refine (and_congr (hDamaged.faithful_iff h hCut) (ih hRest hDamaged hPos)).trans ?_
          simp [Operation.Assigns]
      | restart =>
          have hNext : Damaged base q s.restart := damaged_restart h hCut hDamaged.files hDamaged.returned
          have hTail := ih hRest hNext (by rw [hNext.nextLsn, ← hDamaged.nextLsn]; exact hPos)
          refine (and_congr (hDamaged.faithful_iff h hCut) hTail).trans ?_
          simp [Operation.Assigns]

end Damage

/-- A crash that left nothing behind leaves an undamaged log. -/
theorem Sound.tear_nil {s : Session} {segments : List Segment} (h : Sound s segments) :
    ∃ segments', Sound (s.tear []) segments' := by
  have hHolds := h.holds.written (Batch.nil s.wal.nextLsn s.wal.nextLsn) (Nat.le_refl _) (by simp)
    (Nat.le_refl s.wal.generation)
  have hSound : Sound { s with wal := s.wal.written [] s.wal.nextLsn s.wal.generation, lastEntry := none }
      (Segment.push s.wal.generation [] segments) :=
    ⟨hHolds, by rw [h.holds.log_written, h.log]; simp [records], h.next, by simp⟩
  exact ⟨_, hSound.restart⟩

/-- A line whose newline alone is missing is read as an event that no append returned. -/
theorem Sound.not_faithful_tear {s : Session} {segments : List Segment} (h : Sound s segments)
    {item : JsString} (hItem : Acceptable item) (hAscii : IsAscii (Line.entry s.wal.nextLsn item).text) :
    ¬ (s.tear (encodeUtf8 (Line.entry s.wal.nextLsn item).text)).Faithful := by
  rintro ⟨-, hMax⟩
  have hPos : 0 < s.wal.nextLsn := by
    rw [h.next]
    exact Nat.succ_pos _
  have hValid : (Line.entry s.wal.nextLsn item).Valid := ⟨hPos, hItem⟩
  obtain ⟨last, hEvents⟩ := h.events_damaged (encodeUtf8 (Line.entry s.wal.nextLsn item).text)
  rw [readLines_encodeUtf8 hAscii (Line.newline_not_mem_text hValid)] at hEvents
  simp only [parseLines, Line.text_ne_nil, if_false, Line.parseLine_text (Line.lsn_pos hValid)] at hEvents
  have hLe : maxLsn ((appendFile s.wal.generation (encodeUtf8 (Line.entry s.wal.nextLsn item).text)
      s.wal.files).flatMap fileEvents) ≤ s.largestLsn := hMax.le
  rw [hEvents, maxLsn_le_iff] at hLe
  have hOver := hLe (.entry s.wal.nextLsn last item) (by simp [Line.event])
  have hNext := h.next
  simp only [CanonicalEvent.lsn] at hOver
  omega

/-- The bytes of an entry line with an ASCII item. -/
theorem isAscii_text (lsn : Nat) {item : JsString} (h : IsAscii item) :
    IsAscii (Line.entry lsn item).text := by
  have hHeader := (Line.isAscii_header (Or.inl rfl) lsn item.length).append h
  rwa [← Line.itemText_eq] at hHeader

/-- A crash leaves a proper prefix of an entry line at the end of the log. The log
stays faithful through everything that follows exactly if the prefix is empty, or
if it is not the whole text of the line and nothing is appended any more; and if
no item has a lone surrogate. -/
theorem forall_faithful_tear_iff (dir revokerId : String) {operations later : List Operation}
    (item : JsString) {torn : Bytes} (hOperations : ∀ operation ∈ operations, operation.Accepted)
    (hLater : ∀ operation ∈ later, operation.Accepted) (hItem : Acceptable item) (hAscii : IsAscii item)
    (hTorn : torn <+: encodeUtf8
      ((Line.entry ((Session.start dir revokerId).run operations).wal.nextLsn item).text ++ [newline]))
    (hProper : torn ≠ encodeUtf8
      ((Line.entry ((Session.start dir revokerId).run operations).wal.nextLsn item).text ++ [newline])) :
    (∀ done, done <+: later →
      ((((Session.start dir revokerId).run operations).tear torn).run done).Faithful) ↔
      (∀ operation ∈ operations ++ later, operation.WellFormed) ∧
        (torn = [] ∨ torn ≠ encodeUtf8
            (Line.entry ((Session.start dir revokerId).run operations).wal.nextLsn item).text ∧
          ∀ operation ∈ later, ¬ operation.Assigns) := by
  have hReturned := (sound_start dir revokerId).returned_run hOperations
  obtain ⟨segments, hSound⟩ := (sound_start dir revokerId).run hOperations
  generalize (Session.start dir revokerId).run operations = base at hTorn hProper hReturned hSound ⊢
  have hBefore : (∀ r ∈ base.returned, wellFormed r = r) ↔
      ∀ operation ∈ operations, operation.WellFormed :=
    hReturned.trans (and_iff_right (by simp [Session.start, Session.restart]))
  have hText := isAscii_text base.wal.nextLsn hAscii
  have hTextNewline : newline ∉ (Line.entry base.wal.nextLsn item).text :=
    Line.newline_not_mem_text ⟨by rw [hSound.next]; exact Nat.succ_pos _, hItem⟩
  obtain ⟨q, hq, rfl⟩ := (hText.append (by simp [IsAscii, newline])).prefix_encodeUtf8 hTorn
  have hPrefix : q <+: (Line.entry base.wal.nextLsn item).text := by
    rcases List.prefix_concat_iff.mp hq with hWhole | hPrefix
    · exact absurd (congrArg encodeUtf8 hWhole) hProper
    · exact hPrefix
  have hAsciiPrefix : IsAscii q := fun c hc => hText c (hPrefix.subset hc)
  simp only [List.mem_append, or_imp, forall_and]
  by_cases hEmpty : q = []
  · subst hEmpty
    obtain ⟨segments', hTear⟩ := hSound.tear_nil
    have hAll := hTear.forall_faithful hLater
    rw [show (base.tear []).returned = base.returned from rfl, hBefore] at hAll
    rw [encodeUtf8, hAll]
    simp only [true_or, and_true]
  by_cases hWhole : q = (Line.entry base.wal.nextLsn item).text
  · subst hWhole
    refine iff_of_false (fun hAll => ?_) ?_
    · exact hSound.not_faithful_tear hItem hText (hAll [] List.nil_prefix)
    · rintro ⟨-, hNil | ⟨hNe, -⟩⟩
      · rw [hText.encodeUtf8, List.map_eq_nil_iff] at hNil
        exact hEmpty hNil
      · exact hNe rfl
  · have hCut : Cut base.wal.nextLsn item q :=
      ⟨hAsciiPrefix, hEmpty, hPrefix, hWhole, fun hMem => hTextNewline (hPrefix.subset hMem)⟩
    have hDamaged : Damaged base q (base.tear (encodeUtf8 q)) :=
      damaged_restart (s := { base with
        wal := { base.wal with files := appendFile base.wal.generation (encodeUtf8 q) base.wal.files } })
        hSound hCut rfl rfl
    have hNotNil : encodeUtf8 q ≠ [] := by
      rw [hAsciiPrefix.encodeUtf8, ne_eq, List.map_eq_nil_iff]
      exact hEmpty
    have hNotWhole : encodeUtf8 q ≠ encodeUtf8 (Line.entry base.wal.nextLsn item).text := by
      rw [hAsciiPrefix.encodeUtf8, hText.encodeUtf8]
      intro hEq
      have hLength := congrArg List.length hEq
      rw [List.length_map, List.length_map] at hLength
      exact hWhole (hPrefix.eq_of_length hLength)
    rw [hDamaged.forall_faithful hSound hCut hLater, hBefore]
    simp only [hNotNil, hNotWhole, ne_eq, not_false_eq_true, true_and, false_or]
    refine ⟨?_, fun h => ⟨h.1.1, h.2⟩⟩
    rintro ⟨hWf, hNone⟩
    refine ⟨⟨hWf, fun operation hMem => ?_⟩, hNone⟩
    cases operation with
    | entry item' => exact absurd trivial (hNone _ hMem)
    | tombstone | rotate _ | restart => trivial

/-- The crash comes before the first byte of the second entry, or after its digit:
the first log takes entries again, the second one only starts again. -/
theorem faithful_tear_digit :
    ((((Session.start "canonical" "r").run [.entry [0x61]]).tear []).run
      [.entry [0x63], .restart]).Faithful ∧
    ((((Session.start "canonical" "r").run [.entry [0x61]]).tear [0x32]).run
      [.tombstone, .restart]).Faithful := by
  have hLetter : Acceptable [0x61] ∧ Acceptable [0x62] ∧ Acceptable [0x63] := by
    refine ⟨?_, ?_, ?_⟩ <;> constructor <;> decide
  have hFirst : ∀ operation ∈ [Operation.entry [0x61]], operation.Accepted := by
    simpa [Operation.Accepted] using hLetter.1
  constructor
  · have hLater : ∀ operation ∈ [Operation.entry [0x63], .restart], operation.Accepted := by
      simpa [Operation.Accepted] using hLetter.2.2
    refine (forall_faithful_tear_iff "canonical" "r" [0x62] hFirst hLater hLetter.2.1 (by simp [IsAscii])
      List.nil_prefix (by decide)).mpr ⟨?_, Or.inl rfl⟩ _ (List.prefix_refl _)
    simpa only [List.cons_append, List.nil_append, List.mem_cons, List.not_mem_nil, or_false,
      forall_eq_or_imp, forall_eq] using ⟨rfl, rfl, trivial⟩
  · have hLater : ∀ operation ∈ [Operation.tombstone, .restart], operation.Accepted := by
      simp [Operation.Accepted]
    refine (forall_faithful_tear_iff "canonical" "r" [0x62] hFirst hLater hLetter.2.1 (by simp [IsAscii])
      (by decide) (by decide)).mpr ⟨?_, Or.inr ⟨by decide, ?_⟩⟩ _ (List.prefix_refl _)
    · simpa only [List.cons_append, List.nil_append, List.mem_cons, List.not_mem_nil, or_false,
        forall_eq_or_imp, forall_eq] using ⟨rfl, trivial, trivial⟩
    · simp [Operation.Assigns]

/-- A crash leaves the digit of the LSN 2 behind. The next entry is appended with
LSN 2 and read back with LSN 22. -/
theorem not_faithful_torn_digit :
    ¬ ∀ (dir revokerId : String) (operations later : List Operation) (item : JsString) (torn : Bytes),
      (∀ operation ∈ operations ++ later, operation.Accepted) → Acceptable item → IsAscii item →
      torn <+: encodeUtf8 ((Line.entry
        ((Session.start dir revokerId).run operations).wal.nextLsn item).text ++ [newline]) →
      torn ≠ encodeUtf8 ((Line.entry
        ((Session.start dir revokerId).run operations).wal.nextLsn item).text ++ [newline]) →
      ((((Session.start dir revokerId).run operations).tear torn).run later).Faithful := by
  intro h
  have hFaithful := h "canonical" "r" [.entry [0x61]] [.entry [0x63]] [0x62] [0x32]
    (by simp [Operation.Accepted]; constructor <;> constructor <;> decide) (by constructor <;> decide)
    (by simp [IsAscii]) (by decide) (by decide)
  exact absurd hFaithful.2 (by decide)

end TornTail

end TokenRevoker
