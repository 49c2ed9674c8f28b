import TokenRevoker.Library.Positions
import TokenRevoker.Server.Coordinator

/-! The LSNs of one coordinator life while appends and meta writes may throw. An LSN
is taken before its line is written, and an event is passed to the listener only
after everything about it was written. -/
namespace TokenRevoker.LsnContiguity

open Positions Text

/-- A revocation or a rotation, with the errors its writes throw. The filter may
answer anything to `add`. -/
inductive Call where
  | add (item : JsString) (append : Option String) (applied : Except RevokerError Unit)
      (tombstone : Option String)
  | rotation (append metaWrite : Option String)

/-- What becomes of the LSN that a call takes. -/
inductive Outcome where
  | lost
  | unsent
  | sent
  deriving DecidableEq

/-- A refused item takes no LSN. Whether one is taken, written and passed on depends
on the item and on the writes that throw. -/
def Call.outcome : Call → Option Outcome
  | .add item append applied tombstone =>
    match itemValidationError item, append, applied, tombstone with
    | some _, _, _, _ => none
    | none, some _, _, _ => some .lost
    | none, none, .error _, some _ => some .unsent
    | none, none, _, _ => some .sent
  | .rotation append metaWrite =>
    match append, metaWrite with
    | some _, _ => some .lost
    | none, some _ => some .unsent
    | none, none => some .sent

def apply (c : Coordinator) : Call → Coordinator
  | .add item append applied tombstone => (c.add append applied tombstone item).1
  | .rotation append metaWrite => (c.onCoreRotation append metaWrite fun _ => false).1

def run (c : Coordinator) (calls : List Call) : Coordinator := calls.foldl apply c

/-- Earlier lives of the coordinator, each ended by a crash and a restart. -/
def start (id walDir : String) (lives : List (List Call)) : Coordinator :=
  lives.foldl (fun c calls => (run c calls).restart) (Coordinator.init id walDir [] none)

/-- The log before and after each append of a call that throws. -/
def failedAppends (c : Coordinator) : Call → List (CanonicalWal × CanonicalWal)
  | .add item append applied tombstone =>
    if c.shuttingDown || (itemValidationError item).isSome then []
    else match c.canonical.appendEntry append item with
      | (wal, .error _) => [(c.canonical, wal)]
      | (wal, .ok lsn) =>
        match applied, wal.appendTombstone tombstone lsn item with
        | .error _, (after, .error _) => [(wal, after)]
        | _, _ => []
  | .rotation append _ =>
    if !c.ready || c.shuttingDown then []
    else match c.canonical.appendRotate append (c.metaState.generation + 1) with
      | (wal, .error _) => [(c.canonical, wal)]
      | (_, .ok _) => []

/-- The LSN of an entry or a marker. -/
def lsnOf : OutboundEvent → Option Nat
  | .entry lsn _ _ | .rotate lsn _ => some lsn
  | _ => none

/-- Appends that throw change neither counter, and neither the LSNs that this life
wrote nor those it passed to the listener have a gap. -/
def Contiguous (c : Coordinator) (calls : List Call) : Prop :=
  (∀ done call, done ++ [call] <+: calls → ∀ wals ∈ failedAppends (run c done) call,
    wals.2.nextLsn = wals.1.nextLsn ∧ wals.2.generation = wals.1.generation) ∧
  (∃ events, (run c calls).readSince c.lastLsn 0 = .ok events ∧
    Consecutive (events.map CanonicalEvent.lsn)) ∧
  Consecutive ((run c calls).sent.filterMap lsnOf)

/-- One call from a live coordinator: what it does to the log, to the next LSN and to
the listener, by its outcome. -/
structure Step (c : Coordinator) (segments : List Segment) (call : Call) (t : Coordinator)
    (segments' : List Segment) : Prop where
  live : t.Live segments'
  next : t.canonical.nextLsn = c.canonical.nextLsn + call.outcome.toList.length
  sent : t.sent.filterMap lsnOf =
    c.sent.filterMap lsnOf ++ positions (· = .sent) call.outcome.toList c.canonical.nextLsn
  log : (Segment.log segments').map Prod.fst <:+
    (Segment.log segments).map Prod.fst ++ positions (· ≠ .lost) call.outcome.toList c.canonical.nextLsn

variable {c : Coordinator} {segments : List Segment}

/-- An LSN that is taken and never written. -/
theorem live_skip (h : c.Live segments) : Coordinator.Live
    { c with canonical := { c.canonical with nextLsn := c.canonical.nextLsn + 1 } } segments where
  holds := h.holds.skip (Nat.le_succ _)
  generation := h.generation
  pos := Nat.succ_pos _
  ready := h.ready
  running := h.running

/-- An item is written under the next LSN, whether or not it is passed on. -/
theorem live_entry (h : c.Live segments) {lines : List Line} {item : JsString}
    (hBatch : Batch c.canonical.nextLsn (c.canonical.nextLsn + 1) lines)
    (hMarkers : ∀ line ∈ lines, line.marker = 0)
    (hRecords : records (lines.map Line.wellFormed) = [(c.canonical.nextLsn, .entry (toWellFormed item))])
    (sent : List OutboundEvent) :
    Coordinator.Live { c with
        canonical := c.canonical.written lines (c.canonical.nextLsn + 1) c.canonical.generation
        sent := sent } (Segment.push c.canonical.generation lines segments) ∧
      (Segment.log (Segment.push c.canonical.generation lines segments)).map Prod.fst =
        (Segment.log segments).map Prod.fst ++ [c.canonical.nextLsn] := by
  refine ⟨⟨h.holds.written hBatch (Nat.le_succ _) ?_ (Nat.le_refl _), h.generation, Nat.succ_pos _,
    h.ready, h.running⟩, ?_⟩
  · intro line hLine
    rw [hMarkers line hLine]
    exact Nat.zero_le _
  · rw [h.holds.log_written, hRecords, List.map_append]
    rfl

theorem step_add (h : c.Live segments) (item : JsString) (append : Option String)
    (applied : Except RevokerError Unit) (tombstone : Option String) :
    ∃ segments', Step c segments (.add item append applied tombstone)
      (apply c (.add item append applied tombstone)) segments' := by
  by_cases hItem : Acceptable item
  · have hValid := itemValidationError_eq_none_iff.mpr hItem
    have hBatch := Coordinator.batch_entryLines h.pos hItem applied
    have hRecords := Coordinator.records_entryLines c.canonical.nextLsn item applied
    cases append with
    | some message =>
        refine ⟨segments, ?_⟩
        rw [apply, Coordinator.add_lost h hItem]
        refine ⟨live_skip h, ?_, ?_, ?_⟩ <;> simp [Call.outcome, hValid, positions]
    | none =>
        by_cases hWritten : applied = .ok () ∨ tombstone = none
        · have hOutcome : (Call.add item none applied tombstone).outcome = some .sent := by
            rcases hWritten with rfl | rfl
            · simp [Call.outcome, hValid]
            · simp [Call.outcome, hValid]
          rw [apply, Coordinator.add_sent h hItem hWritten]
          obtain ⟨hLive, hLog⟩ := live_entry h hBatch (fun _ hLine => (Coordinator.lsn_marker_entryLines hLine).2)
            hRecords (c.sent ++ [.entry c.canonical.nextLsn c.canonical.generation item])
          refine ⟨_, hLive, ?_, ?_, ?_⟩
          · simp [hOutcome, CanonicalWal.written]
          · simp [hOutcome, positions, lsnOf]
          · simp [hOutcome, positions, hLog]
        · rw [not_or] at hWritten
          obtain ⟨error, rfl⟩ : ∃ error, applied = .error error := by
            cases applied with
            | ok => exact absurd rfl hWritten.1
            | error error => exact ⟨error, rfl⟩
          obtain ⟨message, rfl⟩ := Option.ne_none_iff_exists'.mp hWritten.2
          rw [apply, Coordinator.add_unsent h hItem]
          obtain ⟨hLive, hLog⟩ := live_entry h (Batch.entry h.pos hItem) (by simp [Line.marker]) rfl c.sent
          refine ⟨_, hLive, ?_, ?_, ?_⟩
          · simp [Call.outcome, hValid, CanonicalWal.written]
          · simp [Call.outcome, hValid, positions]
          · simp [Call.outcome, hValid, positions, hLog]
  · refine ⟨segments, ?_⟩
    have hInvalid := mt itemValidationError_eq_none_iff.mp hItem
    obtain ⟨message, hMessage⟩ := Option.ne_none_iff_exists'.mp hInvalid
    rw [apply, Coordinator.add_refused hItem]
    refine ⟨h, ?_, ?_, ?_⟩ <;> simp [Call.outcome, hMessage, positions]

theorem step_rotation (h : c.Live segments) (append metaWrite : Option String) :
    ∃ segments', Step c segments (.rotation append metaWrite) (apply c (.rotation append metaWrite))
      segments' := by
  cases append with
  | some message =>
      refine ⟨segments, ?_⟩
      rw [apply, Coordinator.rotation_lost h]
      refine ⟨live_skip h, ?_, ?_, ?_⟩ <;> simp [Call.outcome, positions]
  | none =>
      have hLog := congrArg (List.map Prod.fst) h.log_marked
      rw [List.map_append] at hLog
      cases metaWrite with
      | some message =>
          refine ⟨c.marked segments, ?_⟩
          rw [apply, Coordinator.rotation_unsent h]
          refine ⟨⟨h.holds_markedLog, rfl, Nat.succ_pos _, h.ready, h.running⟩, ?_, ?_, ?_⟩
          · simp [Call.outcome, Coordinator.markedLog, CanonicalWal.written]
          · simp [Call.outcome, positions]
          · simp [Call.outcome, positions, hLog]
      | none =>
          refine ⟨c.retained segments fun _ => false, ?_⟩
          have hLive := h.rotation_sent fun _ => false
          have hSuffix := h.log_retained_suffix.map Prod.fst
          rw [hLog] at hSuffix
          rw [apply]
          refine ⟨hLive, ?_, ?_, ?_⟩
          · rw [Coordinator.rotation_sent h, CanonicalWal.foldl_unlink]
            rfl
          · rw [Coordinator.rotation_sent h]
            simp [Call.outcome, positions, lsnOf]
          · simpa [Call.outcome, positions] using hSuffix

theorem step_call (h : c.Live segments) (call : Call) :
    ∃ segments', Step c segments call (apply c call) segments' := by
  cases call with
  | add item append applied tombstone => exact step_add h item append applied tombstone
  | rotation append metaWrite => exact step_rotation h append metaWrite

/-- What a run has done since the LSN `first`. -/
structure Progress (first : Nat) (c : Coordinator) (segments : List Segment) (outcomes : List Outcome) :
    Prop where
  live : c.Live segments
  next : c.canonical.nextLsn = first + outcomes.length
  sent : c.sent.filterMap lsnOf = positions (· = .sent) outcomes first
  log : ((Segment.log segments).map Prod.fst).filter (fun lsn => first ≤ lsn) <:+
    positions (· ≠ .lost) outcomes first

theorem Progress.step {first : Nat} {outcomes : List Outcome} (h : Progress first c segments outcomes)
    (call : Call) :
    ∃ segments', Progress first (apply c call) segments' (outcomes ++ call.outcome.toList) := by
  obtain ⟨segments', hStep⟩ := step_call h.live call
  refine ⟨segments', hStep.live, ?_, ?_, ?_⟩
  · rw [hStep.next, h.next, List.length_append, Nat.add_assoc]
  · rw [hStep.sent, h.sent, positions_append, h.next]
  · rw [positions_append, ← h.next]
    have hSuffix := hStep.log.filter fun lsn => decide (first ≤ lsn)
    rw [List.filter_append] at hSuffix
    have hNew : (positions (· ≠ Outcome.lost) call.outcome.toList c.canonical.nextLsn).filter
        (fun lsn => decide (first ≤ lsn)) =
          positions (· ≠ Outcome.lost) call.outcome.toList c.canonical.nextLsn := by
      rw [List.filter_eq_self]
      intro lsn hLsn
      have hLe := le_of_mem_positions hLsn
      have hNext := h.next
      simp only [decide_eq_true_eq]
      omega
    rw [hNew] at hSuffix
    exact hSuffix.trans (List.suffix_append_self_iff.mpr h.log)

theorem Progress.run {first : Nat} {outcomes : List Outcome} (h : Progress first c segments outcomes)
    (calls : List Call) :
    ∃ segments', Progress first (run c calls) segments' (outcomes ++ calls.filterMap Call.outcome) := by
  induction calls generalizing c segments outcomes with
  | nil => exact ⟨segments, by simpa [LsnContiguity.run] using h⟩
  | cons call rest ih =>
      obtain ⟨middle, hStep⟩ := h.step call
      obtain ⟨segments', hRest⟩ := ih hStep
      refine ⟨segments', ?_⟩
      cases hOutcome : call.outcome <;>
        simpa [LsnContiguity.run, hOutcome, List.filterMap_cons] using hRest

/-- The log of a live coordinator, read from the start of its life. -/
theorem Progress.readSince {first : Nat} {outcomes : List Outcome} (h : Progress first c segments outcomes)
    (hFirst : 0 < first) :
    ∃ events, c.readSince (first - 1) 0 = .ok events ∧
      events.map CanonicalEvent.lsn <:+ positions (· ≠ .lost) outcomes first := by
  obtain ⟨events, hRead, hMap⟩ := h.live.holds.readSince (first - 1) 0
  refine ⟨events, hRead, ?_⟩
  have hLsns : events.map CanonicalEvent.lsn =
      ((Segment.log segments).map Prod.fst).filter fun lsn => first ≤ lsn := by
    have hFst := congrArg (List.map Prod.fst) hMap
    rw [List.map_map, page, if_neg (Nat.lt_irrefl 0)] at hFst
    rw [List.filter_map, ← funext_iff.mpr (fun event => CanonicalEvent.record_fst event)]
    refine hFst.trans (congrArg _ (List.filter_congr fun r _ => ?_))
    simp only [Function.comp_apply, decide_eq_decide]
    omega
  rw [hLsns]
  exact h.log

/-- Exactly the calls whose first append throws move a counter without writing. -/
theorem failedAppends_iff (h : c.Live segments) (call : Call) :
    (∀ wals ∈ failedAppends c call,
      wals.2.nextLsn = wals.1.nextLsn ∧ wals.2.generation = wals.1.generation) ↔
      call.outcome ≠ some .lost := by
  have hInitialized := h.holds.initialized
  cases call with
  | add item append applied tombstone =>
      cases hValid : itemValidationError item with
      | some message => simp [failedAppends, Call.outcome, hValid]
      | none =>
          cases append with
          | some message =>
              simp [failedAppends, Call.outcome, hValid, h.running, CanonicalWal.appendEntry,
                CanonicalWal.appendLine, hInitialized]
          | none =>
              have hWritten : (c.canonical.written [Line.entry c.canonical.nextLsn item]
                  (c.canonical.nextLsn + 1) c.canonical.generation).initialized = true := hInitialized
              cases applied <;> cases tombstone <;>
                simp [failedAppends, Call.outcome, hValid, h.running,
                  CanonicalWal.appendEntry_ok hInitialized, CanonicalWal.appendTombstone,
                  CanonicalWal.appendLine, hWritten]
  | rotation append metaWrite =>
      cases append with
      | some message =>
          simp [failedAppends, Call.outcome, h.ready, h.running, CanonicalWal.appendRotate,
            CanonicalWal.appendLine, hInitialized]
      | none =>
          cases metaWrite <;>
            simp [failedAppends, Call.outcome, h.ready, h.running,
              CanonicalWal.appendRotate_ok hInitialized]

/-- A life starts with nothing written or passed on. -/
theorem init_progress (id walDir : String) {files : List (Nat × Bytes)} (h : Stored files segments)
    (metaFile : Option MetaState) :
    Progress (Coordinator.init id walDir files metaFile).canonical.nextLsn
      (Coordinator.init id walDir files metaFile) segments [] := by
  have hLive := Coordinator.live_init id walDir h metaFile
  refine ⟨hLive, rfl, rfl, ?_⟩
  rw [positions, List.suffix_nil, List.filter_eq_nil_iff]
  intro lsn hLsn
  obtain ⟨r, hr, rfl⟩ := List.mem_map.mp hLsn
  simpa using hLive.holds.log_below hr

theorem start_progress (id walDir : String) (lives : List (List Call)) :
    ∃ segments, Progress (start id walDir lives).canonical.nextLsn (start id walDir lives) segments [] := by
  have hLives : ∀ (c : Coordinator) (segments : List Segment), Progress c.canonical.nextLsn c segments [] →
      ∃ segments', Progress (lives.foldl (fun c calls => (run c calls).restart) c).canonical.nextLsn
        (lives.foldl (fun c calls => (run c calls).restart) c) segments' [] := by
    induction lives with
    | nil => exact fun c segments h => ⟨segments, h⟩
    | cons calls rest ih =>
        intro c segments h
        obtain ⟨middle, hRun⟩ := h.run calls
        exact ih _ middle (init_progress _ _ hRun.live.holds.toStored _)
  refine hLives _ [] (init_progress id walDir ⟨rfl, ?_, ?_, List.Pairwise.nil, List.Pairwise.nil⟩ none)
  · simp
  · simp

theorem no_sent_iff {calls : List Call} :
    (∀ outcome ∈ calls.filterMap Call.outcome, outcome ≠ .sent) ↔
      ∀ call ∈ calls, call.outcome ≠ some .sent := by
  constructor
  · intro h call hCall hSent
    exact h .sent (List.mem_filterMap.mpr ⟨call, hCall, hSent⟩) rfl
  · intro h outcome hMem hSent
    obtain ⟨call, hCall, hOutcome⟩ := List.mem_filterMap.mp hMem
    exact h call hCall (hSent ▸ hOutcome)

/-- In every life, failed appends change no counter and the LSNs that are written and
passed on have no gap, exactly if no append of an entry or a marker throws and no LSN
that was written but not passed on lies between two that were passed on. -/
theorem contiguous_iff (id walDir : String) (lives : List (List Call)) (calls : List Call) :
    Contiguous (start id walDir lives) calls ↔
      (∀ call ∈ calls, call.outcome ≠ some .lost) ∧
      ∀ before call after, calls = before ++ call :: after → call.outcome = some .unsent →
        (∀ other ∈ before, other.outcome ≠ some .sent) ∨ ∀ other ∈ after, other.outcome ≠ some .sent := by
  obtain ⟨segments, hStart⟩ := start_progress id walDir lives
  generalize start id walDir lives = c at hStart ⊢
  obtain ⟨segments', hEnd⟩ := hStart.run calls
  rw [List.nil_append] at hEnd
  obtain ⟨events, hRead, hEvents⟩ := hEnd.readSince hStart.live.pos
  have hFailed : (∀ done call, done ++ [call] <+: calls → ∀ wals ∈ failedAppends (run c done) call,
      wals.2.nextLsn = wals.1.nextLsn ∧ wals.2.generation = wals.1.generation) ↔
      ∀ call ∈ calls, call.outcome ≠ some .lost := by
    constructor
    · intro hAll call hCall
      obtain ⟨done, rest, rfl⟩ := List.append_of_mem hCall
      obtain ⟨middle, hDone⟩ := hStart.run done
      exact (failedAppends_iff hDone.live call).mp (hAll done call (by simp))
    · intro hAll done call hPrefix
      obtain ⟨middle, hDone⟩ := hStart.run done
      exact (failedAppends_iff hDone.live call).mpr (hAll call (hPrefix.subset (by simp)))
  rw [Contiguous, hFailed]
  refine and_congr_right fun hNone => ?_
  have hDurable : Consecutive (events.map CanonicalEvent.lsn) := by
    refine List.IsChain.suffix (consecutive_positions_iff.mpr ?_) hEvents
    intro before outcome after hSplit hLost
    have hMem : outcome ∈ calls.filterMap Call.outcome := by simp [hSplit]
    obtain ⟨call, hCall, hOutcome⟩ := List.mem_filterMap.mp hMem
    rw [ne_eq, not_not] at hLost
    exact absurd (hLost ▸ hOutcome) (hNone call hCall)
  rw [and_iff_right ⟨events, hRead, hDurable⟩, hEnd.sent, consecutive_positions_iff]
  constructor
  · intro hAll before call after hSplit hUnsent
    have hOutcomes : calls.filterMap Call.outcome = before.filterMap Call.outcome ++
        .unsent :: after.filterMap Call.outcome := by
      rw [hSplit, List.filterMap_append, List.filterMap_cons, hUnsent]
    exact (hAll _ _ _ hOutcomes (by decide)).imp no_sent_iff.mp no_sent_iff.mp
  · intro hAll before outcome after hSplit hOutcome
    obtain ⟨front, rest, rfl, rfl, hRest⟩ := List.filterMap_eq_append_iff.mp hSplit
    obtain ⟨refused, call, back, rfl, hRefused, hCall, rfl⟩ := List.filterMap_eq_cons_iff.mp hRest
    have hUnsent : call.outcome = some .unsent := by
      have hLost := hNone call (by simp)
      cases outcome with
      | lost => exact absurd hCall hLost
      | unsent => exact hCall
      | sent => exact absurd rfl hOutcome
    have hEither := hAll (front ++ refused) call back (by simp) hUnsent
    refine hEither.imp (fun hBefore => no_sent_iff.mpr fun other hOther => ?_) no_sent_iff.mpr
    exact hBefore other (by simp [hOther])

/-- The append of the second revocation throws: the listener is passed LSNs 1 and 3. -/
theorem not_contiguous_failed_append :
    ¬ ∀ (id walDir : String) (lives : List (List Call)) (calls : List Call),
      Contiguous (start id walDir lives) calls := by
  intro h
  have hSent := (h "r" "canonical" [] [.add [0x61] none (.ok ()) none,
    .add [0x62] (some "ENOSPC") (.ok ()) none, .add [0x63] none (.ok ()) none]).2.2
  have hGap : Consecutive [1, 3] := hSent
  simp [Consecutive] at hGap

end TokenRevoker.LsnContiguity
