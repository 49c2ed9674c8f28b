import TokenRevoker.Server.CoordinatorRestart

/-! Any number of lives of one coordinator, each ended by a crash between two disk steps
or by a shutdown. What was ever appended is written down as the appends returned it, so
that later lives can be compared with it after retention has deleted the files. -/
namespace TokenRevoker.CoordinatorLives

open Text

/-- A crash inside `add` comes before the tombstone, if there is to be one. -/
inductive Action where
  | step (a : CoordinatorRestart.Action)
  | crashInAdd (item : JsString)

/-- The ends of a life, each with the restart after it. -/
def Action.stops : Action → Bool
  | .step (.add _ _) | .step (.rotation _) => false
  | _ => true

/-- `Coordinator.add` up to the append of the entry. -/
def interruptedAdd (c : Coordinator) (item : JsString) : Coordinator :=
  if c.shuttingDown then c
  else match itemValidationError item with
  | some _ => c
  | none => { c with canonical := (c.canonical.appendEntry none item).1 }

def apply (c : Coordinator) : Action → Coordinator
  | .step a => CoordinatorRestart.apply c a
  | .crashInAdd item => (interruptedAdd c item).restart

def run (c : Coordinator) (actions : List Action) : Coordinator := actions.foldl apply c

/-- The entry that an `add` appends, under the LSN that `appendEntry` returns. -/
def appendedEntry (c : Coordinator) (item : JsString) : List LogRecord :=
  match itemValidationError item, (c.canonical.appendEntry none item).2 with
  | none, .ok lsn => [(lsn, .entry (toWellFormed item))]
  | _, _ => []

/-- The marker that a rotation appends, under the LSN that `appendRotate` returns. -/
def appendedMarker (c : Coordinator) : List LogRecord :=
  match (c.appendMarker none).2 with
  | .ok lsn => [(lsn, .rotate (c.metaState.generation + 1))]
  | .error _ => []

def appended (c : Coordinator) : Action → List LogRecord
  | .step (.add item _) | .crashInAdd item => appendedEntry c item
  | .step (.rotation _) | .step .crashAfterMarker | .step (.crashInRetention _ _) => appendedMarker c
  | .step .crash | .step .shutdown => []

/-- Everything that a run appends, in all its lives. -/
def history (c : Coordinator) : List Action → List LogRecord
  | [] => []
  | a :: rest => appended c a ++ history (apply c a) rest

variable {c : Coordinator} {segments : List Segment} {old : List LogRecord}

theorem appendedEntry_eq (h : c.Live segments) (item : JsString) :
    appendedEntry c item = c.entryRecords item := by
  rw [appendedEntry, Coordinator.entryRecords, CanonicalWal.appendEntry_ok h.holds.initialized]
  by_cases hItem : Acceptable item
  · rw [itemValidationError_eq_none_iff.mpr hItem, if_pos hItem]
  · obtain ⟨message, hMessage⟩ := Option.ne_none_iff_exists'.mp (mt itemValidationError_eq_none_iff.mp hItem)
    rw [hMessage, if_neg hItem]

theorem appendedMarker_eq (h : c.Live segments) :
    appendedMarker c = [(c.canonical.nextLsn, .rotate (c.metaState.generation + 1))] := by
  rw [appendedMarker, Coordinator.appendMarker_ok h]

/-- What the next life finds does not depend on whether the crash came before the answer. -/
theorem interruptedAdd_restart (h : c.Live segments) (item : JsString) :
    (interruptedAdd c item).restart = (c.add none (.ok ()) none item).1.restart := by
  rw [interruptedAdd, h.running, if_neg Bool.false_ne_true]
  by_cases hItem : Acceptable item
  · rw [itemValidationError_eq_none_iff.mpr hItem, Coordinator.add_sent h hItem (Or.inr rfl),
      CanonicalWal.appendEntry_ok h.holds.initialized]
    rfl
  · obtain ⟨message, hMessage⟩ := Option.ne_none_iff_exists'.mp (mt itemValidationError_eq_none_iff.mp hItem)
    rw [hMessage, Coordinator.add_refused hItem]

theorem endures_apply (h : c.Endures segments old) (a : Action) :
    ∃ segments', (apply c a).Endures segments' (old ++ appended c a) := by
  cases a with
  | crashInAdd item =>
      obtain ⟨segments', hEndures⟩ := h.add (.ok ()) item
      rw [apply, interruptedAdd_restart h.live, appended, appendedEntry_eq h.live]
      exact ⟨segments', hEndures.restart⟩
  | step a =>
      cases a with
      | add item applied =>
          rw [appended, appendedEntry_eq h.live]
          exact h.add applied item
      | rotation unlinkFails =>
          rw [appended, appendedMarker_eq h.live]
          exact h.rotation unlinkFails
      | crash => exact ⟨segments, (List.append_nil old).symm ▸ h.restart⟩
      | crashAfterMarker =>
          rw [appended, appendedMarker_eq h.live]
          exact ⟨_, h.restart_appendMarker⟩
      | crashInRetention unlinkFails unlinked =>
          obtain ⟨segments', hEndures⟩ := h.retention unlinkFails (List.take_subset unlinked _)
          rw [← CoordinatorRestart.interrupted_eq h.live] at hEndures
          rw [appended, appendedMarker_eq h.live]
          exact ⟨segments', hEndures.restart⟩
      | shutdown => exact ⟨segments, (List.append_nil old).symm ▸ h.shutdown_restart⟩

theorem endures_run (h : c.Endures segments old) (actions : List Action) :
    ∃ segments', (run c actions).Endures segments' (old ++ history c actions) := by
  induction actions generalizing c segments old with
  | nil => exact ⟨segments, (List.append_nil old).symm ▸ h⟩
  | cons a rest ih =>
      obtain ⟨middle, hStep⟩ := endures_apply h a
      obtain ⟨segments', hRest⟩ := ih hStep
      exact ⟨segments', by rwa [history, ← List.append_assoc]⟩

/-- A run from an empty directory keeps everything it has appended. -/
theorem endures_start (id walDir : String) (actions : List Action) :
    ∃ segments, (run (CoordinatorRestart.start id walDir) actions).Endures segments
      (history (CoordinatorRestart.start id walDir) actions) := by
  have hRun := endures_run (Coordinator.keeps_init id walDir).toEndures actions
  rwa [List.nil_append] at hRun

/-- A read above an LSN shows every later LSN once, in order. -/
theorem lsns_readSince (h : c.Endures segments old) {fromLsn : Nat}
    (hServed : c.canServeFrom fromLsn = true) :
    ∃ events, c.readSince fromLsn 0 = .ok events ∧
      events.map CanonicalEvent.lsn = List.range' (fromLsn + 1) (c.lastLsn - fromLsn) := by
  obtain ⟨events, hRead, hMap⟩ := h.readSince hServed 0
  refine ⟨events, hRead, ?_⟩
  calc events.map CanonicalEvent.lsn = (events.map CanonicalEvent.record).map Prod.fst := by
        simp [Function.comp_def]
    _ = (old.drop fromLsn).map Prod.fst := by
        rw [hMap, page, if_neg (Nat.lt_irrefl 0), h.filter_eq_drop]
    _ = List.range' (fromLsn + 1) (c.lastLsn - fromLsn) := by
        rw [List.map_drop, h.lsns, List.drop_range', h.lastLsn_eq]
        simp [Nat.add_comm]

/-- A record above what was deleted is still in the files. -/
theorem event_of_lt (h : c.Endures segments old) {r : LogRecord} (hr : r ∈ old)
    (hLt : c.metaState.lastBackupLsn < r.1) : ∃ event ∈ c.canonical.events, event.record = r := by
  have hMem : r ∈ (Segment.log segments).filter fun r => c.metaState.lastBackupLsn < r.1 := by
    rw [h.retained _ h.deleted]
    exact List.mem_filter.mpr ⟨hr, by simpa using hLt⟩
  exact h.live.holds.mem_log.mp (List.mem_filter.mp hMem).1

/-- In every state of every run: from where the coordinator says it can serve, it serves
every later LSN once and in order, and nothing above the consistency point was deleted,
be it the one in memory or the one in the meta file. -/
theorem served_and_retained (id walDir : String) (actions : List Action) :
    (∀ fromLsn, (run (CoordinatorRestart.start id walDir) actions).canServeFrom fromLsn = true →
      fromLsn ≤ (run (CoordinatorRestart.start id walDir) actions).lastLsn →
      ∃ events, (run (CoordinatorRestart.start id walDir) actions).readSince fromLsn 0 = .ok events ∧
        events.map CanonicalEvent.lsn = List.range' (fromLsn + 1)
          ((run (CoordinatorRestart.start id walDir) actions).lastLsn - fromLsn)) ∧
      ∀ r ∈ history (CoordinatorRestart.start id walDir) actions,
        (run (CoordinatorRestart.start id walDir) actions).metaState.lastBackupLsn < r.1 ∨
          (Meta.read (run (CoordinatorRestart.start id walDir) actions).metaFile).lastBackupLsn < r.1 →
        ∃ event ∈ (run (CoordinatorRestart.start id walDir) actions).canonical.events, event.record = r := by
  obtain ⟨segments, hEndures⟩ := endures_start id walDir actions
  refine ⟨fun fromLsn hServed _ => lsns_readSince hEndures hServed, fun r hr hAbove => ?_⟩
  obtain ⟨lastLsn, hFile, -⟩ := hEndures.saved
  rw [hFile] at hAbove
  exact event_of_lt hEndures hr (or_self_iff.mp hAbove)

/-- A revocation, a crash between the marker of a rotation and its checkpoint, a second
revocation: both are served to a node that has neither. -/
theorem served_and_retained_crash :
    ∃ events, (run (CoordinatorRestart.start "r" "canonical") [.step (.add [0x61] (.ok ())),
      .step .crashAfterMarker, .crashInAdd [0x62]]).readSince 0 0 = .ok events ∧
      events.map CanonicalEvent.lsn = [1, 2, 3] :=
  (served_and_retained "r" "canonical" [.step (.add [0x61] (.ok ())), .step .crashAfterMarker,
    .crashInAdd [0x62]]).1 0 (by decide) (by decide)

/-- Over all lives, every append gets a higher LSN than all appends before it, and the markers
start the generations 1, 2, 3 and so on. LSNs may be left out, by appends that fail. -/
theorem history_ascending (id walDir : String) (actions : List Action) :
    (history (CoordinatorRestart.start id walDir) actions).Pairwise (fun r r' => r.1 < r'.1) ∧
      markersOf (history (CoordinatorRestart.start id walDir) actions) =
        List.range' 1 (markersOf (history (CoordinatorRestart.start id walDir) actions)).length := by
  obtain ⟨segments, hEndures⟩ := endures_start id walDir actions
  constructor
  · rw [← List.pairwise_map (f := Prod.fst) (R := fun lsn lsn' => lsn < lsn'), hEndures.lsns]
    exact List.pairwise_lt_range'
  · rw [hEndures.markers, List.length_range']

end TokenRevoker.CoordinatorLives
