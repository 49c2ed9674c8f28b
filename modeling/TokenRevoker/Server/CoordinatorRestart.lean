import TokenRevoker.Server.CanonicalHistory

/-! Snapshots of a coordinator that crashes and restarts. The generation is recovered
from the log, the consistency point from the meta file: after a crash between the two
writes of a rotation they describe different moments. -/
namespace TokenRevoker.CoordinatorRestart

open Text

inductive Action where
  | add (item : JsString) (applied : Except RevokerError Unit)
  | rotation (unlinkFails : Nat → Bool)
  | crash
  | crashAfterMarker
  | crashInRetention (unlinkFails : Nat → Bool) (unlinked : Nat)
  | shutdown

/-- The coordinator in the middle of its retention. -/
def interrupted (c : Coordinator) (unlinkFails : Nat → Bool) (unlinked : Nat) : Coordinator :=
  let rotateLsn := c.canonical.nextLsn
  let saved := ((c.appendMarker none).1.checkpoint none rotateLsn).1
  let doomed := saved.canonical.doomed (saved.metaState.generation - 1) rotateLsn unlinkFails
  { saved with canonical := (doomed.take unlinked).foldl CanonicalWal.unlink saved.canonical }

/-- A crash ends in the restart after it. -/
def apply (c : Coordinator) : Action → Coordinator
  | .add item applied => (c.add none applied none item).1
  | .rotation unlinkFails => (c.onCoreRotation none none unlinkFails).1
  | .crash => c.restart
  | .crashAfterMarker => (c.appendMarker none).1.restart
  | .crashInRetention unlinkFails unlinked => (interrupted c unlinkFails unlinked).restart
  | .shutdown => (c.shutdown none).1.restart

def run (c : Coordinator) (actions : List Action) : Coordinator := actions.foldl apply c

def start (id walDir : String) : Coordinator := Coordinator.init id walDir [] none

/-- No crash comes between the marker of a rotation and its checkpoint. -/
def Action.Checkpointed : Action → Prop
  | .crashAfterMarker => False
  | _ => True

variable {c : Coordinator} {segments : List Segment} {history : List LogRecord}

theorem interrupted_eq (h : c.Live segments) (unlinkFails : Nat → Bool) (unlinked : Nat) :
    interrupted c unlinkFails unlinked = { c with
      canonical := ((c.markedLog.doomed c.metaState.generation c.canonical.nextLsn unlinkFails).take
        unlinked).foldl CanonicalWal.unlink c.markedLog
      metaState := c.markedState
      metaFile := some c.markedState } := by
  simp only [interrupted, Coordinator.appendMarker_ok h, Coordinator.checkpoint]
  rfl

/-- A step only adds to the history. -/
theorem keeps_apply (h : c.Keeps segments history) {a : Action} (ha : a.Checkpointed) :
    ∃ segments' more, (apply c a).Keeps segments' (history ++ more) := by
  cases a with
  | add item applied =>
      obtain ⟨segments', hKeeps⟩ := h.add applied item
      exact ⟨segments', _, hKeeps⟩
  | rotation unlinkFails =>
      obtain ⟨segments', hKeeps⟩ := h.rotation unlinkFails
      exact ⟨segments', _, hKeeps⟩
  | crash =>
      refine ⟨segments, [], ?_⟩
      rw [List.append_nil]
      exact h.restart
  | crashAfterMarker => exact absurd ha id
  | crashInRetention unlinkFails unlinked =>
      obtain ⟨segments', hKeeps⟩ := h.retention unlinkFails (List.take_subset unlinked _)
      rw [← interrupted_eq h.live] at hKeeps
      exact ⟨segments', _, hKeeps.restart⟩
  | shutdown =>
      refine ⟨segments, [], ?_⟩
      rw [List.append_nil]
      exact h.shutdown_restart

theorem keeps_run (h : c.Keeps segments history) {actions : List Action}
    (hActions : ∀ a ∈ actions, a.Checkpointed) :
    ∃ segments' more, (run c actions).Keeps segments' (history ++ more) := by
  induction actions generalizing c segments history with
  | nil => exact ⟨segments, [], (List.append_nil history).symm ▸ h⟩
  | cons a rest ih =>
      obtain ⟨middle, first, hStep⟩ := keeps_apply h (hActions a (by simp))
      obtain ⟨segments', more, hRest⟩ := ih hStep fun b hb => hActions b (by simp [hb])
      exact ⟨segments', first ++ more, by rwa [← List.append_assoc]⟩

/-- From the last marker of an earlier state on, the markers go on from its generation. -/
theorem markers_above (h : c.Keeps segments history) {later : Coordinator} {segments' : List Segment}
    {more : List LogRecord} (hLater : later.Keeps segments' (history ++ more)) :
    markersOf ((history ++ more).filter fun r => c.metaState.lastBackupLsn < r.1) =
      List.range' (c.metaState.generation + 1) (markersOf more).length := by
  have hOld : markersOf (history.filter fun r => c.metaState.lastBackupLsn < r.1) = [] := by
    refine markersOf_eq_nil_iff.mpr fun r hr generation hRotate => ?_
    have hMem := List.mem_filter.mp hr
    have hLe := h.lastMarker r hMem.1 generation hRotate
    simp only [decide_eq_true_eq] at hMem
    omega
  have hMore : more.filter (fun r => c.metaState.lastBackupLsn < r.1) = more := by
    refine List.filter_eq_self.mpr fun r hr => ?_
    have hLt := hLater.lt_of_mem_more rfl hr
    have hLe := h.backup_le
    simp only [decide_eq_true_eq]
    omega
  have hAll := hLater.markers
  rw [markersOf_append, h.markers] at hAll
  have hLength := congrArg List.length hAll
  simp only [List.length_append, List.length_range'] at hLength
  rw [← hLength, ← List.range'_append_1] at hAll
  rw [List.filter_append, markersOf_append, hOld, hMore, List.nil_append,
    Nat.add_comm c.metaState.generation 1]
  exact List.append_cancel_left hAll

/-- As long as no crash separates a marker from its checkpoint: a snapshot's tail can be served
when the snapshot is taken, and whenever it can be served, its markers carry the generations
that follow the snapshot's. That it can be served later is not said, as retention goes on. -/
theorem tail_matches_snapshot (id walDir : String) (before : List Action)
    (hBefore : ∀ a ∈ before, a.Checkpointed) {g : Geometry} (config : FilterConfig)
    (current : Option (SizedFilter g)) (disk : Disk) {snapshot : SnapshotData}
    (hSnapshot : (run (start id walDir) before).getSnapshot config current disk = .ok snapshot) :
    (run (start id walDir) before).canServeFrom snapshot.lastBackupLsn = true ∧
      ∀ after : List Action, (∀ a ∈ after, a.Checkpointed) →
        (run (start id walDir) (before ++ after)).canServeFrom snapshot.lastBackupLsn = true →
        ∃ events, (run (start id walDir) (before ++ after)).readSince snapshot.lastBackupLsn 0 = .ok events ∧
          eventMarkers events = List.range' (snapshot.generation + 1) (eventMarkers events).length := by
  obtain ⟨segments, history, hKeeps⟩ := keeps_run (Coordinator.keeps_init id walDir) hBefore
  rw [List.nil_append] at hKeeps
  have hRun : ∀ after, run (start id walDir) (before ++ after) = run (run (start id walDir) before) after :=
    fun after => List.foldl_append
  simp only [hRun]
  have hFields : snapshot.generation = (run (start id walDir) before).metaState.generation ∧
      snapshot.lastBackupLsn = (run (start id walDir) before).metaState.lastBackupLsn := by
    cases current with
    | none => cases hSnapshot
    | some filter =>
        cases hSnapshot
        exact ⟨rfl, rfl⟩
  rw [hFields.1, hFields.2]
  refine ⟨hKeeps.canServeFrom, fun after hAfter hServed => ?_⟩
  obtain ⟨segments', more, hLater⟩ := keeps_run hKeeps hAfter
  obtain ⟨events, hRead, hMap⟩ := hLater.readSince hServed 0
  have hMarkers : eventMarkers events = List.range'
      ((run (start id walDir) before).metaState.generation + 1) (markersOf more).length := by
    rw [eventMarkers_eq, hMap, page, if_neg (Nat.lt_irrefl 0)]
    exact markers_above hKeeps hLater
  refine ⟨events, hRead, ?_⟩
  rw [hMarkers, List.length_range']

/-- One revocation, a rotation, a crash inside the retention of a second rotation. -/
theorem tail_matches_snapshot_crash :
    (run (start "r" "canonical") [.add [0x61] (.ok ()), .rotation fun _ => false,
      .crashInRetention (fun _ => false) 1]).canServeFrom 3 = true :=
  (tail_matches_snapshot "r" "canonical" [.add [0x61] (.ok ()), .rotation fun _ => false,
      .crashInRetention (fun _ => false) 1] (by simp [Action.Checkpointed]) ⟨1, 1 / 10, 60⟩
    (some (SizedFilter.create Geometry.oneBucket)) {} rfl).1

/-- A crash between the first marker and its checkpoint: the snapshot says generation 1
from LSN 0 on, and the first marker after LSN 0 starts generation 1, not 2. -/
theorem not_tail_matches_crash_after_marker :
    ¬ ∀ (id walDir : String) (before : List Action) (g : Geometry) (config : FilterConfig)
      (current : Option (SizedFilter g)) (disk : Disk) (snapshot : SnapshotData),
      (run (start id walDir) before).getSnapshot config current disk = .ok snapshot →
      ∃ events, (run (start id walDir) before).readSince snapshot.lastBackupLsn 0 = .ok events ∧
        eventMarkers events = List.range' (snapshot.generation + 1) (eventMarkers events).length := by
  intro h
  obtain ⟨events, hRead, hMarkers⟩ := h "r" "canonical" [.crashAfterMarker] Geometry.oneBucket
    ⟨1, 1 / 10, 60⟩ (some (SizedFilter.create Geometry.oneBucket)) {} _ rfl
  have hEvents : (run (start "r" "canonical") [.crashAfterMarker]).canonical.events = [.rotate 1 1] := by
    decide
  have hTail : (run (start "r" "canonical") [.crashAfterMarker]).readSince 0 0 = .ok [.rotate 1 1] := by
    rw [Coordinator.readSince, CanonicalWal.readSince_eq rfl, hEvents]
    show Except.ok (page 0 (KeyedLog.ordered CanonicalEvent.lsn [.rotate 1 1])) = _
    rw [KeyedLog.ordered_eq_self (List.pairwise_singleton _ _)]
    rfl
  obtain rfl := Except.ok.inj (hTail.symm.trans hRead)
  exact absurd hMarkers (by decide)

end TokenRevoker.CoordinatorRestart
