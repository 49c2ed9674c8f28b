import TokenRevoker.Core.Rotation
import TokenRevoker.Server.CoordinatorLives

/-! A coordinator that starts replays the end of its canonical log into the filter that core
restored. Whatever core lost, the filter then has every revocation after the last consistency
point; and nothing is inserted but the entries that the filter had not refused. -/
namespace TokenRevoker

open Text SignatureFilter

/-- `REPLAY_BATCH_LIMIT`. -/
def replayBatchLimit : Nat := 1000000

/-- The items that a replay applies: those that were not tombstoned. -/
def liveItems (events : List CanonicalEvent) : List JsString :=
  events.filterMap fun
    | .entry _ _ item => some item
    | _ => none

namespace Rotations

variable {g : Geometry}

/-- The loop of `#replayCanonicalTail`, with what `backupItem` does at each LSN. -/
def replayEvents (backupItem : Nat → Except String Unit) :
    List CanonicalEvent → Rotations g → Except RevokerError (Rotations g)
  | [], revoker => .ok revoker
  | .entry lsn _ item :: rest, revoker =>
      match revoker.manager.applyEntry (revoker.persist (backupItem lsn)) item with
      | (_, .error error) => .error error
      | (manager, .ok ()) => replayEvents backupItem rest { revoker with manager := manager }
  | .tombstone _ _ _ :: rest, revoker | .rotate _ _ :: rest, revoker =>
      -- the filter must not get what it refused, and core's restore reflects the rotations
      replayEvents backupItem rest revoker

variable {backupItem : Nat → Except String Unit} {events : List CanonicalEvent} {s t : Rotations g}
  {lsn generation : Nat} {x : JsString}

/-- What a replay leaves as it was. -/
structure Replayed (s t : Rotations g) : Prop where
  backup : t.backup = s.backup
  idle : t.waiting = s.waiting ∧ t.suspended = s.suspended
  current : s.manager.current.isSome → t.manager.current.isSome
  running : t.manager.shuttingDown = s.manager.shuttingDown
  completed : t.completed = s.completed

theorem Replayed.refl (s : Rotations g) : Replayed s s := ⟨rfl, ⟨rfl, rfl⟩, id, rfl, rfl⟩

theorem Replayed.trans {u : Rotations g} (h : Replayed s t) (h' : Replayed t u) : Replayed s u :=
  ⟨h'.backup.trans h.backup, ⟨h'.idle.1.trans h.idle.1, h'.idle.2.trans h.idle.2⟩,
    fun hCurrent => h'.current (h.current hCurrent), h'.running.trans h.running,
    h'.completed.trans h.completed⟩

/-- One entry of a replay. -/
theorem replayed_applyEntry {outcome : Except String Unit}
    (hOk : (s.manager.applyEntry outcome x).2 = .ok ()) :
    Replayed s { s with manager := (s.manager.applyEntry outcome x).1 } ∧
      Manager.Inserted s.manager (s.manager.applyEntry outcome x).1 x := by
  have hInserted := Manager.applyEntry_of_ok hOk
  refine ⟨⟨rfl, ⟨rfl, rfl⟩, fun hCurrent => ?_, hInserted.shuttingDown, applyEntry_rotations _ _ _⟩, hInserted⟩
  show (s.manager.applyEntry outcome x).1.current.isSome
  rw [hInserted.current, Option.isSome_map]
  exact hCurrent

/-- A replay that succeeds inserts the items that were not tombstoned, in order. -/
theorem replayEvents_ok (hCurrent : s.manager.current.isSome) (hOk : replayEvents backupItem events s = .ok t) :
    Replayed s t ∧ t.manager.window =
      ⟨(liveItems events).foldl (insert (SizedFilter.signature g)) s.manager.window.current,
        s.manager.window.previous⟩ := by
  induction events generalizing s with
  | nil =>
      cases hOk
      exact ⟨Replayed.refl _, rfl⟩
  | cons event rest ih =>
      cases event with
      | tombstone | rotate => exact ih hCurrent hOk
      | entry lsn generation item =>
          rw [replayEvents] at hOk
          rcases hApply : s.manager.applyEntry (s.persist (backupItem lsn)) item with ⟨manager, error | _⟩
          · rw [hApply] at hOk
            cases hOk
          · rw [hApply] at hOk
            have hSecond : (s.manager.applyEntry (s.persist (backupItem lsn)) item).2 = .ok () := by
              rw [hApply]
            obtain ⟨hStep, hInserted⟩ := replayed_applyEntry hSecond
            rw [hApply] at hStep hInserted
            obtain ⟨hRest, hWindow⟩ := ih (hStep.current hCurrent) hOk
            refine ⟨hStep.trans hRest, ?_⟩
            rw [hWindow, hInserted.window hCurrent]
            rfl

/-- An entry that was replayed is in the current filter. -/
theorem replayEvents_holds (hCurrent : s.manager.current.isSome)
    (hOk : replayEvents backupItem events s = .ok t) (hMem : .entry lsn generation x ∈ events) :
    Holds t.completed x t := by
  obtain ⟨hReplayed, hWindow⟩ := replayEvents_ok hCurrent hOk
  have hLive : x ∈ liveItems events := List.mem_filterMap.mpr ⟨_, hMem, rfl⟩
  refine ⟨hReplayed.current hCurrent, Nat.le_refl _, ?_⟩
  rw [Nat.sub_self, hWindow]
  exact covers_foldl_insert hLive

end Rotations

section Buried

/-- There is a tombstone for this LSN in the files. -/
def CanonicalWal.Buries (wal : CanonicalWal) (lsn : Nat) : Prop :=
  ∃ x generation, .tombstone lsn generation x ∈ wal.events

variable {wal : CanonicalWal} {segments : List Segment} {c : Coordinator} {old : List LogRecord}
  {lsn : Nat}

theorem CanonicalWal.Holds.buries_iff (h : wal.Holds segments) :
    wal.Buries lsn ↔ ∃ x, .tombstone lsn x ∈ (segments.flatMap Segment.lines).map Line.wellFormed :=
  exists_congr fun _ => h.exists_tombstone_iff

/-- Lines for another LSN bury nothing under this one. -/
theorem CanonicalWal.Holds.buries_written (h : wal.Holds segments) {lines : List Line} {next generation : Nat}
    (hWritten : (wal.written lines next generation).Holds (Segment.push wal.generation lines segments))
    (hOther : ∀ x, .tombstone lsn x ∉ lines) (hBuries : (wal.written lines next generation).Buries lsn) :
    wal.Buries lsn := by
  obtain ⟨x, hMem⟩ := hWritten.buries_iff.mp hBuries
  rw [Segment.flatMap_lines_push h.newest h.sorted, List.map_append, List.mem_append] at hMem
  rcases hMem with hOld | hNew
  · exact h.buries_iff.mpr ⟨x, hOld⟩
  · obtain ⟨line, hLine, hEq⟩ := List.mem_map.mp hNew
    cases line with
    | entry | rotate => cases hEq
    | tombstone lsn' y =>
        cases hEq
        exact absurd hLine (hOther y)

theorem CanonicalWal.buries_foldl_unlink {doomed : List (Nat × Bytes)}
    (h : (doomed.foldl CanonicalWal.unlink wal).Buries lsn) : wal.Buries lsn := by
  obtain ⟨x, generation, hMem⟩ := h
  rw [CanonicalWal.foldl_unlink, CanonicalWal.events] at hMem
  obtain ⟨file, hFile, hEvent⟩ := List.mem_flatMap.mp hMem
  exact ⟨x, generation, List.mem_flatMap.mpr ⟨file, (List.mem_filter.mp hFile).1, hEvent⟩⟩

namespace Coordinator

theorem buries_add (h : c.Endures segments old) {applied : Except RevokerError Unit} {item : JsString}
    (hLsn : lsn ≠ c.canonical.nextLsn ∨ applied = .ok ())
    (hBuries : (c.add none applied none item).1.canonical.Buries lsn) : c.canonical.Buries lsn := by
  by_cases hItem : Acceptable item
  · rw [add_sent h.live hItem (Or.inr rfl)] at hBuries
    refine h.live.holds.buries_written (h.entry hItem applied []).live.holds ?_ hBuries
    intro x hLine
    cases applied with
    | ok => simp [entryLines] at hLine
    | error =>
        rcases hLsn with hNe | hOk
        · exact hNe (lsn_marker_entryLines hLine).1
        · cases hOk
  · rwa [add_refused hItem] at hBuries

theorem buries_markedLog (h : c.Endures segments old) (hBuries : c.markedLog.Buries lsn) :
    c.canonical.Buries lsn :=
  h.live.holds.buries_written h.live.holds_markedLog (by simp) hBuries

/-- Only the `add` that took an LSN buries it. -/
theorem buries_apply (h : c.Endures segments old) (a : CoordinatorLives.Action)
    (hLsn : lsn ≠ c.canonical.nextLsn) (hBuries : (CoordinatorLives.apply c a).canonical.Buries lsn) :
    c.canonical.Buries lsn := by
  cases a with
  | crashInAdd item =>
      rw [CoordinatorLives.apply, CoordinatorLives.interruptedAdd_restart h.live] at hBuries
      exact buries_add h (Or.inl hLsn) hBuries
  | step a =>
      cases a with
      | add item applied => exact buries_add h (Or.inl hLsn) hBuries
      | rotation unlinkFails =>
          simp only [CoordinatorLives.apply, CoordinatorRestart.apply, rotation_sent h.live] at hBuries
          exact buries_markedLog h (CanonicalWal.buries_foldl_unlink hBuries)
      | crash => exact hBuries
      | crashAfterMarker =>
          simp only [CoordinatorLives.apply, CoordinatorRestart.apply, appendMarker_ok h.live] at hBuries
          exact buries_markedLog h hBuries
      | crashInRetention unlinkFails unlinked =>
          simp only [CoordinatorLives.apply, CoordinatorRestart.apply,
            CoordinatorRestart.interrupted_eq h.live] at hBuries
          exact buries_markedLog h (CanonicalWal.buries_foldl_unlink hBuries)
      | shutdown =>
          simp only [CoordinatorLives.apply, CoordinatorRestart.apply, shutdown, h.live.running] at hBuries
          exact hBuries

end Coordinator

end Buried

namespace Coordinator

variable {g : Geometry} {c : Coordinator} {segments : List Segment} {old : List LogRecord} {lsn : Nat}
  {x : JsString} {backupItem : Nat → Except String Unit} {revoker t : Rotations g}

/-- `#replayCanonicalTail`, into the revoker that `#createRevoker` has made. -/
def replayCanonicalTail (c : Coordinator) (backupItem : Nat → Except String Unit) (revoker : Rotations g) :
    Except RevokerError (Rotations g) :=
  match c.readSince c.metaState.lastBackupLsn replayBatchLimit with
  | .error error => .error error
  | .ok tail => revoker.replayEvents backupItem tail

/-- The tail that a start replays can be read, and its items can be applied. -/
theorem Endures.tail (h : c.Endures segments old) :
    ∃ tail, c.readSince c.metaState.lastBackupLsn replayBatchLimit = .ok tail ∧
      tail.map CanonicalEvent.record = (old.drop c.metaState.lastBackupLsn).take replayBatchLimit := by
  obtain ⟨tail, hRead, hMap⟩ := h.readSince h.canServeFrom replayBatchLimit
  refine ⟨tail, hRead, ?_⟩
  rw [hMap, h.filter_eq_drop, page, if_pos (by decide)]

/-- The tail has every entry above the consistency point, up to the limit. -/
theorem Endures.mem_tail (h : c.Endures segments old) {r : LogRecord} (hr : r ∈ old)
    (hAbove : c.metaState.lastBackupLsn < r.1)
    (hLimit : r.1 ≤ c.metaState.lastBackupLsn + replayBatchLimit) :
    r ∈ (old.drop c.metaState.lastBackupLsn).take replayBatchLimit := by
  obtain ⟨index, hLength, rfl⟩ := List.mem_iff_getElem.mp hr
  have hLsn : old[index].1 = index + 1 := by
    have hMap := congrArg (·[index]?) h.lsns
    simp only [List.getElem?_map, List.getElem?_eq_getElem hLength, Option.map_some,
      List.getElem?_range' hLength] at hMap
    have := Option.some.inj hMap
    omega
  rw [hLsn] at hAbove hLimit
  have hSplit : index = c.metaState.lastBackupLsn + (index - c.metaState.lastBackupLsn) := by omega
  refine List.mem_iff_getElem?.mpr ⟨index - c.metaState.lastBackupLsn, ?_⟩
  rw [List.getElem?_take_of_lt (by omega), List.getElem?_drop, ← hSplit]
  exact List.getElem?_eq_getElem hLength

/-- After a replay the filter has every entry above the consistency point that is not buried. -/
theorem Endures.replayed (h : c.Endures segments old) (hEntry : (lsn, .entry x) ∈ old)
    (hKept : ¬ c.canonical.Buries lsn) (hAbove : c.metaState.lastBackupLsn < lsn)
    (hLimit : lsn ≤ c.metaState.lastBackupLsn + replayBatchLimit) (hCurrent : revoker.manager.current.isSome)
    (hOk : c.replayCanonicalTail backupItem revoker = .ok t) : Rotations.Holds t.completed x t := by
  obtain ⟨tail, hRead, hRecords⟩ := h.tail
  rw [replayCanonicalTail, hRead] at hOk
  have hRecord := h.mem_tail hEntry hAbove hLimit
  rw [← hRecords] at hRecord
  obtain ⟨event, hEvent, hRecord⟩ := List.mem_map.mp hRecord
  cases event with
  | rotate => cases hRecord
  | tombstone lsn' generation item =>
      cases hRecord
      exact absurd ⟨x, generation, (CanonicalWal.mem_readSince hRead hEvent).1⟩ hKept
  | entry lsn' generation item =>
      cases hRecord
      exact Rotations.replayEvents_holds hCurrent hOk hEvent

end Coordinator

/-- A coordinator that has started, and the manager of its revoker. -/
structure RecoveringCoordinator (g : Geometry) where
  coordinator : Coordinator
  revoker : Rotations g
  deriving DecidableEq

/-- Not a call that inserts: of those, the coordinator makes one in `add` and the others when
it starts. -/
def Rotations.Action.isInternal : Rotations.Action → Bool
  | .add _ _ | .applyEntry _ _ => false
  | _ => true

namespace RecoveringCoordinator

variable {g : Geometry}

/-- A restart finds whatever core restored from its own files, and persists the items that
it replays, or fails to. -/
inductive Action (g : Geometry) where
  | add (item : JsString) (backupItem : Except String Unit)
  | core (action : Rotations.Action) (unlinkFails : Nat → Bool)
  | restart (stop : CoordinatorLives.Action) (restoredCurrent restoredPrevious : Option (SizedFilter g))
      (backupItem : Nat → Except String Unit)

/-- `Coordinator.add` on its own filter, where the log can be appended to. -/
def add (s : RecoveringCoordinator g) (item : JsString) (backupItem : Except String Unit) :
    RecoveringCoordinator g × Except RevokerError AddResult :=
  let applied := s.revoker.manager.add (s.revoker.persist backupItem) item
  let added := s.coordinator.add none applied.2 none item
  match added.2 with
  | .error error => ({ s with coordinator := added.1 }, .error error)
  | .ok result => (⟨added.1, { s.revoker with manager := applied.1 }⟩, .ok result)

/-- `init` in a directory without a log. -/
def start (g : Geometry) (id walDir : String) (numItems : Nat)
    (restoredCurrent restoredPrevious : Option (SizedFilter g)) : RecoveringCoordinator g where
  coordinator := CoordinatorRestart.start id walDir
  revoker := Rotations.start g numItems true restoredCurrent restoredPrevious

/-- `init` on the files that a life has left, `none` if the replay fails: then neither the
log nor the meta file is written, and the next start is on the same files. -/
def restart (numItems : Nat) (s : RecoveringCoordinator g) (stop : CoordinatorLives.Action)
    (restoredCurrent restoredPrevious : Option (SizedFilter g)) (backupItem : Nat → Except String Unit) :
    Option (RecoveringCoordinator g) :=
  let coordinator := CoordinatorLives.apply s.coordinator stop
  let created := Rotations.start g numItems true restoredCurrent restoredPrevious
  match coordinator.replayCanonicalTail backupItem created with
  | .error _ => none
  | .ok revoker => some ⟨coordinator, revoker⟩

/-- One synchronous stretch. The hook follows the rotation that has completed. -/
def step (numItems : Nat) (s : RecoveringCoordinator g) : Action g → Option (RecoveringCoordinator g)
  | .add item backupItem => some (s.add item backupItem).1
  | .core action unlinkFails =>
      if action.isInternal then
        (s.revoker.step action).map fun revoker =>
          if revoker.completed = s.revoker.completed then { s with revoker := revoker }
          else ⟨(s.coordinator.onCoreRotation none none unlinkFails).1, revoker⟩
      else none
  | .restart stop restoredCurrent restoredPrevious backupItem =>
      if stop.stops then s.restart numItems stop restoredCurrent restoredPrevious backupItem else none

def Steps (g : Geometry) (numItems : Nat) :
    RecoveringCoordinator g → Action g → RecoveringCoordinator g → Prop :=
  Transition.ofStep (step numItems)

/-- The process ends here. -/
def Action.restarts : Action g → Bool
  | .restart .. => true
  | _ => false

/-- What an action is in the lives of the coordinator alone. -/
def life (s : RecoveringCoordinator g) : Action g → List CoordinatorLives.Action
  | .add item backupItem => [.step (.add item (s.revoker.manager.add (s.revoker.persist backupItem) item).2)]
  | .core action unlinkFails =>
      if (s.revoker.step action).any fun revoker => revoker.completed != s.revoker.completed then
        [.step (.rotation unlinkFails)]
      else []
  | .restart stop _ _ _ => [stop]

/-- What a run is in the lives of the coordinator alone. -/
def lives (numItems : Nat) : RecoveringCoordinator g → List (Action g) → List CoordinatorLives.Action
  | _, [] => []
  | s, a :: rest => s.life a ++ ((step numItems s a).map fun t => lives numItems t rest).getD []

variable {numItems : Nat} {s t : RecoveringCoordinator g} {a : Action g} {lsn : Nat} {x : JsString}
  {restoredCurrent restoredPrevious : Option (SizedFilter g)}

/-- A step is a step of the coordinator's life, with one of the manager, or a new life. -/
inductive Effect (s : RecoveringCoordinator g) (a : Action g) (t : RecoveringCoordinator g) : Prop where
  | added (item : JsString) (backupItem : Except String Unit)
      (coordinator : t.coordinator = (s.coordinator.add none
        (s.revoker.manager.add (s.revoker.persist backupItem) item).2 none item).1)
      (revoker : t.revoker = s.revoker ∨ s.revoker.step (.add item backupItem) = some t.revoker)
  | served (action : Rotations.Action) (coordinator : t.coordinator = s.coordinator)
      (revoker : s.revoker.step action = some t.revoker) (count : t.revoker.completed = s.revoker.completed)
  | rotated (action : Rotations.Action) (unlinkFails : Nat → Bool)
      (coordinator : t.coordinator = (s.coordinator.onCoreRotation none none unlinkFails).1)
      (revoker : s.revoker.step action = some t.revoker)
  | restarted (stop : CoordinatorLives.Action) (backupItem : Nat → Except String Unit) (created : Rotations g)
      (restarts : a.restarts = true) (current : created.manager.current.isSome)
      (coordinator : t.coordinator = CoordinatorLives.apply s.coordinator stop)
      (revoker : t.coordinator.replayCanonicalTail backupItem created = .ok t.revoker)

theorem restart_eq_some {stop : CoordinatorLives.Action} {backupItem : Nat → Except String Unit}
    (h : s.restart numItems stop restoredCurrent restoredPrevious backupItem = some t) :
    t.coordinator = CoordinatorLives.apply s.coordinator stop ∧ t.coordinator.replayCanonicalTail backupItem
      (Rotations.start g numItems true restoredCurrent restoredPrevious) = .ok t.revoker := by
  rw [restart] at h
  split at h
  · cases h
  · rename_i revoker hOk
    cases h
    exact ⟨rfl, hOk⟩

theorem step_effect (h : Steps g numItems s a t) : Effect s a t := by
  cases a with
  | add item backupItem =>
      cases h
      refine .added item backupItem ?_ ?_
      · rw [add]
        dsimp only
        split <;> rfl
      · rw [add]
        dsimp only
        split
        · exact Or.inl rfl
        · exact Or.inr rfl
  | core action unlinkFails =>
      simp only [Steps, Transition.ofStep, step, Option.ite_none_right_eq_some] at h
      obtain ⟨revoker, hCore, rfl⟩ := Option.map_eq_some_iff.mp h.2
      by_cases hCount : revoker.completed = s.revoker.completed
      · rw [if_pos hCount]
        exact .served action rfl hCore hCount
      · rw [if_neg hCount]
        exact .rotated action unlinkFails rfl hCore
  | restart stop restoredCurrent restoredPrevious backupItem =>
      simp only [Steps, Transition.ofStep, step, Option.ite_none_right_eq_some] at h
      obtain ⟨hCoordinator, hRevoker⟩ := restart_eq_some h.2
      exact .restarted stop backupItem _ rfl (Rotations.start_current _ _ _ _) hCoordinator hRevoker

/-- The coordinator keeps its history, and the manager has its two filters. -/
structure Sound (s : RecoveringCoordinator g) : Prop where
  endures : ∃ segments old, s.coordinator.Endures segments old
  current : s.revoker.manager.current.isSome

theorem Replayed.current {c : Coordinator} {backupItem : Nat → Except String Unit} {created revoker : Rotations g}
    (hCurrent : created.manager.current.isSome)
    (hOk : c.replayCanonicalTail backupItem created = .ok revoker) : revoker.manager.current.isSome := by
  rw [Coordinator.replayCanonicalTail] at hOk
  split at hOk
  · cases hOk
  · exact (Rotations.replayEvents_ok hCurrent hOk).1.current hCurrent

theorem Effect.sound (effect : Effect s a t) (h : s.Sound) : t.Sound := by
  obtain ⟨segments, old, hEndures⟩ := h.endures
  cases effect with
  | added item backupItem hCoordinator hRevoker =>
      obtain ⟨segments', hNext⟩ := hEndures.add
        (s.revoker.manager.add (s.revoker.persist backupItem) item).2 item
      refine ⟨⟨segments', _, hCoordinator ▸ hNext⟩, ?_⟩
      rcases hRevoker with hSame | hStep
      · rw [hSame]
        exact h.current
      · exact Rotations.step_current hStep h.current
  | served action hCoordinator hStep =>
      exact ⟨⟨segments, old, hCoordinator ▸ hEndures⟩, Rotations.step_current hStep h.current⟩
  | rotated action unlinkFails hCoordinator hStep =>
      obtain ⟨segments', hNext⟩ := hEndures.rotation unlinkFails
      exact ⟨⟨segments', _, hCoordinator ▸ hNext⟩, Rotations.step_current hStep h.current⟩
  | restarted stop backupItem created hRestarts hCurrent hCoordinator hOk =>
      obtain ⟨segments', hNext⟩ := CoordinatorLives.endures_apply hEndures stop
      exact ⟨⟨segments', _, hCoordinator ▸ hNext⟩, Replayed.current hCurrent hOk⟩

theorem start_sound (id walDir : String) :
    (start g id walDir numItems restoredCurrent restoredPrevious).Sound where
  endures := ⟨[], [], (Coordinator.keeps_init id walDir).toEndures⟩
  current := Rotations.start_current _ _ _ _

/-- An entry of the log that was not refused. While it is above the consistency point, the
current filter has it. -/
structure Recorded (lsn : Nat) (x : JsString) (s : RecoveringCoordinator g) : Prop where
  endures : ∃ segments old, s.coordinator.Endures segments old ∧ (lsn, .entry x) ∈ old
  kept : ¬ s.coordinator.canonical.Buries lsn
  current : s.revoker.manager.current.isSome
  held : s.coordinator.metaState.lastBackupLsn < lsn →
    lsn ≤ s.coordinator.metaState.lastBackupLsn + replayBatchLimit →
    Rotations.Holds s.revoker.completed x s.revoker

theorem metaState_add {c : Coordinator} {segments : List Segment} {old : List LogRecord}
    (h : c.Endures segments old) (applied : Except RevokerError Unit) (item : JsString) :
    (c.add none applied none item).1.metaState = c.metaState := by
  by_cases hItem : Acceptable item
  · rw [Coordinator.add_sent h.live hItem (Or.inr rfl)]
  · rw [Coordinator.add_refused hItem]

theorem ne_nextLsn {c : Coordinator} {segments : List Segment} {old : List LogRecord}
    (h : c.Endures segments old) {r : LogRecord} (hr : r ∈ old) : r.1 ≠ c.canonical.nextLsn := by
  have hLe := h.le_length hr
  have hNext := h.next
  omega

theorem Effect.recorded (effect : Effect s a t) (h : Recorded lsn x s) : Recorded lsn x t := by
  obtain ⟨segments, old, hEndures, hEntry⟩ := h.endures
  have hNe : lsn ≠ s.coordinator.canonical.nextLsn := ne_nextLsn hEndures hEntry
  have hSound : t.Sound := effect.sound ⟨⟨segments, old, hEndures⟩, h.current⟩
  cases effect with
  | added item backupItem hCoordinator hRevoker =>
      obtain ⟨segments', hNext⟩ := hEndures.add
        (s.revoker.manager.add (s.revoker.persist backupItem) item).2 item
      rw [← hCoordinator] at hNext
      refine ⟨⟨segments', _, hNext, List.mem_append_left _ hEntry⟩, ?_, hSound.current, ?_⟩
      · rw [hCoordinator]
        exact fun hBuries => h.kept (Coordinator.buries_add hEndures (Or.inl hNe) hBuries)
      · rw [hCoordinator, metaState_add hEndures]
        intro hAbove hLimit
        rcases hRevoker with hSame | hStep
        · rw [hSame]
          exact h.held hAbove hLimit
        · rw [(Rotations.step_call hStep trivial).2.2.2]
          exact Rotations.step_holds (h.held hAbove hLimit) hStep
  | served action hCoordinator hStep hCount =>
      refine ⟨⟨segments, old, hCoordinator ▸ hEndures, hEntry⟩, hCoordinator ▸ h.kept, hSound.current, ?_⟩
      rw [hCoordinator, hCount]
      exact fun hAbove hLimit => Rotations.step_holds (h.held hAbove hLimit) hStep
  | rotated action unlinkFails hCoordinator hStep =>
      obtain ⟨segments', hNext⟩ := hEndures.rotation unlinkFails
      rw [← hCoordinator] at hNext
      refine ⟨⟨segments', _, hNext, List.mem_append_left _ hEntry⟩, ?_, hSound.current, ?_⟩
      · rw [hCoordinator]
        exact fun hBuries => h.kept
          (Coordinator.buries_apply hEndures (.step (.rotation unlinkFails)) hNe hBuries)
      · -- the marker is above every entry
        intro hAbove
        have hLe := hEndures.le_length hEntry
        have hLow := hEndures.next
        rw [hCoordinator, Coordinator.rotation_sent hEndures.live] at hAbove
        have hMarker : s.coordinator.markedState.lastBackupLsn = s.coordinator.canonical.nextLsn := rfl
        simp only [hMarker] at hAbove hLe
        omega
  | restarted stop backupItem created hRestarts hCurrent hCoordinator hOk =>
      obtain ⟨segments', hNext⟩ := CoordinatorLives.endures_apply hEndures stop
      have hKept : ¬ t.coordinator.canonical.Buries lsn := by
        rw [hCoordinator]
        exact fun hBuries => h.kept (Coordinator.buries_apply hEndures stop hNe hBuries)
      rw [← hCoordinator] at hNext
      have hMem := List.mem_append_left (CoordinatorLives.appended s.coordinator stop) hEntry
      exact ⟨⟨segments', _, hNext, hMem⟩, hKept, hSound.current, fun hAbove hLimit =>
        hNext.replayed hMem hKept hAbove hLimit hCurrent hOk⟩

/-- In one life, the manager goes on by its own steps. -/
theorem Effect.holds (effect : Effect s a t) (hAlive : a.restarts = false) {since : Nat}
    (h : Rotations.Holds since x s.revoker) : Rotations.Holds since x t.revoker := by
  cases effect with
  | added item backupItem hCoordinator hRevoker =>
      rcases hRevoker with hSame | hStep
      · rwa [hSame]
      · exact Rotations.step_holds h hStep
  | served action hCoordinator hStep => exact Rotations.step_holds h hStep
  | rotated action unlinkFails hCoordinator hStep => exact Rotations.step_holds h hStep
  | restarted stop backupItem created hRestarts => exact absurd hRestarts (hAlive ▸ Bool.false_ne_true)

end RecoveringCoordinator

end TokenRevoker
