import TokenRevoker.Node.ReplicaFeed

/-! A node as a copy of its coordinator's log. Whatever the channels do to the events on
their way, the two filters hold what the log says up to where the node has come, and two
nodes that have come equally far answer alike. -/
namespace TokenRevoker

open Text SignatureFilter LsnContiguity

variable {g : Geometry}

/-- The item of an entry. A marker has none. -/
def RevokerCall.entryItem : RevokerCall → Option JsString
  | .applyEntry item => some item
  | .rotateOnDemand => none

/-- The item of a record. -/
def LogRecord.entryItem (record : LogRecord) : Option JsString := record.2.call.entryItem

/-- The records up to an LSN. -/
def recordsUpTo (history : List LogRecord) (lsn : Nat) : List LogRecord := history.filter fun r => r.1 ≤ lsn

/-- The items of the records behind the last marker. -/
def currentItems (records : List LogRecord) : List JsString := latest (records.map LogRecord.entryItem)

/-- The items of the records between the last two markers. Those before the only marker
count as well. -/
def previousItems (records : List LogRecord) : List JsString :=
  latest (beforeLatest (records.map LogRecord.entryItem))

/-- The items between the last two markers and no others. -/
def itemsBetweenMarkers (records : List LogRecord) : List JsString :=
  if 2 ≤ (markersOf records).length then previousItems records else []

/-- The bits of these items. -/
def itemBits (g : Geometry) (items : List JsString) : Set Nat := ⋃ x ∈ items, SizedFilter.signature g x

theorem Coordinator.Endures.recordsUpTo_eq {c : Coordinator} {segments : List Segment}
    {history : List LogRecord}
    (h : c.Endures segments history) (lsn : Nat) : recordsUpTo history lsn = history.take lsn := by
  have hOld : (history.take lsn).filter (fun r => r.1 ≤ lsn) = history.take lsn := by
    rw [List.filter_eq_self]
    intro r hr
    have hMem : r.1 ∈ (history.take lsn).map Prod.fst := List.mem_map_of_mem hr
    rw [List.map_take, h.lsns] at hMem
    have hLe := List.mem_range'_1.mp (List.mem_of_mem_take hMem)
    rcases Nat.le_total history.length lsn with hShort | hLong
    · exact decide_eq_true (by omega)
    · rw [List.take_range'_of_length_ge hLong, List.mem_range'_1] at hMem
      exact decide_eq_true (by omega)
  have hNew : (history.drop lsn).filter (fun r => r.1 ≤ lsn) = [] := by
    rw [List.filter_eq_nil_iff]
    intro r hr
    have hMem : r.1 ∈ (history.drop lsn).map Prod.fst := List.mem_map_of_mem hr
    rw [List.map_drop, h.lsns, List.drop_range', List.mem_range'_1] at hMem
    simp only [decide_eq_true_eq]
    omega
  calc recordsUpTo history lsn
      = (history.take lsn ++ history.drop lsn).filter fun r => r.1 ≤ lsn := by
        rw [List.take_append_drop]
        rfl
    _ = history.take lsn := by rw [List.filter_append, hOld, hNew, List.append_nil]

/-- Only a value that the filters can address is reported as present. -/
theorem Manager.addressable_of_covers {manager : Manager g} {value : JsString}
    (h : manager.covers value = true) : BloomFilter.Addressable g.m g.k value := by
  rw [covers, Bool.or_eq_true] at h
  rcases h with hTest | hTest
  all_goals
    split at hTest
    · exact (SizedFilter.test_eq_true_iff.mp hTest).1
    · cases hTest

/-- Two managers with the same window answer alike. -/
theorem Manager.covers_congr {manager manager' : Manager g} (h : manager'.window = manager.window)
    (value : JsString) : manager'.covers value = manager.covers value := by
  rw [Bool.eq_iff_iff]
  constructor
  · intro hCovers
    have hAddressable := addressable_of_covers hCovers
    rwa [covers_iff hAddressable, ← h, ← covers_iff hAddressable]
  · intro hCovers
    have hAddressable := addressable_of_covers hCovers
    rwa [covers_iff hAddressable, h, ← covers_iff hAddressable]

theorem Manager.has_congr {manager manager' : Manager g} (h : manager'.window = manager.window)
    (value : JsString) : (manager'.has value).2 = (manager.has value).2 := by
  unfold has
  split_ifs
  · rfl
  · simp only [covers_congr h]

namespace Store

variable {s t : Store g} {a : Action g}

/-- Nothing shuts the manager down. -/
theorem Effect.running (effect : Effect s a t) (h : s.manager.shuttingDown = false) :
    t.manager.shuttingDown = false := by
  cases effect with
  | called call isCall =>
      cases call with
      | refused manager filters eq =>
          subst eq
          exact filters.shuttingDown.trans h
      | entered item manager accepted filters eq =>
          subst eq
          exact filters.shuttingDown.trans h
  | ticked | retried =>
      unfold Store.attempt
      split_ifs <;> exact h
  | abandoned job message hHolder => cases job <;> exact h
  | crashed =>
      show (Manager.restored g _ _).shuttingDown = false
      unfold Manager.restored
      split_ifs <;> rfl
  | requested | began | skipped | opened | handed | written | synced | closed | renamed | cleared | promoted
  | swapped => exact h

end Store

namespace Replica

/-- What these calls make of two empty filters. -/
def replayed (g : Geometry) (calls : List (Nat × RevokerCall)) : Window (Set Nat) :=
  Window.replay (SizedFilter.signature g) ⟨⊥, ⊥⟩ (calls.map fun call => call.2.entryItem)

theorem replayed_concat (g : Geometry) (calls : List (Nat × RevokerCall)) (lsn : Nat) (call : RevokerCall) :
    replayed g (calls ++ [(lsn, call)]) =
      call.entryItem.elim (replayed g calls).rotate
        ((replayed g calls).insert (SizedFilter.signature g)) := by
  rw [replayed, List.map_append]
  exact Window.replay_concat _ _ _

/-- The filters are those of the calls that have returned. Only a swap is ahead of the
return of its call. -/
structure Holds (r : Replica g) : Prop where
  ordered : r.revoker.Ordered
  running : r.revoker.manager.shuttingDown = false
  swapping : r.swapped = true → r.engine.rotating.isSome = true
  window : r.revoker.manager.window =
    if r.swapped then (replayed g r.engine.history.completed).rotate
    else replayed g r.engine.history.completed

namespace Holds

variable {r r' : Replica g} {wire : Wire} {log : LoggedCoordinator} {segments : List Segment}

/-- Neither a call nor a swap has happened. -/
theorem congr (h : r.Holds) (hRevoker : r'.revoker = r.revoker) (hSwapped : r'.swapped = r.swapped)
    (hCompleted : r'.engine.history.completed = r.engine.history.completed)
    (hRotating : r'.engine.rotating = r.engine.rotating) : r'.Holds := by
  refine ⟨hRevoker ▸ h.ordered, hRevoker ▸ h.running, ?_, ?_⟩
  · rw [hSwapped, hRotating]
    exact h.swapping
  · rw [hRevoker, hSwapped, hCompleted]
    exact h.window

/-- The call of the next event succeeds. -/
theorem call (h : r.Holds) (fed : r.Fed wire log) (hEndures : log.coordinator.Endures segments log.history)
    {call : RevokerCall} (hCall : r.engine.nextCall = some call) :
    ∃ revoker, r.revoker.call call = (revoker, .ok ()) ∧ revoker.Ordered ∧
      revoker.manager.shuttingDown = false ∧ revoker.manager.window = call.entryItem.elim
        r.revoker.manager.window
        (r.revoker.manager.window.insert (SizedFilter.signature g)) := by
  cases call with
  | rotateOnDemand =>
      have effect : Store.Effect r.revoker .requestRotation
        { r.revoker with waiting := r.revoker.waiting + 1 } := .requested
      exact ⟨_, rfl, effect.ordered h.ordered, effect.running h.running, rfl⟩
  | applyEntry item =>
      have hItem : Acceptable item := by
        unfold SyncEngineProcess.nextCall at hCall
        split at hCall
        · rename_i enqueued rest hIdle hChain
          split_ifs at hCall with hHalted
          cases hCheck : r.engine.check safeIntegerOf enqueued.event with
          | entry lsn other =>
              rw [hCheck] at hCall
              cases hCall
              exact fed.acceptable hEndures hChain hIdle (by simpa using hHalted) hCheck
          | skip | rebootstrap | rotate =>
              rw [hCheck] at hCall
              cases hCall
        · cases hCall
      have hApplied : (r.revoker.manager.applyEntry (.ok ()) item).2 = .ok () :=
        Manager.applyEntry_eq_ok_iff.mpr ⟨hItem, h.running, rfl⟩
      have hOk : (r.revoker.applyEntry [] item).2 = .ok () := by
        unfold Store.applyEntry
        rcases hApply : r.revoker.manager.applyEntry (.ok ()) item with ⟨manager, error | _⟩
        · rw [hApply] at hApplied
          cases hApplied
        · simp only [Store.backupItem_nil h.ordered.sync, hApply]
      obtain ⟨-, manager, hInserted, hEq⟩ := Store.applyEntry_of_ok h.ordered.sync hOk
      have hCalled := Store.applyEntry_called h.ordered.sync item
      rcases hApply : r.revoker.applyEntry [] item with ⟨revoker, error | _⟩
      · rw [hApply] at hOk
        cases hOk
      · rw [hApply] at hCalled hEq
        simp only at hCalled hEq
        refine ⟨revoker, by simp only [Store.call, hApply], h.ordered.called hCalled, ?_, ?_⟩
        · rw [hEq]
          exact hInserted.shuttingDown.trans h.running
        · rw [hEq]
          exact hInserted.window h.ordered.current

theorem apply (h : r.Holds) (fed : r.Fed wire log) (hEndures : log.coordinator.Endures segments log.history)
    (hStep : r.step wire log.coordinator .apply = some r') : r'.Fed wire log ∧ r'.Holds := by
  -- whichever call it is, it succeeds
  obtain ⟨revoker, hStep, hOrdered, hRunning, hWindow⟩ : ∃ revoker,
      ((r.engine.step safeIntegerOf (.apply (.ok ()) (.ok ()))).map fun engine =>
        { r with engine := engine, revoker := revoker }) = some r' ∧ revoker.Ordered ∧
      revoker.manager.shuttingDown = false ∧ revoker.manager.window =
        (r.engine.nextCall.bind RevokerCall.entryItem).elim r.revoker.manager.window
          (r.revoker.manager.window.insert (SizedFilter.signature g)) := by
    cases hNext : r.engine.nextCall with
    | none =>
        simp only [Replica.step, hNext] at hStep
        exact ⟨r.revoker, hStep, h.ordered, h.running, rfl⟩
    | some call =>
        obtain ⟨revoker, hCalled, hOrdered, hRunning, hWindow⟩ := h.call fed hEndures hNext
        simp only [Replica.step, hNext, hCalled] at hStep
        exact ⟨revoker, hStep, hOrdered, hRunning, hWindow⟩
  obtain ⟨engine, hEngine, rfl⟩ := Option.map_eq_some_iff.mp hStep
  obtain ⟨enqueued, rest, hIdle, -, -, hTurn⟩ := SyncEngineProcess.turn_of_apply hEngine
  have hSwapped : r.swapped = false := by
    by_contra hSwapped
    have hRotating := h.swapping (by simpa using hSwapped)
    rw [hIdle] at hRotating
    cases hRotating
  have hOld : r.revoker.manager.window = replayed g r.engine.history.completed := by
    rw [h.window, hSwapped]
    rfl
  refine ⟨(fed.apply hEndures hEngine).congr rfl rfl rfl, hOrdered, hRunning, by simp [hSwapped], ?_⟩
  show revoker.manager.window = if r.swapped then _ else replayed g engine.history.completed
  rw [hSwapped, hWindow, hOld]
  cases hTurn with
  | passed call completed =>
      rw [call, completed]
      rfl
  | entered lsn item call running check completed =>
      rw [call, completed, replayed_concat]
      rfl
  | rotates call completed =>
      rw [call, completed]
      rfl

theorem rotated (h : r.Holds) (fed : r.Fed wire log)
    (hStep : r.step wire log.coordinator .rotated = some r') :
    r'.Fed wire log ∧ r'.Holds := by
  simp only [Replica.step, Option.ite_none_right_eq_some] at hStep
  obtain ⟨hSwapped, hStep⟩ := hStep
  obtain ⟨engine, hEngine, rfl⟩ := Option.map_eq_some_iff.mp hStep
  obtain ⟨rotation, -, -, hCompleted, -⟩ := SyncEngineProcess.turn_of_rotated hEngine
  refine ⟨(fed.rotated hEngine).congr rfl rfl rfl, h.ordered, h.running, by simp, ?_⟩
  have hWindow := h.window
  rw [if_pos hSwapped] at hWindow
  show r.revoker.manager.window = replayed g engine.history.completed
  rw [hWindow, hCompleted, replayed_concat]
  rfl

theorem core (h : r.Holds) {action : Store.Action g} {revoker : Store g}
    (hProgress : action.isProgress = true)
    (hStep : r.revoker.step action = some revoker) : Holds { r with revoker := revoker } := by
  have effect := Store.step_effect h.ordered.sync ⟨hStep, Store.Action.noFault_of_isProgress hProgress⟩
  exact ⟨effect.ordered h.ordered, effect.running h.running, h.swapping,
    (effect.window_eq hProgress).trans h.window⟩

theorem swap (h : r.Holds) (hStep : r.step wire log.coordinator .swap = some r') :
    r'.Holds ∧ r'.engine = r.engine ∧ r'.streams = r.streams ∧ r'.answer = r.answer := by
  simp only [Replica.step, Option.ite_none_right_eq_some, Bool.and_eq_true, Bool.not_eq_true'] at hStep
  obtain ⟨⟨hRotating, hSwapped⟩, hStep⟩ := hStep
  obtain ⟨revoker, hSwap, rfl⟩ := Option.map_eq_some_iff.mp hStep
  have effect : Store.Effect r.revoker .swap revoker := Store.step_effect h.ordered.sync ⟨hSwap, trivial⟩
  have hWindow : revoker.manager.window = r.revoker.manager.window.rotate := by
    cases effect with
    | called call isCall => rcases isCall with ⟨_, hEq⟩ | ⟨_, hEq⟩ <;> cases hEq
    | swapped hStage => exact Manager.swap_window _
  refine ⟨⟨effect.ordered h.ordered, effect.running h.running, fun _ => hRotating, ?_⟩, rfl, rfl, rfl⟩
  rw [hWindow, h.window, hSwapped]
  rfl

/-- A step of the engine in which no call is made or returns. -/
theorem quiet (h : r.Holds) {engine : SyncEngineProcess} (hQuiet : SyncEngineProcess.Quiet r.engine engine)
    (streams : List NodeStream) (answer : Option (List StreamEvent × Bool)) :
    Holds { r with engine := engine, streams := streams, answer := answer } :=
  h.congr rfl rfl hQuiet.completed hQuiet.rotating

theorem silent (h : r.Holds) (fed : r.Fed wire log) {action : SyncEngineProcess.Action}
    (hStep : r.step wire log.coordinator (.silent action) = some r') : r'.Fed wire log ∧ r'.Holds := by
  simp only [Replica.step, Option.ite_none_right_eq_some] at hStep
  obtain ⟨hSilent, hStep⟩ := hStep
  obtain ⟨engine, hEngine, rfl⟩ := Option.map_eq_some_iff.mp hStep
  have hQuiet : SyncEngineProcess.Quiet r.engine engine := by
    refine SyncEngineProcess.step_quiet hEngine ?_ ?_ <;> rintro _ _ rfl <;> cases hSilent
  refine ⟨?_, h.quiet hQuiet _ _⟩
  have hNext := fed.silent hEngine hSilent
  cases action with
  | subscribed index =>
      by_cases hOpened : r.engine.opened < engine.opened
      · simp only [if_pos hOpened]
        -- the new stream resumes where the engine was when it subscribed
        refine Fed.opened (r := { r with engine := engine }) hNext ?_
        have hIndex : index < r.engine.subscribing.length := by
          simp only [SyncEngineProcess.step] at hEngine
          split_ifs at hEngine <;> assumption
        rw [List.getD_eq_getElem?_getD, List.getElem?_eq_getElem hIndex, Option.getD_some]
        exact (fed.resumes _ (List.getElem_mem hIndex)).trans hQuiet.cursor.ge
      · simp only [if_neg hOpened]
        exact hNext
  | data | pollResponse | apply | rotated => cases hSilent
  | _ => exact hNext

/-- What one step of a node, or of the server for it, preserves. -/
theorem step (h : r.Holds) (fed : r.Fed wire log) (hEndures : log.coordinator.Endures segments log.history)
    {a : Action g} (hStep : r.step wire log.coordinator a = some r') : r'.Fed wire log ∧ r'.Holds := by
  cases a with
  | silent action => exact h.silent fed hStep
  | stream index action =>
      obtain ⟨stream, hStream, rfl⟩ := Option.map_eq_some_iff.mp hStep
      obtain ⟨old, hOld, hStream⟩ := Option.bind_eq_some_iff.mp hStream
      refine ⟨fed.serve fun other hOther => ?_, h.congr rfl rfl rfl rfl⟩
      rcases List.mem_or_eq_of_mem_set hOther with hMem | rfl
      · exact fed.streams other hMem
      · exact (fed.streams old (List.mem_of_getElem? hOld)).step hEndures (fed.cursor_le hEndures) hStream
  | deliver index =>
      obtain ⟨stream, hStream, hStep⟩ := Option.bind_eq_some_iff.mp hStep
      obtain ⟨event, hEvent, hStep⟩ := Option.bind_eq_some_iff.mp hStep
      obtain ⟨engine, hEngine, rfl⟩ := Option.map_eq_some_iff.mp hStep
      exact ⟨fed.deliver hEndures hStream hEvent hEngine,
        h.quiet (SyncEngineProcess.step_quiet hEngine (by simp) (by simp)) _ _⟩
  | servePoll maxEvents =>
      simp only [Replica.step, Option.ite_none_left_eq_some] at hStep
      obtain ⟨fromLsn, hFrom, hStep⟩ := Option.bind_eq_some_iff.mp hStep.2
      split at hStep
      · rename_i answer hPoll
        cases hStep
        exact ⟨fed.servePoll hEndures hFrom hPoll, h.congr rfl rfl rfl rfl⟩
      · cases hStep
  | pollResponse =>
      obtain ⟨answer, hAnswer, hStep⟩ := Option.bind_eq_some_iff.mp hStep
      obtain ⟨engine, hEngine, rfl⟩ := Option.map_eq_some_iff.mp hStep
      exact ⟨fed.pollResponse hAnswer hEngine,
        h.quiet (SyncEngineProcess.step_quiet hEngine (by simp) (by simp)) _ _⟩
  | apply => exact h.apply fed hEndures hStep
  | core action =>
      simp only [Replica.step, Option.ite_none_right_eq_some] at hStep
      obtain ⟨hProgress, hStep⟩ := hStep
      obtain ⟨revoker, hCore, rfl⟩ := Option.map_eq_some_iff.mp hStep
      exact ⟨fed.congr rfl rfl rfl, h.core hProgress hCore⟩
  | swap =>
      obtain ⟨hHolds, hEngine, hStreams, hAnswer⟩ := h.swap hStep
      exact ⟨fed.congr hEngine hStreams hAnswer, hHolds⟩
  | rotated => exact h.rotated fed hStep

/-- A node that has joined the empty log. -/
theorem join (g : Geometry) (config : FilterConfig) (periodic : Bool) (files : NodeFiles) :
    (join g config.numItems periodic files (Replication.emptySnapshot g config)).Holds where
  ordered := Store.boot_ordered _ _ ⟨[], by simp, rfl⟩
  running := by
    show (Manager.restored g _ _).shuttingDown = false
    unfold Manager.restored
    split_ifs <;> rfl
  swapping := fun hSwapped => by cases hSwapped
  window := by
    refine (Store.boot_window _ _ _).trans ?_
    show restoredWindow g {} = ⟨⊥, ⊥⟩
    simp [restoredWindow, tempItems_nil, restoreFilterFromFile, Manager.slotBits]

end Holds

end Replica

namespace Replication

/-- An item reaches the nodes as the log has it. -/
def Action.Delivers (wire : Wire) : Action g → Prop
  | .add _ item => wire.deliver item = toWellFormed item
  | _ => True

/-- What holds in every state of a run. -/
structure Sound (wire : Wire) (t : Replication g) : Prop where
  log : ∃ segments, t.log.coordinator.Endures segments t.log.history
  replicas : ∀ r ∈ t.replicas, r.Fed wire t.log ∧ r.Holds

/-- The nodes are copies of the log. A node may hold other filters than the log says while
it is not settled, and it may ask for a snapshot when it was told to or is excused. -/
structure Refines (previous : List LogRecord → List JsString) (settled : Replica g → Prop)
    (excused : List LogRecord → Prop) (t : Replication g) : Prop where
  generation : ∀ r ∈ t.replicas,
    r.engine.generation = (markersOf (recordsUpTo t.log.history r.engine.lastAppliedLsn)).length
  current : ∀ r ∈ t.replicas, settled r → Manager.slotBits r.revoker.manager.current =
    itemBits g (currentItems (recordsUpTo t.log.history r.engine.lastAppliedLsn))
  previous : ∀ r ∈ t.replicas, settled r → Manager.slotBits r.revoker.manager.previous =
    itemBits g (previous (recordsUpTo t.log.history r.engine.lastAppliedLsn))
  asked : ∀ r ∈ t.replicas, r.engine.rebootstrapFired = true →
    .resnapshot ∈ r.engine.history.received ∨ excused t.log.history
  alike : ∀ r ∈ t.replicas, ∀ r' ∈ t.replicas, settled r → settled r' →
    r.engine.lastAppliedLsn = r'.engine.lastAppliedLsn →
      ∀ x, (r.revoker.manager.has x).2 = (r'.revoker.manager.has x).2

/-- In every state of every run the nodes are copies of the log. -/
def Refinement (g : Geometry) (wire : Wire) (previous : List LogRecord → List JsString)
    (settled : Replica g → Prop) (excused : List LogRecord → Prop) (allowed : Action g → Prop) : Prop :=
  ∀ (id walDir : String) (config : FilterConfig) (periodic : Bool) (files : List NodeFiles)
    (actions : List (Action g)) (t : Replication g),
    Transition.Run (Transition.restrict (Steps g wire) fun _ a => allowed a)
      (start g id walDir config periodic files) actions t → t.Refines previous settled excused

variable {wire : Wire} {t u : Replication g} {a : Action g}

theorem start_sound (g : Geometry) (wire : Wire) (id walDir : String) (config : FilterConfig)
    (periodic : Bool)
    (files : List NodeFiles) : (start g id walDir config periodic files).Sound wire where
  log := ⟨[], (Coordinator.keeps_init id walDir).toEndures⟩
  replicas := by
    intro r hr
    obtain ⟨nodeFiles, -, rfl⟩ := List.mem_map.mp hr
    exact ⟨.join g wire id walDir config periodic nodeFiles, .join g config periodic nodeFiles⟩

theorem broadcast_self (t : Replication g) : t.broadcast t.log = t := by
  rw [broadcast, List.drop_length]
  simp [Replica.enqueue, NodeStream.enqueue]

/-- The log grows. -/
theorem Sound.publish (h : t.Sound wire) {log : LoggedCoordinator} {record : LogRecord}
    {event : OutboundEvent}
    (hPublishes : t.log.Publishes log record event)
    (hEndures : ∃ segments, log.coordinator.Endures segments log.history) (hAgrees : event.Agrees wire)
    (hKept : ∀ r ∈ t.replicas, ∀ stream ∈ r.streams, ∀ connection ∈ stream.connection,
      ∀ cursor ∈ connection.readCursor, log.coordinator.canonical.deletedMaxLsn ≤ cursor) :
    (t.broadcast log).Sound wire where
  log := hEndures
  replicas := by
    obtain ⟨segments, hOld⟩ := h.log
    intro r hr
    obtain ⟨old, hMem, rfl⟩ := List.mem_map.mp hr
    obtain ⟨hFed, hHolds⟩ := h.replicas old hMem
    rw [hPublishes.sent, List.drop_left]
    exact ⟨hFed.publish hOld hPublishes hAgrees (hKept old hMem), hHolds.congr rfl rfl rfl rfl⟩

theorem Sound.step (h : t.Sound wire) (hStep : Steps g wire t a u) (hDelivers : a.Delivers wire) :
    u.Sound wire := by
  obtain ⟨hStep, hRetains⟩ := hStep
  obtain ⟨segments, hEndures⟩ := h.log
  cases a with
  | add applied item =>
      cases hStep
      rcases LoggedCoordinator.add_publishes hEndures applied item with hSame |
        ⟨⟨record, hPublishes⟩, hDeleted⟩
      · rw [hSame, broadcast_self]
        exact h
      · refine h.publish hPublishes (hEndures.add applied item) hDelivers ?_
        intro r hr stream hStream connection hConnection cursor hCursor
        rw [hDeleted]
        exact (((h.replicas r hr).1.streams stream hStream).answers connection hConnection).kept cursor
          hCursor
  | rotation unlinkFails =>
      cases hStep
      obtain ⟨record, hPublishes⟩ := LoggedCoordinator.rotation_publishes hEndures unlinkFails
      exact h.publish hPublishes (hEndures.rotation unlinkFails) trivial hRetains
  | node index action =>
      obtain ⟨r', hNode, rfl⟩ := Option.map_eq_some_iff.mp hStep
      obtain ⟨r, hAt, hNode⟩ := Option.bind_eq_some_iff.mp hNode
      obtain ⟨hFed, hHolds⟩ := h.replicas r (List.mem_of_getElem? hAt)
      refine ⟨⟨segments, hEndures⟩, fun other hOther => ?_⟩
      rcases List.mem_or_eq_of_mem_set hOther with hMem | rfl
      · exact h.replicas other hMem
      · exact hHolds.step hFed hEndures hNode

/-- What has been replayed is the log. -/
theorem replayed_eq (g : Geometry) (records : List LogRecord) :
    Replica.replayed g (records.map fun record => (record.1, record.2.call)) =
      ⟨itemBits g (currentItems records), itemBits g (previousItems records)⟩ := by
  rw [Replica.replayed, List.map_map]
  exact Window.replay_eq _

/-- A settled node holds what the log says. -/
theorem Sound.window (h : t.Sound wire) {r : Replica g} (hr : r ∈ t.replicas) (hSettled : r.swapped = false) :
    r.revoker.manager.window =
      ⟨itemBits g (currentItems (recordsUpTo t.log.history r.engine.lastAppliedLsn)),
        itemBits g (previousItems (recordsUpTo t.log.history r.engine.lastAppliedLsn))⟩ := by
  obtain ⟨segments, hEndures⟩ := h.log
  obtain ⟨hFed, hHolds⟩ := h.replicas r hr
  rw [hHolds.window, hSettled, hFed.completed_eq hEndures, hEndures.recordsUpTo_eq]
  exact replayed_eq g _

theorem Sound.refines (h : t.Sound wire) :
    t.Refines previousItems (fun r => r.swapped = false) Outgrown where
  generation := by
    obtain ⟨segments, hEndures⟩ := h.log
    intro r hr
    rw [hEndures.recordsUpTo_eq]
    exact (h.replicas r hr).1.generation_eq hEndures
  current := fun r hr hSettled => congrArg Window.current (h.window hr hSettled)
  previous := fun r hr hSettled => congrArg Window.previous (h.window hr hSettled)
  asked := fun r hr => (h.replicas r hr).1.asked
  alike := by
    intro r hr r' hr' hSettled hSettled' hCursor x
    refine Manager.has_congr ?_ x
    rw [h.window hr hSettled, h.window hr' hSettled', hCursor]

/-- Whatever the streams and the polls do, a node whose cursor has come to an LSN holds the
items of the log up to there: those behind the last marker in its current filter, those between
the last two in the previous one. Nothing is said while a rotation has swapped the filters and
the engine has not gone on, nor of items that reach the nodes other than they were logged. -/
theorem refines_settled (g : Geometry) (wire : Wire) :
    Refinement g wire previousItems (fun r => r.swapped = false) Outgrown (Action.Delivers wire) := by
  intro id walDir config periodic files actions t hRun
  have hSound : t.Sound wire :=
    hRun.invariant (fun _ _ _ hOld hStep => hOld.step hStep.1 hStep.2)
      (start_sound g wire id walDir config periodic files)
  exact hSound.refines

instance (t : Replication g) : (a : Action g) → Decidable (t.Retains a)
  | .rotation unlinkFails => inferInstanceAs (Decidable (∀ r ∈ t.replicas, ∀ stream ∈ r.streams,
      ∀ connection ∈ stream.connection, ∀ cursor ∈ connection.readCursor,
        (t.log.rotation unlinkFails).coordinator.canonical.deletedMaxLsn ≤ cursor))
  | .add _ _ | .node _ _ => inferInstanceAs (Decidable True)

instance (wire : Wire) : (a : Action g) → Decidable (a.Delivers wire)
  | .add _ item => inferInstanceAs (Decidable (wire.deliver item = toWellFormed item))
  | .rotation _ | .node _ _ => inferInstanceAs (Decidable True)

/-- Two nodes that have joined, with filters of one bucket. -/
def pair : Replication .oneBucket :=
  start .oneBucket "r" "canonical" ⟨1, 9 / 10, 60⟩ true [⟨{}, none⟩, ⟨{}, none⟩]

/-- A run of the two nodes. -/
theorem Refinement.of_exec {wire : Wire} {previous : List LogRecord → List JsString}
    {settled : Replica .oneBucket → Prop} {excused : List LogRecord → Prop}
    {allowed : Action .oneBucket → Prop}
    (h : Refinement .oneBucket wire previous settled excused allowed)
    {test : Replication .oneBucket → Action .oneBucket → Bool}
    (hTest : ∀ t a, test t a = true → t.Retains a ∧ allowed a) {actions : List (Action .oneBucket)}
    {t : Replication .oneBucket} (hRun : Transition.exec (Transition.guarded test (step wire)) pair
      actions = some t) :
    t.Refines previous settled excused :=
  h "r" "canonical" ⟨1, 9 / 10, 60⟩ true [⟨{}, none⟩, ⟨{}, none⟩] actions t
    (((Transition.run_of_exec hRun).of_guarded hTest).mono fun _ _ _ hStep =>
      ⟨⟨hStep.1, hStep.2.1⟩, hStep.2.2⟩)

/-- The first node subscribes and is caught up. -/
def subscribing : List (Action .oneBucket) :=
  ([.silent (.subscribed 0), .stream 0 .accept, .stream 0 .work, .stream 0 .work, .stream 0 .work, .deliver 0,
    .apply] : List (Replica.Action .oneBucket)).map (.node 0)

/-- Its stream brings it an event. -/
def streaming : List (Action .oneBucket) :=
  ([.stream 0 .work, .stream 0 .work, .deliver 0, .apply] : List (Replica.Action .oneBucket)).map (.node 0)

/-- The rotation that a node has turned to, up to the swap. -/
def swapping (index : Nat) (captured : SizedFilter .oneBucket) : List (Action .oneBucket) :=
  ([.core .rotate, .core .acquire, .core (.settle (.ok ())), .core (.written captured), .core (.settle (.ok ())),
    .core (.settle (.ok ())), .core (.settle (.ok ())), .core (.settle (.ok ())), .core (.promote (.ok ())),
    .swap] : List (Replica.Action .oneBucket)).map (.node index)

/-- An item is revoked, and the coordinator rotates; the first node applies both. -/
def oneMarker : List (Action .oneBucket) :=
  subscribing ++ .add (.ok ()) [97] :: streaming ++ .rotation (fun _ => false) :: streaming ++
    swapping 0 (.add (.create _) [97]) ++ [.node 0 .rotated]

/-- The second node polls. -/
def polling : List (Action .oneBucket) :=
  ([.silent .pollTick, .servePoll (some 10), .pollResponse, .apply] : List (Replica.Action .oneBucket)).map
    (.node 1)

/-- The second node cannot subscribe. The two apply two items and a marker between them, one
from its stream and the other from pages. -/
def degraded : List (Action .oneBucket) :=
  subscribing ++ .node 1 (.silent (.subscribeFailed 0)) :: .add (.ok ()) [97] :: streaming ++ polling ++
    .node 1 (.silent .pollNext) :: .rotation (fun _ => false) :: streaming ++ polling ++
    swapping 0 (.add (.create _) [97]) ++ .node 0 .rotated :: swapping 1 (.add (.create _) [97]) ++
    .node 1 .rotated :: .node 1 (.silent .pollNext) :: .add (.ok ()) [97, 97] :: streaming ++ polling

theorem refines_settled_pair : ∃ t r r', t.replicas = [r, r'] ∧
    Transition.exec (Transition.guarded (fun t a => decide (t.Retains a ∧ a.Delivers .utf8)) (step .utf8)) pair
      degraded = some t ∧ r.engine.lastAppliedLsn = 3 ∧ r'.engine.lastAppliedLsn = 3 ∧
    ∀ x, (r.revoker.manager.has x).2 = (r'.revoker.manager.has x).2 := by
  have hEnd : (Transition.exec (Transition.guarded (fun t a => decide (t.Retains a ∧ a.Delivers .utf8))
      (step .utf8)) pair degraded).map (fun t => t.replicas.map fun r =>
        (r.engine.lastAppliedLsn, r.swapped)) =
      some [(3, false), (3, false)] := by decide +kernel
  obtain ⟨t, hRun, hState⟩ := Option.map_eq_some_iff.mp hEnd
  obtain ⟨r, rest, hReplicas, hFirst, hRest⟩ := List.map_eq_cons_iff.mp hState
  obtain ⟨r', rest', rfl, hSecond, hNil⟩ := List.map_eq_cons_iff.mp hRest
  obtain rfl := List.map_eq_nil_iff.mp hNil
  simp only [Prod.mk.injEq] at hFirst hSecond
  have hRefines := (refines_settled .oneBucket .utf8).of_exec (fun _ _ h => of_decide_eq_true h) hRun
  refine ⟨t, r, r', hReplicas, hRun, hFirst.1, hSecond.1, ?_⟩
  exact hRefines.alike r (by simp [hReplicas]) r' (by simp [hReplicas]) hFirst.2 hSecond.2
    (hFirst.1.trans hSecond.1.symm)

/-- A filter that reports an item does not have the bits of no items at all. -/
theorem ne_itemBits_nil {slot : Option (SizedFilter g)} {x : JsString}
    (hTest : slot.any (fun filter => filter.test x) = true) : Manager.slotBits slot ≠ itemBits g [] := by
  intro hBits
  obtain ⟨filter, rfl, hTest⟩ := (Option.any_eq_true _ _).mp hTest
  obtain ⟨hAddressable, hCovers⟩ := SizedFilter.test_eq_true_iff.mp hTest
  obtain ⟨loc, hLoc⟩ := Manager.signature_nonempty hAddressable
  have hNone : filter.bits = ∅ := hBits.trans (by simp [itemBits])
  have hMem : loc ∈ filter.bits := hCovers hLoc
  rw [hNone] at hMem
  exact hMem

/-- A filter that does not report an item has not the bits of items with it. -/
theorem ne_itemBits_of_mem {filter : SizedFilter g} {x : JsString} {items : List JsString} (hx : x ∈ items)
    (hAddressable : BloomFilter.Addressable g.m g.k x) (hTest : filter.test x = false) :
    Manager.slotBits (some filter) ≠ itemBits g items := by
  intro hBits
  have hCovers : SignatureFilter.Covers (SizedFilter.signature g) filter.bits x := by
    have hSubset : SizedFilter.signature g x ⊆ itemBits g items := Set.subset_biUnion_of_mem hx
    rwa [← hBits] at hSubset
  rw [SizedFilter.test_eq_true_iff.mpr ⟨hAddressable, hCovers⟩] at hTest
  cases hTest

/-- What the reader makes of a code unit on its own. The three bytes of a surrogate are no
character, and each of them is replaced. -/
def loneUnits (u : UInt16) : JsString := if isSurrogate u then List.replicate 3 replacement else [u]

/-- What the reader makes of a short string, which is written unit by unit. -/
def tripled : JsString → JsString
  | [] => []
  | [u] => loneUnits u
  | u :: v :: rest =>
      if isHigh u && isLow v then u :: v :: tripled rest
      else loneUnits u ++ tripled (v :: rest)

theorem toWellFormed_loneUnits (u : UInt16) (rest : JsString) :
    toWellFormed (loneUnits u ++ rest) = loneUnits u ++ toWellFormed rest := by
  refine toWellFormed_append (fun c hc => ?_) rest
  unfold loneUnits at hc
  split_ifs at hc with hSurrogate
  · rw [(List.mem_replicate.mp hc).2]
    decide
  · rw [List.mem_singleton.mp hc]
    simpa using hSurrogate

theorem isWellFormed_tripled (s : JsString) : IsWellFormed (tripled s) := by
  unfold IsWellFormed
  induction s using tripled.induct with
  | case1 => rfl
  | case2 u => simpa [tripled, toWellFormed] using toWellFormed_loneUnits u []
  | case3 u v rest h ih => simp [tripled, toWellFormed, h, ih]
  | case4 u v rest h ih => rw [tripled, if_neg h, toWellFormed_loneUnits, ih]

theorem loneUnits_of_scalarUnit {u : UInt16} (h : scalarUnit u = u) : loneUnits u = [u] := by
  have hScalar := isSurrogate_scalarUnit u
  rw [h] at hScalar
  rw [loneUnits, hScalar]
  rfl

theorem tripled_eq (s : JsString) (h : IsWellFormed s) : tripled s = s := by
  unfold IsWellFormed at h
  induction s using tripled.induct with
  | case1 => rfl
  | case2 u => exact loneUnits_of_scalarUnit (List.cons.inj h).1
  | case3 u v rest hPair ih =>
      simp only [toWellFormed, hPair, if_true, List.cons.injEq, true_and] at h
      simp only [tripled, hPair, if_true, ih h]
  | case4 u v rest hPair ih =>
      rw [toWellFormed, if_neg hPair, List.cons.injEq] at h
      rw [tripled, if_neg hPair, loneUnits_of_scalarUnit h.1, ih h.2]
      rfl

/-- The wire on which a lone surrogate becomes three characters. -/
def shortStrings : Wire := ⟨tripled, isWellFormed_tripled, tripled_eq⟩

/-- The nodes do not refine the log for every item, in every state and with nothing in the
previous filter before the second marker; nor when one of these is left out. -/
theorem not_refinement :
    ¬ Refinement .oneBucket .utf8 itemsBetweenMarkers (fun _ => True) (fun _ => False) (fun _ => True) ∧
    ¬ Refinement .oneBucket .utf8 itemsBetweenMarkers (fun r => r.swapped = false) Outgrown
      (Action.Delivers .utf8) ∧
    ¬ Refinement .oneBucket .utf8 previousItems (fun _ => True) Outgrown (Action.Delivers .utf8) ∧
    ¬ Refinement .oneBucket shortStrings previousItems (fun r => r.swapped = false) Outgrown
      fun _ => True := by
  refine ⟨?_, ?_, ?_, ?_⟩
  case refine_1 | refine_2 =>
    -- behind the only marker the previous filter has the items before it
    intro h
    have hEnd : (Transition.exec (Transition.guarded (fun t a => decide (t.Retains a ∧ a.Delivers .utf8))
        (step .utf8)) pair oneMarker).map (fun t => (t.replicas[0]?.map fun r =>
          (r.engine.lastAppliedLsn, r.swapped, r.revoker.manager.previous.any fun filter => filter.test [97]),
          itemsBetweenMarkers (recordsUpTo t.log.history 2))) = some (some (2, false, true), []) := by
      decide +kernel
    obtain ⟨t, hRun, hState⟩ := Option.map_eq_some_iff.mp hEnd
    simp only [Prod.mk.injEq] at hState
    obtain ⟨r, hAt, hNode⟩ := Option.map_eq_some_iff.mp hState.1
    simp only [Prod.mk.injEq] at hNode
    have hRefines := h.of_exec (fun _ _ hTest => by simp_all) hRun
    have hPrevious := hRefines.previous r (List.mem_of_getElem? hAt) (by simp [hNode.2.1])
    rw [hNode.1, hState.2] at hPrevious
    exact ne_itemBits_nil hNode.2.2 hPrevious
  case refine_3 =>
    -- between the swap and the end of the call the current filter is empty
    intro h
    have hEnd : (Transition.exec (Transition.guarded (fun t a => decide (t.Retains a ∧ a.Delivers .utf8))
        (step .utf8)) pair oneMarker.dropLast).map (fun t => (t.replicas[0]?.map fun r =>
          (r.engine.lastAppliedLsn, r.revoker.manager.current.map fun filter => filter.test [97]),
          currentItems (recordsUpTo t.log.history 1))) = some (some (1, some false), [[97]]) := by
      decide +kernel
    obtain ⟨t, hRun, hState⟩ := Option.map_eq_some_iff.mp hEnd
    simp only [Prod.mk.injEq] at hState
    obtain ⟨r, hAt, hNode⟩ := Option.map_eq_some_iff.mp hState.1
    simp only [Prod.mk.injEq] at hNode
    obtain ⟨filter, hFilter, hTest⟩ := Option.map_eq_some_iff.mp hNode.2
    have hRefines := h.of_exec (fun _ _ hTest => of_decide_eq_true hTest) hRun
    have hCurrent := hRefines.current r (List.mem_of_getElem? hAt) trivial
    rw [hNode.1, hState.2, hFilter] at hCurrent
    exact ne_itemBits_of_mem (by simp) (SizedFilter.addressable (by decide) _) hTest hCurrent
  case refine_4 =>
    -- the log replaces the surrogate by one character, the stream by three
    intro h
    have hEnd : (Transition.exec (Transition.guarded (fun t a => decide (t.Retains a))
      (step shortStrings)) pair
        (subscribing ++ .add (.ok ()) [0xD800] :: streaming)).map (fun t => (t.replicas[0]?.map fun r =>
          (r.engine.lastAppliedLsn, r.swapped,
            r.revoker.manager.current.map fun filter => filter.test [replacement]),
          currentItems (recordsUpTo t.log.history 1))) =
        some (some (1, false, some false), [[replacement]]) := by
      decide +kernel
    obtain ⟨t, hRun, hState⟩ := Option.map_eq_some_iff.mp hEnd
    simp only [Prod.mk.injEq] at hState
    obtain ⟨r, hAt, hNode⟩ := Option.map_eq_some_iff.mp hState.1
    simp only [Prod.mk.injEq] at hNode
    obtain ⟨filter, hFilter, hTest⟩ := Option.map_eq_some_iff.mp hNode.2.2
    have hRefines := h.of_exec (fun _ _ hTest => ⟨of_decide_eq_true hTest, trivial⟩) hRun
    have hCurrent := hRefines.current r (List.mem_of_getElem? hAt) hNode.2.1
    rw [hNode.1, hState.2, hFilter] at hCurrent
    exact ne_itemBits_of_mem (by simp) (SizedFilter.addressable (by decide) _) hTest hCurrent

end Replication

end TokenRevoker
