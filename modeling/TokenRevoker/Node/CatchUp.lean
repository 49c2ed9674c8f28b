import TokenRevoker.Node.Channels

/-! The two ways a node catches up. `PollDeltas` pages through the log from a cursor, and a
subscription drains it batch by batch. On a log that stays as it is both bring what one
read without a limit returns. -/
namespace TokenRevoker

open Text Transition

/-- The `maxEvents` of a call of `PollDeltas`. -/
def pollLimit (maxEvents : Option Nat) : Nat :=
  min (if 0 < maxEvents.getD 0 then maxEvents.getD 0 else drainBatchSize) maxPollEvents

namespace Coordinator

/-- `PollDeltas` again and again, from the last LSN of each page, as long as there is more.
`none` if the calls do not suffice or one is not answered. -/
def pollPages (c : Coordinator) (wire : Wire) (maxEvents : Option Nat) :
    Nat → Nat → Option (List (List StreamEvent))
  | 0, _ => none
  | calls + 1, fromLsn =>
      match c.pollDeltas wire fromLsn maxEvents with
      | .error _ => none
      | .ok (events, false) => some [events]
      | .ok (events, true) =>
          (events.getLast?.bind StreamEvent.lsn).bind fun lsn =>
            (c.pollPages wire maxEvents calls lsn).map (events :: ·)

/-- The events of the log above an LSN. -/
def above (c : Coordinator) (fromLsn : Nat) : List CanonicalEvent :=
  KeyedLog.ordered CanonicalEvent.lsn (c.canonical.events.filter fun event => fromLsn < event.lsn)

variable {c : Coordinator} {wire : Wire} {fromLsn : Nat} {maxEvents : Option Nat}

theorem readSince_eq_page (hInitialized : c.canonical.initialized = true) (fromLsn maxEvents : Nat) :
    c.readSince fromLsn maxEvents = .ok (page maxEvents (c.above fromLsn)) :=
  CanonicalWal.readSince_eq hInitialized fromLsn maxEvents

/-- Reading on from an event brings what comes after it. -/
theorem above_of_split {front back : List CanonicalEvent} {event : CanonicalEvent}
    (hSplit : c.above fromLsn = front ++ event :: back) : c.above event.lsn = back := by
  rw [above, KeyedLog.ordered_filter] at hSplit ⊢
  exact KeyedLog.filter_of_split (KeyedLog.pairwise_ordered c.canonical.events) hSplit

theorem lt_of_mem_above {event : CanonicalEvent} (h : event ∈ c.above fromLsn) : fromLsn < event.lsn := by
  have hMem := KeyedLog.mem_of_mem_latest (KeyedLog.mem_ordered.mp h)
  exact of_decide_eq_true (List.mem_filter.mp hMem).2

theorem pollLimit_pos (maxEvents : Option Nat) : 0 < pollLimit maxEvents := by
  rw [pollLimit, maxPollEvents, drainBatchSize]
  split_ifs <;> omega

/-- A page is the beginning of what is left, and says whether it is all. -/
theorem pollDeltas_eq (hInitialized : c.canonical.initialized = true)
    (hServed : c.canServeFrom fromLsn = true) (wire : Wire) (maxEvents : Option Nat) :
    c.pollDeltas wire fromLsn maxEvents = .ok
      (((c.above fromLsn).take (pollLimit maxEvents)).map (toStreamEvent wire),
        decide (pollLimit maxEvents < (c.above fromLsn).length)) := by
  have hRead : c.readSince fromLsn (pollLimit maxEvents + 1) =
      .ok ((c.above fromLsn).take (pollLimit maxEvents + 1)) := by
    rw [readSince_eq_page hInitialized, page, if_pos (Nat.succ_pos _)]
  have hTake : ((c.above fromLsn).take (pollLimit maxEvents + 1)).take (pollLimit maxEvents) =
      (c.above fromLsn).take (pollLimit maxEvents) := by
    rw [List.take_take, Nat.min_eq_left (Nat.le_succ _)]
  have hMore : decide (pollLimit maxEvents < ((c.above fromLsn).take (pollLimit maxEvents + 1)).length) =
      decide (pollLimit maxEvents < (c.above fromLsn).length) := by
    rw [List.length_take]
    exact decide_eq_decide.mpr (by omega)
  unfold pollDeltas
  rw [if_pos hServed]
  dsimp only
  rw [show min (if 0 < maxEvents.getD 0 then maxEvents.getD 0 else drainBatchSize) maxPollEvents =
    pollLimit maxEvents from rfl]
  rw [hRead]
  dsimp only
  rw [hTake, hMore]

/-- The cursor behind a page that is not the last one. -/
theorem exists_cursor {limit : Nat} (hPos : 0 < limit) (hMore : limit < (c.above fromLsn).length)
    (wire : Wire) :
    ∃ lsn, ((((c.above fromLsn).take limit).map (toStreamEvent wire)).getLast?.bind StreamEvent.lsn) =
      some lsn ∧ c.above lsn = (c.above fromLsn).drop limit ∧ fromLsn < lsn := by
  obtain ⟨rest, rfl⟩ := Nat.exists_eq_succ_of_ne_zero (Nat.ne_of_gt hPos)
  have hLt : rest < (c.above fromLsn).length := Nat.lt_of_succ_lt hMore
  set event := (c.above fromLsn)[rest] with hEvent
  have hTake : (c.above fromLsn).take (rest + 1) = (c.above fromLsn).take rest ++ [event] :=
    List.take_succ_eq_append_getElem hLt
  have hSplit : c.above fromLsn =
      (c.above fromLsn).take rest ++ event :: (c.above fromLsn).drop (rest + 1) := by
    calc c.above fromLsn
        = (c.above fromLsn).take (rest + 1) ++ (c.above fromLsn).drop (rest + 1) :=
          (List.take_append_drop _ _).symm
      _ = (c.above fromLsn).take rest ++ event :: (c.above fromLsn).drop (rest + 1) := by
          rw [hTake, List.append_assoc, List.singleton_append]
  refine ⟨event.lsn, ?_, above_of_split hSplit, lt_of_mem_above (List.getElem_mem hLt)⟩
  rw [hTake, List.map_append, List.map_singleton, List.getLast?_concat, Option.bind_some,
    lsn_toStreamEvent, CanonicalEvent.record_fst]

/-- Paging comes to its end, and the pages are the log above the LSN. -/
theorem pollPages_flatten (hInitialized : c.canonical.initialized = true) (wire : Wire)
    (maxEvents : Option Nat) {calls : Nat} (hServed : c.canServeFrom fromLsn = true)
    (hCalls : (c.above fromLsn).length < calls) :
    ∃ pages, c.pollPages wire maxEvents calls fromLsn = some pages ∧
      pages.flatten = (c.above fromLsn).map (toStreamEvent wire) := by
  induction calls generalizing fromLsn with
  | zero => omega
  | succ calls ih =>
      rw [pollPages, pollDeltas_eq hInitialized hServed]
      by_cases hMore : pollLimit maxEvents < (c.above fromLsn).length
      · obtain ⟨lsn, hLsn, hAbove, hLt⟩ := exists_cursor (pollLimit_pos maxEvents) hMore wire
        have hNext : c.canServeFrom lsn = true := by
          rw [canServeFrom, CanonicalWal.canServeFrom, decide_eq_true_eq] at hServed ⊢
          omega
        have hShorter : (c.above lsn).length < calls := by
          have := pollLimit_pos maxEvents
          rw [hAbove, List.length_drop]
          omega
        obtain ⟨pages, hPages, hFlatten⟩ := ih hNext hShorter
        refine ⟨((c.above fromLsn).take (pollLimit maxEvents)).map (toStreamEvent wire) :: pages, ?_, ?_⟩
        · simp only [hMore, decide_true, hLsn, Option.bind_some, hPages, Option.map_some]
        · rw [List.flatten_cons, hFlatten, hAbove, ← List.map_append, List.take_append_drop]
      · refine ⟨[((c.above fromLsn).take (pollLimit maxEvents)).map (toStreamEvent wire)], ?_, ?_⟩
        · simp only [hMore, decide_false]
        · rw [List.flatten_singleton, List.take_of_length_le (Nat.le_of_not_lt hMore)]

end Coordinator

namespace NodeConnection

/-- The backlog drain has not come to its end. -/
def draining (c : NodeConnection) : Bool :=
  match c.tasks with
  | .drain _ _ :: _ => true
  | _ => false

/-- Nothing waits in the queue but keepalives. -/
def OnlyKeepalives (tasks : List WriteTask) : Prop :=
  ∀ task ∈ tasks, ∃ lastLsn generation, task = .write (.keepalive lastLsn generation)

/-- Where the drain of `events` is, and in how many steps it is over at the latest: one to
read a batch, one to write an event and one to go on behind it. -/
inductive Stage (coordinator : Coordinator) (events : List CanonicalEvent) (c : NodeConnection) :
    Nat → Prop where
  | reading (done left : List CanonicalEvent) (fromLsn : Nat) (rest : List WriteTask)
      (hTasks : c.tasks = .drain fromLsn [] :: rest) (hQueue : OnlyKeepalives rest)
      (hWaiting : c.waiting = false) (hEvents : events = done ++ left)
      (hWritten : c.written = done.map CanonicalEvent.message) (hLeft : coordinator.above fromLsn = left) :
      Stage coordinator events c (3 * left.length + 1)
  | ready (done left batch : List CanonicalEvent) (event : CanonicalEvent) (fromLsn : Nat)
      (rest : List WriteTask) (hTasks : c.tasks = .drain fromLsn (event :: batch) :: rest)
      (hQueue : OnlyKeepalives rest) (hWaiting : c.waiting = false) (hEvents : events = done ++ event :: left)
      (hWritten : c.written = done.map CanonicalEvent.message) (hBatch : batch <+: left)
      (hLeft : coordinator.above event.lsn = left) : Stage coordinator events c (3 * left.length + 3)
  | writing (done left batch : List CanonicalEvent) (event : CanonicalEvent) (fromLsn : Nat)
      (rest : List WriteTask) (hTasks : c.tasks = .drain fromLsn (event :: batch) :: rest)
      (hQueue : OnlyKeepalives rest) (hWaiting : c.waiting = true) (hEvents : events = done ++ event :: left)
      (hWritten : c.written = (done ++ [event]).map CanonicalEvent.message) (hBatch : batch <+: left)
      (hLeft : coordinator.above event.lsn = left) : Stage coordinator events c (3 * left.length + 2)
  | drained (hQueue : OnlyKeepalives c.tasks)
      (hWritten : c.written.filter OutboundEvent.isCanonical = events.map CanonicalEvent.message) :
      Stage coordinator events c 0

variable {c d : NodeConnection} {coordinator : Coordinator} {events : List CanonicalEvent} {steps : Nat}

theorem OnlyKeepalives.nil : OnlyKeepalives [] := by
  intro task hTask
  cases hTask

theorem OnlyKeepalives.concat {tasks : List WriteTask} (h : OnlyKeepalives tasks) (lastLsn generation : Nat) :
    OnlyKeepalives (tasks ++ [.write (.keepalive lastLsn generation)]) := by
  intro task hTask
  rcases List.mem_append.mp hTask with hOld | hNew
  · exact h task hOld
  · exact ⟨lastLsn, generation, List.mem_singleton.mp hNew⟩

theorem filter_isCanonical_message (events : List CanonicalEvent) :
    (events.map CanonicalEvent.message).filter OutboundEvent.isCanonical = events.map CanonicalEvent.message := by
  rw [List.filter_eq_self]
  intro message hMessage
  obtain ⟨event, -, rfl⟩ := List.mem_map.mp hMessage
  exact isCanonical_message event

/-- The drain is over when no step of it is left. -/
theorem Stage.draining_iff (h : Stage coordinator events c steps) : c.draining = true ↔ steps ≠ 0 := by
  cases h with
  | reading _ _ _ _ hTasks | ready _ _ _ _ _ _ hTasks | writing _ _ _ _ _ _ hTasks =>
      rw [draining, hTasks]
      simp
  | drained hQueue =>
      cases hTasks : c.tasks with
      | nil => simp [draining, hTasks]
      | cons task rest =>
          obtain ⟨lastLsn, generation, rfl⟩ := hQueue task (by rw [hTasks]; exact List.mem_cons_self)
          simp [draining, hTasks]

/-- A keepalive waits behind the drain. -/
theorem Stage.enqueue (h : Stage coordinator events c steps) (hClosed : c.closed = false)
    (lastLsn generation : Nat) : Stage coordinator events (c.enqueue (.keepalive lastLsn generation)) steps := by
  rw [enqueue_open hClosed]
  cases h with
  | reading done left fromLsn rest hTasks hQueue hWaiting hEvents hWritten hLeft =>
      exact .reading done left fromLsn _ (by rw [hTasks]; rfl) (hQueue.concat lastLsn generation) hWaiting
        hEvents hWritten hLeft
  | ready done left batch event fromLsn rest hTasks hQueue hWaiting hEvents hWritten hBatch hLeft =>
      exact .ready done left batch event fromLsn _ (by rw [hTasks]; rfl) (hQueue.concat lastLsn generation)
        hWaiting hEvents hWritten hBatch hLeft
  | writing done left batch event fromLsn rest hTasks hQueue hWaiting hEvents hWritten hBatch hLeft =>
      exact .writing done left batch event fromLsn _ (by rw [hTasks]; rfl) (hQueue.concat lastLsn generation)
        hWaiting hEvents hWritten hBatch hLeft
  | drained hQueue hWritten => exact .drained (hQueue.concat lastLsn generation) hWritten

/-- After an event the drain has the rest of its batch, or reads the next one. -/
theorem Stage.behind {done left batch : List CanonicalEvent} {event : CanonicalEvent}
    {rest : List WriteTask} (hTasks : c.tasks = .drain event.lsn batch :: rest)
    (hQueue : OnlyKeepalives rest) (hWaiting : c.waiting = false) (hEvents : events = done ++ event :: left)
    (hWritten : c.written = (done ++ [event]).map CanonicalEvent.message) (hBatch : batch <+: left)
    (hLeft : coordinator.above event.lsn = left) :
    ∃ steps ≤ 3 * left.length + 1, Stage coordinator events c steps := by
  have hDone : events = (done ++ [event]) ++ left := by rw [hEvents, List.append_assoc, List.singleton_append]
  cases batch with
  | nil =>
      exact ⟨_, Nat.le_refl _, .reading (done ++ [event]) left event.lsn rest hTasks hQueue hWaiting hDone
        hWritten hLeft⟩
  | cons next batch =>
      obtain ⟨more, rfl⟩ := hBatch
      rw [List.cons_append] at hLeft hDone ⊢
      have hNext : coordinator.above next.lsn = batch ++ more :=
        Coordinator.above_of_split (show _ = [] ++ _ from hLeft)
      refine ⟨_, ?_, .ready (done ++ [event]) (batch ++ more) batch next event.lsn rest hTasks hQueue hWaiting
        hDone hWritten (List.prefix_append _ _) hNext⟩
      rw [List.length_cons]
      omega

/-- While it drains a step of the chain is enabled, and brings the drain nearer to its end. -/
theorem Stage.work (hInitialized : coordinator.canonical.initialized = true) (hClosed : c.closed = false)
    (h : Stage coordinator events c steps) (hSteps : steps ≠ 0) :
    ∃ d, c.work coordinator = some d ∧ d.closed = false ∧ ∃ fewer < steps, Stage coordinator events d fewer := by
  cases h with
  | reading done left fromLsn rest hTasks hQueue hWaiting hEvents hWritten hLeft =>
      have hRead : coordinator.readSince fromLsn drainBatchSize = .ok (left.take drainBatchSize) := by
        rw [Coordinator.readSince_eq_page hInitialized, page, if_pos (by decide), hLeft]
      refine ⟨_, work_read hClosed hTasks hRead, hClosed, ?_⟩
      cases left with
      | nil =>
          rw [List.append_nil] at hEvents
          refine ⟨0, by omega, .drained hQueue ?_⟩
          rw [hWritten, hEvents, filter_isCanonical_message]
      | cons event left =>
          have hNext : coordinator.above event.lsn = left := Coordinator.above_of_split (show _ = [] ++ _ from hLeft)
          refine ⟨3 * left.length + 3, by rw [List.length_cons]; omega,
            .ready done left (left.take (drainBatchSize - 1)) event fromLsn rest ?_ hQueue hWaiting hEvents
              hWritten (List.take_prefix _ _) hNext⟩
          rfl
  | ready done left batch event fromLsn rest hTasks hQueue hWaiting hEvents hWritten hBatch hLeft =>
      refine ⟨_, work_drain hClosed hWaiting hTasks, hClosed, 3 * left.length + 2, by omega,
        .writing done left batch event fromLsn rest hTasks hQueue rfl hEvents ?_ hBatch hLeft⟩
      rw [List.map_append, ← hWritten]
      rfl
  | writing done left batch event fromLsn rest hTasks hQueue hWaiting hEvents hWritten hBatch hLeft =>
      refine ⟨_, work_drained hWaiting hTasks, hClosed, ?_⟩
      obtain ⟨fewer, hFewer, hStage⟩ := Stage.behind
        (c := { c with lastWrittenLsn := event.lsn, tasks := .drain event.lsn batch :: rest, waiting := false })
        rfl hQueue rfl hEvents hWritten hBatch hLeft
      exact ⟨fewer, by omega, hStage⟩
  | drained => exact absurd rfl hSteps

theorem Stage.of_zero (h : Stage coordinator events c 0) : OnlyKeepalives c.tasks ∧
    c.written.filter OutboundEvent.isCanonical = events.map CanonicalEvent.message := by
  generalize hSteps : 0 = steps at h
  cases h with
  | drained hQueue hWritten => exact ⟨hQueue, hWritten⟩
  | reading | ready | writing => omega

/-- Behind the drain only keepalives are written. -/
theorem Stage.drained_work (hClosed : c.closed = false) (h : Stage coordinator events c 0)
    (hWork : c.work coordinator = some d) : d.closed = false ∧ Stage coordinator events d 0 := by
  obtain ⟨hQueue, hWritten⟩ := h.of_zero
  cases hTasks : c.tasks with
  | nil => simp [NodeConnection.work, hTasks] at hWork
  | cons task rest =>
      rw [hTasks] at hQueue
      obtain ⟨lastLsn, generation, rfl⟩ := hQueue task List.mem_cons_self
      have hRest : OnlyKeepalives rest := fun task hTask => hQueue task (List.mem_cons_of_mem _ hTask)
      cases hWaiting : c.waiting with
      | true =>
          rw [work_wrote hWaiting hTasks] at hWork
          cases hWork
          exact ⟨hClosed, .drained hRest hWritten⟩
      | false =>
          rw [work_write hClosed hWaiting hTasks] at hWork
          cases hWork
          refine ⟨hClosed, .drained ?_ ?_⟩
          · show OnlyKeepalives c.tasks
            rw [hTasks]
            exact hQueue
          · show (c.written ++ [OutboundEvent.keepalive lastLsn generation]).filter OutboundEvent.isCanonical = _
            rw [List.filter_append, hWritten]
            exact List.append_nil _

end NodeConnection

namespace Subscription

/-- Nothing is appended to the log, and the stream stays open. Keepalives may be sent meanwhile.
-/
def Action.leavesLog : Action → Bool
  | .work | .keepalive => true
  | .add _ _ | .rotation _ | .close => false

def Action.isWork : Action → Bool
  | .work => true
  | _ => false

/-- The drain of a log that stays as it is, after this many steps of the chain. The number of
steps that are left falls with each of them. -/
structure CatchesUp (log : LoggedCoordinator) (events : List CanonicalEvent) (works : Nat) (s : Subscription) :
    Prop where
  log_eq : s.log = log
  open_eq : s.connection.closed = false
  stage : ∃ steps, s.connection.Stage log.coordinator events steps ∧
    (steps ≠ 0 → works + steps ≤ 3 * events.length + 1)

variable {log : LoggedCoordinator} {events : List CanonicalEvent} {works fromLsn : Nat} {s t : Subscription}

theorem CatchesUp.step (hInitialized : log.coordinator.canonical.initialized = true)
    (h : CatchesUp log events works s) {a : Action} (hLeaves : a.leavesLog = true)
    (hStep : s.step a = some t) : CatchesUp log events (if a.isWork then works + 1 else works) t := by
  obtain ⟨hLog, hOpen, steps, hStage, hBound⟩ := h
  cases a with
  | work =>
      obtain ⟨connection, hWork, rfl⟩ := Option.map_eq_some_iff.mp hStep
      rw [hLog] at hWork
      by_cases hSteps : steps = 0
      · subst hSteps
        obtain ⟨hStill, hDrained⟩ := hStage.drained_work hOpen hWork
        exact ⟨hLog, hStill, 0, hDrained, fun hNe => absurd rfl hNe⟩
      · obtain ⟨next, hNext, hStill, fewer, hFewer, hNextStage⟩ := hStage.work hInitialized hOpen hSteps
        obtain rfl : connection = next := Option.some.inj (hWork.symm.trans hNext)
        refine ⟨hLog, hStill, fewer, hNextStage, fun _ => ?_⟩
        have := hBound hSteps
        simp only [Action.isWork, if_true]
        omega
  | keepalive =>
      cases hStep
      refine ⟨hLog, ?_, steps, hStage.enqueue hOpen _ _, hBound⟩
      rw [NodeConnection.enqueue_open hOpen]
      exact hOpen
  | add | rotation | close => cases hLeaves

/-- A subscription that is served begins with the drain. -/
theorem catchesUp_subscribe (hServed : log.coordinator.canServeFrom fromLsn = true) :
    CatchesUp log (log.coordinator.above fromLsn) 0 ⟨log, log.coordinator.subscribe fromLsn⟩ := by
  have hQueue : NodeConnection.OnlyKeepalives
      [.write (.keepalive log.coordinator.lastLsn log.coordinator.metaState.generation)] :=
    NodeConnection.OnlyKeepalives.nil.concat _ _
  rw [Coordinator.subscribe, if_pos hServed]
  refine ⟨rfl, rfl, 3 * (log.coordinator.above fromLsn).length + 1,
    .reading [] _ fromLsn _ rfl hQueue rfl rfl rfl rfl, fun _ => ?_⟩
  omega

/-- Both ways to catch up bring what one read of the log returns. Paging comes to its end, and
a page says that there is more exactly when it leaves events out. A drain is over after a
bounded number of steps of its chain, each of which is enabled, however many keepalives are
sent meanwhile, and then has written the same events. -/
theorem catchUp (wire : Wire) {log : LoggedCoordinator}
    (hInitialized : log.coordinator.canonical.initialized = true) {fromLsn : Nat}
    (hServed : log.coordinator.canServeFrom fromLsn = true) :
    ∃ events, log.coordinator.readSince fromLsn 0 = .ok events ∧
      (∀ maxEvents calls, events.length < calls → ∃ pages,
        log.coordinator.pollPages wire maxEvents calls fromLsn = some pages ∧
          pages.flatten = events.map (toStreamEvent wire)) ∧
      (∀ maxEvents, ∃ events' more rest, log.coordinator.pollDeltas wire fromLsn maxEvents = .ok (events', more) ∧
        events.map (toStreamEvent wire) = events' ++ rest ∧ (more = true ↔ rest ≠ [])) ∧
      ∀ actions s, Run (ofStep step) ⟨log, log.coordinator.subscribe fromLsn⟩ actions s →
        (∀ a ∈ actions, a.leavesLog = true) →
          if s.connection.draining then
            actions.countP Action.isWork ≤ 3 * events.length ∧ (s.step .work).isSome = true
          else (s.connection.written.filter OutboundEvent.isCanonical).map (outboundToStreamEvent wire) =
            events.map (toStreamEvent wire) := by
  refine ⟨log.coordinator.above fromLsn, ?_, ?_, ?_, ?_⟩
  · rw [Coordinator.readSince_eq_page hInitialized, page, if_neg (Nat.lt_irrefl 0)]
  · intro maxEvents calls hCalls
    exact Coordinator.pollPages_flatten hInitialized wire maxEvents hServed hCalls
  · intro maxEvents
    refine ⟨_, _, ((log.coordinator.above fromLsn).drop (pollLimit maxEvents)).map (toStreamEvent wire),
      Coordinator.pollDeltas_eq hInitialized hServed wire maxEvents, ?_, ?_⟩
    · rw [← List.map_append, List.take_append_drop]
    · rw [decide_eq_true_eq, ne_eq, List.map_eq_nil_iff, List.drop_eq_nil_iff]
      omega
  · intro actions s hRun hLeaves
    have hLeft : Run (restrict (ofStep step) fun _ a => a.leavesLog = true)
        ⟨log, log.coordinator.subscribe fromLsn⟩ actions s := hRun.restrict hLeaves
    obtain ⟨hLog, hOpen, steps, hStage, hBound⟩ :=
      hLeft.counted Action.isWork (P := CatchesUp log (log.coordinator.above fromLsn))
        (fun _ _ _ _ h hStep => h.step hInitialized hStep.2 hStep.1) (catchesUp_subscribe hServed)
    rw [Nat.zero_add] at hBound
    by_cases hSteps : steps = 0
    · subst hSteps
      rw [if_neg (by simp [hStage.draining_iff]), hStage.of_zero.2, List.map_map]
      refine List.map_congr_left fun event _ => ?_
      cases event <;> rfl
    · obtain ⟨connection, hWork, -⟩ := hStage.work hInitialized hOpen hSteps
      rw [if_pos (hStage.draining_iff.mpr hSteps)]
      refine ⟨?_, ?_⟩
      · have := hBound hSteps
        omega
      · rw [step, hLog, hWork]
        rfl

/-- An entry, an entry with its tombstone and a marker. -/
def tombstonedLog : LoggedCoordinator :=
  logAfter [.step (.add [0x61] (.ok ())), .step (.add [0x62] (.error (.internalError "saturated"))),
    .step (.rotation fun _ => false)]

theorem catchUp_tombstoned :
    ∃ pages, tombstonedLog.coordinator.pollPages .utf8 (some 1) 4 0 = some pages ∧
      pages.flatten = [.entry 1 0 [0x61], .entry 2 0 [0x62], .rotate 3 1] := by
  have hInitialized : tombstonedLog.coordinator.canonical.initialized = true := by decide +kernel
  have hLatest : KeyedLog.latest CanonicalEvent.lsn
      (tombstonedLog.coordinator.canonical.events.filter fun event => 0 < event.lsn) =
        [.entry 1 0 [0x61], .tombstone 2 0 [0x62], .rotate 3 1] := by decide +kernel
  have hEvents : tombstonedLog.coordinator.above 0 = [.entry 1 0 [0x61], .tombstone 2 0 [0x62], .rotate 3 1] := by
    refine KeyedLog.ordered_eq_of_mem_iff (by decide) fun event => ?_
    rw [hLatest]
  have hServed : tombstonedLog.coordinator.canServeFrom 0 = true := by decide +kernel
  obtain ⟨events, hRead, hPages, -⟩ := catchUp .utf8 hInitialized hServed
  rw [Coordinator.readSince_eq_page hInitialized, hEvents] at hRead
  cases hRead
  exact hPages (some 1) 4 (by decide)

end Subscription

end TokenRevoker
