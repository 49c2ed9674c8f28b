import TokenRevoker.Server.RegistryAgreement
import TokenRevoker.Server.RunningDrain

/-! Every stream of the server, next to all the others. Nodes come and go, second streams are
refused, tasks fail and the server stops: what one stream is sent is the log, as if it were
alone with the coordinator. -/
namespace TokenRevoker

open Text Transition LsnContiguity

namespace NodeConnection

/-- The log is written up to position `p`; while the connection is open, its chain goes on
from there. -/
structure Streamed (history : List LogRecord) (requested subscribed p : Nat) (c : NodeConnection) : Prop where
  wrote : Wrote history requested subscribed p c.written
  phase : c.closed = false → c.Phase history subscribed p

variable {c d : NodeConnection} {history history' : List LogRecord} {segments : List Segment}
  {requested subscribed p : Nat} {event : OutboundEvent}

theorem streamed_subscribe (hLe : requested ≤ history.length) (lastLsn generation : Nat) :
    Streamed history requested history.length requested (subscribe requested lastLsn generation) where
  wrote := .nil hLe
  phase := (follows_subscribe hLe (Nat.zero_le _) lastLsn generation).phase

theorem Streamed.enqueue (h : Streamed history requested subscribed p c)
    (hMessages : messages history' = messages history ++ gained event) :
    Streamed history' requested subscribed p (c.enqueue event) := by
  have hWrote := h.wrote.grow hMessages
  cases hClosed : c.closed with
  | true =>
      rw [enqueue_closed hClosed]
      refine ⟨hWrote, fun hOpen => ?_⟩
      rw [hClosed] at hOpen
      cases hOpen
  | false =>
      rw [enqueue_open hClosed]
      exact ⟨hWrote, fun _ => (h.phase hClosed).concat hMessages⟩

/-- Once it is closed, nothing is asked of the chain. -/
theorem Streamed.shut (h : Streamed history requested subscribed p c) (hWritten : d.written = c.written)
    (hClosed : d.closed = true) : Streamed history requested subscribed p d where
  wrote := by rw [hWritten]; exact h.wrote
  phase := by
    intro hOpen
    rw [hClosed] at hOpen
    cases hOpen

theorem Streamed.work {coordinator : Coordinator} (h : Streamed history requested subscribed p c)
    (hEndures : coordinator.Endures segments history)
    (hServed : ∀ fromLsn rest, c.closed = false → c.tasks = .drain fromLsn [] :: rest →
      coordinator.canServeFrom fromLsn = true)
    (hWork : c.work coordinator = some d) : ∃ p', Streamed history requested subscribed p' d := by
  cases hClosed : c.closed with
  | true =>
      obtain ⟨hStays, hSame⟩ := work_closed hClosed hWork
      exact ⟨p, h.shut hSame hStays⟩
  | false =>
      obtain ⟨p', hProgress⟩ := (h.phase hClosed).work hClosed hEndures
        (fun fromLsn rest => hServed fromLsn rest hClosed) hWork
      refine ⟨p', ?_⟩
      cases hProgress with
      | silent hWritten hPhase => exact ⟨hWritten ▸ h.wrote, fun _ => hPhase⟩
      | next event hCanonical hNext hWritten hPhase =>
          exact ⟨hWritten ▸ h.wrote.next hCanonical hNext, fun _ => hPhase⟩
      | control event hControl hSubscribed hWritten hPhase =>
          exact ⟨hWritten ▸ h.wrote.control hControl hSubscribed, fun _ => hPhase⟩

/-- A step that leaves the connection closed writes nothing. -/
theorem written_of_closed {coordinator : Coordinator} (hWork : c.work coordinator = some d)
    (hClosed : d.closed = true) : d.written = c.written := by
  cases hBefore : c.closed with
  | true => exact (work_closed hBefore hWork).2
  | false =>
      rw [work] at hWork
      split at hWork
      · cases hWork
      · rw [if_neg (by simp [hBefore])] at hWork
        split at hWork <;> cases hWork <;> rfl
      · split_ifs at hWork <;> cases hWork
        · rfl
        · rfl
        · exact absurd (hBefore.symm.trans hClosed) Bool.false_ne_true
      · split_ifs at hWork <;> cases hWork
        · rfl
        · rfl
        · rfl
        · exact absurd (hBefore.symm.trans hClosed) Bool.false_ne_true

/-- A chain with nothing to do has written the whole log. -/
theorem Phase.eq_of_idle (h : c.Phase history subscribed p) (hIdle : c.tasks = []) : history.length ≤ p := by
  cases h with
  | draining batch rest hTasks => simp [hIdle] at hTasks
  | blocked fromLsn event batch rest hTasks => simp [hIdle] at hTasks
  | writing event rest q hTasks => simp [hIdle] at hTasks
  | live q hWaiting hWritten hQueue hQ hSubscribed =>
      obtain ⟨events, hTasks, -, hEvents⟩ := hQueue
      have hNil : events = [] := by simpa [hIdle] using hTasks.symm
      rw [hNil] at hEvents
      have hLength := congrArg List.length hEvents
      simp only [List.filter_nil, List.map_nil, List.length_nil, List.length_drop, length_messages] at hLength
      omega

end NodeConnection

namespace DistributedServer

/-- Neither the log nor the meta file fails to be written. -/
def Action.Unfailing : Action → Bool
  | .add append _ tombstone _ => append.isNone && tombstone.isNone
  | .rotation append metaWrite _ => append.isNone && metaWrite.isNone
  | _ => true

/-- The drain of the stream reads its next batch from where the log can still be served. -/
def ReadsServed (s : DistributedServer) (k : Nat) : Action → Bool
  | .work j _ =>
      match s.made[j]? with
      | none => true
      | some stream => j != k || Subscription.ReadsServed ⟨⟨s.coordinator, []⟩, stream.connection⟩ .work
  | _ => true

/-- What an action does to the log. -/
def logStep (log : LoggedCoordinator) : Action → LoggedCoordinator
  | .add _ applied _ item => log.add applied item
  | .rotation _ _ unlinkFails => log.rotation unlinkFails
  | _ => log

def logAfter (log : LoggedCoordinator) (actions : List Action) : LoggedCoordinator := actions.foldl logStep log

variable {s t : DistributedServer} {stream stream' : NodeConnectionImpl} {nodeId : JsString} {k now : Nat}

/-- The stream is as it was, or it is closed with what it has written. -/
def Ended (stream stream' : NodeConnectionImpl) : Prop :=
  stream' = stream ∨ stream'.nodeId = stream.nodeId ∧ stream'.connection.closed = true ∧
    stream'.connection.written = stream.connection.written

theorem Ended.trans {first last : NodeConnectionImpl} (h : Ended first stream) (h' : Ended stream last) :
    Ended first last := by
  rcases h' with rfl | ⟨hId, hClosed, hWritten⟩
  · exact h
  · rcases h with rfl | ⟨hFirst, -, hBefore⟩
    · exact Or.inr ⟨hId, hClosed, hWritten⟩
    · exact Or.inr ⟨hId.trans hFirst, hClosed, hWritten.trans hBefore⟩

/-- `close` reaches one stream only, and neither the coordinator nor its listener. -/
theorem close_frame (s : DistributedServer) (j : Nat) :
    (s.close j).coordinator = s.coordinator ∧ (s.close j).listening = s.listening ∧
      ∀ k, k ≠ j → (s.close j).made[k]? = s.made[k]? := by
  cases hAt : s.made[j]? with
  | none =>
      have hSame : s.close j = s := by rw [close, hAt]
      rw [hSame]
      exact ⟨rfl, rfl, fun _ _ => rfl⟩
  | some stream =>
      cases hClosed : stream.connection.closed with
      | true =>
          rw [close_of_closed hAt hClosed]
          exact ⟨rfl, rfl, fun _ _ => rfl⟩
      | false =>
          rw [close_of_open hAt hClosed]
          exact ⟨rfl, rfl, fun k hNe => List.getElem?_set_ne hNe.symm⟩

/-- And that stream is closed. -/
theorem close_self (hAt : s.made[k]? = some stream) :
    ∃ stream', (s.close k).made[k]? = some stream' ∧ stream'.nodeId = stream.nodeId ∧
      stream'.connection.closed = true ∧ stream'.connection.written = stream.connection.written := by
  cases hClosed : stream.connection.closed with
  | true =>
      rw [close_of_closed hAt hClosed]
      exact ⟨stream, hAt, rfl, hClosed, rfl⟩
  | false =>
      rw [close_of_open hAt hClosed]
      exact ⟨stream.close, List.getElem?_set_self (List.getElem?_eq_some_iff.mp hAt).1, rfl, rfl, rfl⟩

theorem close_ended (hAt : s.made[k]? = some stream) (j : Nat) :
    ∃ stream', (s.close j).made[k]? = some stream' ∧ Ended stream stream' := by
  by_cases hEq : k = j
  · subst hEq
    obtain ⟨stream', hAt', hClosed⟩ := close_self hAt
    exact ⟨stream', hAt', Or.inr hClosed⟩
  · exact ⟨stream, ((close_frame s j).2.2 k hEq).trans hAt, Or.inl rfl⟩

theorem abortUnregistered_ended (hAt : s.made[k]? = some stream) (j : Nat) :
    ∃ stream', (s.abortUnregistered j).made[k]? = some stream' ∧ Ended stream stream' := by
  rw [abortUnregistered]
  split
  · exact ⟨stream, hAt, Or.inl rfl⟩
  · next other hOther =>
    split_ifs
    · exact ⟨stream, hAt, Or.inl rfl⟩
    · by_cases hEq : k = j
      · subst hEq
        obtain rfl : other = stream := Option.some.inj (hOther.symm.trans hAt)
        exact ⟨_, List.getElem?_set_self (List.getElem?_eq_some_iff.mp hAt).1, Or.inr ⟨rfl, rfl, rfl⟩⟩
      · exact ⟨stream, (List.getElem?_set_ne (Ne.symm hEq)).trans hAt, Or.inl rfl⟩

theorem closeAll_frame (s : DistributedServer) (js : List Nat) :
    (js.foldl close s).coordinator = s.coordinator ∧ (js.foldl close s).listening = s.listening := by
  induction js generalizing s with
  | nil => exact ⟨rfl, rfl⟩
  | cons j rest ih => exact ⟨(ih _).1.trans (close_frame s j).1, (ih _).2.trans (close_frame s j).2.1⟩

theorem closeAll_ended (hAt : s.made[k]? = some stream) (js : List Nat) :
    ∃ stream', (js.foldl close s).made[k]? = some stream' ∧ Ended stream stream' := by
  induction js generalizing s stream with
  | nil => exact ⟨stream, hAt, Or.inl rfl⟩
  | cons j rest ih =>
      obtain ⟨middle, hMiddle, hFirst⟩ := close_ended hAt j
      obtain ⟨last, hLast, hRest⟩ := ih hMiddle
      exact ⟨last, hLast, hFirst.trans hRest⟩

/-- `stop` ends every stream. -/
theorem stop_ended (hAt : s.made[k]? = some stream) :
    ∃ stream', s.stop.made[k]? = some stream' ∧ Ended stream stream' := by
  obtain ⟨middle, hMiddle, hFirst⟩ := closeAll_ended (s := { s with listening := false }) hAt s.connections
  rw [stop, destroyRegistry]
  split
  · exact ⟨middle, hMiddle, hFirst⟩
  · next nodes hNodes =>
    obtain ⟨last, hLast, hRest⟩ := closeAll_ended
      (s := { s.connections.foldl close { s with listening := false } with connections := [] }) hMiddle
      (nodes.entries.map fun entry => entry.2.connection)
    exact ⟨last, hLast, hFirst.trans hRest⟩

theorem stop_coordinator (s : DistributedServer) : s.stop.coordinator = s.coordinator := by
  have hFirst := (closeAll_frame { s with listening := false } s.connections).1
  rw [stop, destroyRegistry]
  split
  · exact hFirst
  · exact (closeAll_frame _ _).1.trans hFirst

theorem abortUnregistered_frame (s : DistributedServer) (j : Nat) :
    (s.abortUnregistered j).coordinator = s.coordinator ∧ (s.abortUnregistered j).listening = s.listening := by
  rw [abortUnregistered]
  split
  · exact ⟨rfl, rfl⟩
  · split_ifs <;> exact ⟨rfl, rfl⟩

theorem ended_frame (s : DistributedServer) (j : Nat) :
    (s.ended j).coordinator = s.coordinator ∧ (s.ended j).listening = s.listening := by
  rw [ended]
  split
  · exact ⟨rfl, rfl⟩
  · split_ifs
    · exact abortUnregistered_frame s j
    · exact ⟨(close_frame s j).1, (close_frame s j).2.1⟩

theorem subscribe_frame (s : DistributedServer) (nodeId : JsString) (lastLsn : Int) (now : Nat) :
    (s.subscribe nodeId lastLsn now).1.coordinator = s.coordinator ∧
      (s.subscribe nodeId lastLsn now).1.listening = s.listening := by
  rcases s.subscribe_cases nodeId lastLsn now with hSame | ⟨_, _, -, -, -, -, hEq⟩ | ⟨_, _, -, -, -, -, hEq⟩
  · rw [hSame]
    exact ⟨rfl, rfl⟩
  · rw [hEq]
    exact ⟨rfl, rfl⟩
  · rw [hEq]
    exact ⟨rfl, rfl⟩

/-- What a task has thrown closes its stream. -/
theorem thrown_made (hAt : s.made[k]? = some stream) (thrown : NodeConnection)
    (hWritten : thrown.written = stream.connection.written) :
    ((s.setStream k { stream with connection := thrown }).close k).coordinator = s.coordinator ∧
    ((s.setStream k { stream with connection := thrown }).close k).listening = s.listening ∧
    (∀ j, j ≠ k → ((s.setStream k { stream with connection := thrown }).close k).made[j]? = s.made[j]?) ∧
    ∃ stream', ((s.setStream k { stream with connection := thrown }).close k).made[k]? = some stream' ∧
      stream'.nodeId = stream.nodeId ∧ stream'.connection.closed = true ∧
        stream'.connection.written = stream.connection.written := by
  have hSet : (s.setStream k { stream with connection := thrown }).made[k]? =
      some { stream with connection := thrown } :=
    List.getElem?_set_self (List.getElem?_eq_some_iff.mp hAt).1
  obtain ⟨hCoordinator, hListening, hOthers⟩ := close_frame (s.setStream k { stream with connection := thrown }) k
  obtain ⟨stream', hAt', hId, hClosed, hSame⟩ := close_self hSet
  exact ⟨hCoordinator, hListening, fun j hNe => (hOthers j hNe).trans (List.getElem?_set_ne hNe.symm), stream', hAt',
    hId, hClosed, hSame.trans hWritten⟩

/-- What one step of a chain does to its own stream and to the others. -/
theorem work_made (hStep : s.work k now = some t) :
    t.coordinator = s.coordinator ∧ t.listening = s.listening ∧ (∀ j, j ≠ k → t.made[j]? = s.made[j]?) ∧
      ∃ stream connection stream', s.made[k]? = some stream ∧ stream.connection.work s.coordinator = some connection ∧
        t.made[k]? = some stream' ∧ stream'.nodeId = stream.nodeId ∧ (stream'.connection = connection ∨
          stream'.connection.closed = true ∧ stream'.connection.written = stream.connection.written) := by
  obtain ⟨stream, hAt, hRest⟩ := Option.bind_eq_some_iff.mp hStep
  obtain ⟨connection, hWork, hRest⟩ := Option.bind_eq_some_iff.mp hRest
  have hSet : (s.setStream k { stream with connection := connection }).made[k]? =
      some { stream with connection := connection } :=
    List.getElem?_set_self (List.getElem?_eq_some_iff.mp hAt).1
  have hOthers : ∀ j, j ≠ k → (s.setStream k { stream with connection := connection }).made[j]? = s.made[j]? :=
    fun j hNe => List.getElem?_set_ne hNe.symm
  cases hDelivered : stream.connection.delivered with
  | some lsn =>
      simp only [hDelivered] at hRest
      cases hRecord : s.registry.recordSent stream.nodeId lsn now with
      | ok registry =>
          rw [hRecord] at hRest
          cases hRest
          exact ⟨rfl, rfl, hOthers, stream, connection, _, hAt, hWork, hSet, rfl, Or.inl rfl⟩
      | error error =>
          rw [hRecord] at hRest
          cases hRest
          obtain ⟨hCoordinator, hListening, hOthers, stream', hAt', hId, hEnded⟩ := thrown_made hAt
            { stream.connection.dropTask with lastWrittenLsn := connection.lastWrittenLsn } rfl
          exact ⟨hCoordinator, hListening, hOthers, stream, connection, stream', hAt, hWork, hAt', hId, Or.inr hEnded⟩
  | none =>
      simp only [hDelivered] at hRest
      split_ifs at hRest with hClosed
      · cases hRest
        have hWritten : connection.written = stream.connection.written := NodeConnection.written_of_closed hWork hClosed
        obtain ⟨hCoordinator, hListening, hOthers, stream', hAt', hId, hEnded⟩ := thrown_made hAt
          { connection with closed := stream.connection.closed } hWritten
        exact ⟨hCoordinator, hListening, hOthers, stream, connection, stream', hAt, hWork, hAt', hId, Or.inr hEnded⟩
      · cases hRest
        exact ⟨rfl, rfl, hOthers, stream, connection, _, hAt, hWork, hSet, rfl, Or.inl rfl⟩

/-- The server's coordinator has the log, and its listener is there until the registry goes. -/
structure Logs (log : LoggedCoordinator) (s : DistributedServer) : Prop where
  coordinator : s.coordinator = log.coordinator
  endures : ∃ segments, log.coordinator.Endures segments log.history
  agrees : s.Agrees
  listening : s.listening = true ∨ s.registry.nodes = none

variable {log : LoggedCoordinator} {a : Action} {requested subscribed p : Nat}

/-- Nothing but `stop` takes the listener away. -/
theorem listening_step (hStep : s.step a = some t) : t.listening = s.listening ∨ a = .stop := by
  cases a with
  | add append applied tombstone item =>
      cases hStep
      exact Or.inl rfl
  | rotation append metaWrite unlinkFails =>
      cases hStep
      exact Or.inl rfl
  | subscribe nodeId lastLsn now =>
      cases hStep
      exact Or.inl (subscribe_frame s nodeId lastLsn now).2
  | ended j =>
      cases hStep
      exact Or.inl (ended_frame s j).2
  | work j now => exact Or.inl (work_made hStep).2.1
  | fail j =>
      obtain ⟨stream, hAt, hRest⟩ := Option.bind_eq_some_iff.mp hStep
      obtain ⟨-, -, hRest⟩ := Option.bind_eq_some_iff.mp hRest
      cases hRest
      exact Or.inl (thrown_made hAt stream.connection.dropTask rfl).2.1
  | keepalive j now =>
      obtain ⟨stream, hAt, hRest⟩ := Option.bind_eq_some_iff.mp hStep
      obtain ⟨-, -, hRest⟩ := Option.bind_eq_some_iff.mp hRest
      cases hRest
      exact Or.inl rfl
  | stop => exact Or.inr rfl

/-- The coordinator does what its log says. -/
theorem coordinator_step (h : s.coordinator = log.coordinator) (hUnfailing : a.Unfailing = true)
    (hStep : s.step a = some t) : t.coordinator = (logStep log a).coordinator := by
  cases a with
  | add append applied tombstone item =>
      obtain ⟨rfl, rfl⟩ : append = none ∧ tombstone = none := by simpa [Action.Unfailing] using hUnfailing
      cases hStep
      exact congrArg (fun c : Coordinator => (c.add none applied none item).1) h
  | rotation append metaWrite unlinkFails =>
      obtain ⟨rfl, rfl⟩ : append = none ∧ metaWrite = none := by simpa [Action.Unfailing] using hUnfailing
      cases hStep
      exact congrArg (fun c : Coordinator => (c.onCoreRotation none none unlinkFails).1) h
  | subscribe nodeId lastLsn now =>
      cases hStep
      exact (subscribe_frame s nodeId lastLsn now).1.trans h
  | ended j =>
      cases hStep
      exact (ended_frame s j).1.trans h
  | work j now => exact (work_made hStep).1.trans h
  | fail j =>
      obtain ⟨stream, hAt, hRest⟩ := Option.bind_eq_some_iff.mp hStep
      obtain ⟨-, -, hRest⟩ := Option.bind_eq_some_iff.mp hRest
      cases hRest
      exact (thrown_made hAt stream.connection.dropTask rfl).1.trans h
  | keepalive j now =>
      obtain ⟨stream, hAt, hRest⟩ := Option.bind_eq_some_iff.mp hStep
      obtain ⟨-, -, hRest⟩ := Option.bind_eq_some_iff.mp hRest
      cases hRest
      exact h
  | stop =>
      cases hStep
      exact (stop_coordinator s).trans h

theorem endures_logStep {segments : List Segment} (h : log.coordinator.Endures segments log.history) (a : Action) :
    ∃ segments', (logStep log a).coordinator.Endures segments' (logStep log a).history := by
  cases a with
  | add append applied tombstone item => exact h.add applied item
  | rotation append metaWrite unlinkFails => exact h.rotation unlinkFails
  | subscribe | ended | work | fail | keepalive | stop => exact ⟨segments, h⟩

theorem Logs.step (h : s.Logs log) (hUnfailing : a.Unfailing = true) (hStep : s.step a = some t) :
    t.Logs (logStep log a) where
  coordinator := coordinator_step h.coordinator hUnfailing hStep
  endures := by
    obtain ⟨segments, hEndures⟩ := h.endures
    exact endures_logStep hEndures a
  agrees := h.agrees.step hStep
  listening := by
    rcases h.listening with hListening | hNodes
    · rcases listening_step hStep with hSame | rfl
      · exact Or.inl (hSame.trans hListening)
      · cases hStep
        exact Or.inr h.agrees.stop.2
    · exact Or.inr (nodes_step hNodes hStep)

/-- A stream that is open is broadcast to. -/
theorem Logs.listened (h : s.Logs log) (hAt : s.made[k]? = some stream) (hOpen : stream.connection.closed = false) :
    s.listening = true ∧ k ∈ s.connections := by
  refine ⟨?_, h.agrees.isOpen k stream hAt hOpen⟩
  rcases h.listening with hListening | hNodes
  · exact hListening
  · have hClosed := (h.agrees.closed_of_destroyed hNodes (List.mem_of_getElem? hAt)).1
    rw [hOpen] at hClosed
    cases hClosed

/-- What the coordinator passes on reaches every stream, or finds it closed. -/
theorem Logs.broadcast_made (h : s.Logs log) (hAt : s.made[k]? = some stream) (coordinator : Coordinator) :
    ∃ stream', (s.broadcast coordinator).made[k]? = some stream' ∧ stream'.nodeId = stream.nodeId ∧
      stream'.connection =
        (coordinator.sent.drop s.coordinator.sent.length).foldl NodeConnection.enqueue stream.connection := by
  rw [broadcast, List.getElem?_mapIdx, hAt]
  refine ⟨_, rfl, ?_⟩
  dsimp only
  split_ifs with hMember
  · exact ⟨rfl, rfl⟩
  · refine ⟨rfl, ?_⟩
    cases hClosed : stream.connection.closed with
    | false => exact absurd (h.listened hAt hClosed) hMember
    | true => exact ((NodeConnection.closed_foldl_enqueue _ stream.connection).2 hClosed).symm

/-- The stream has been sent a part of the log. -/
def Sent (log : LoggedCoordinator) (s : DistributedServer) (k : Nat) (nodeId : JsString) (requested subscribed : Nat) :
    Prop :=
  ∃ stream p, s.made[k]? = some stream ∧ stream.nodeId = nodeId ∧
    stream.connection.Streamed log.history requested subscribed p

theorem Sent.broadcast (h : s.Sent log k nodeId requested subscribed) (hLogs : s.Logs log)
    {log' : LoggedCoordinator} (hPublishes : log' = log ∨ ∃ r event, log.Publishes log' r event) :
    (s.broadcast log'.coordinator).Sent log' k nodeId requested subscribed := by
  obtain ⟨stream, p, hAt, hId, hStreamed⟩ := h
  obtain ⟨segments, hEndures⟩ := hLogs.endures
  obtain ⟨stream', hAt', hSameId, hConnection⟩ := hLogs.broadcast_made hAt log'.coordinator
  refine ⟨stream', p, hAt', hSameId.trans hId, ?_⟩
  rw [hConnection, hLogs.coordinator]
  rcases hPublishes with rfl | ⟨r, event, hPublishes⟩
  · rw [List.drop_length]
    exact hStreamed
  · rw [hPublishes.sent, List.drop_left]
    exact hStreamed.enqueue (hPublishes.messages_gained hEndures)

/-- Where the others go leaves the stream as it is, or it ends. -/
theorem Sent.of_ended (h : s.Sent log k nodeId requested subscribed)
    (hEnded : ∀ stream, s.made[k]? = some stream → ∃ stream', t.made[k]? = some stream' ∧ Ended stream stream') :
    t.Sent log k nodeId requested subscribed := by
  obtain ⟨stream, p, hAt, hId, hStreamed⟩ := h
  obtain ⟨stream', hAt', rfl | ⟨hSameId, hClosed, hWritten⟩⟩ := hEnded stream hAt
  · exact ⟨_, p, hAt', hId, hStreamed⟩
  · exact ⟨stream', p, hAt', hSameId.trans hId, hStreamed.shut hWritten hClosed⟩

theorem Sent.work (h : s.Sent log k nodeId requested subscribed) (hLogs : s.Logs log) {j : Nat}
    (hServed : s.ReadsServed k (.work j now) = true) (hStep : s.work j now = some t) :
    t.Sent log k nodeId requested subscribed := by
  obtain ⟨stream, p, hAt, hId, hStreamed⟩ := h
  obtain ⟨-, -, hOthers, other, connection, stream', hOther, hWork, hAt', hSameId, hBecame⟩ := work_made hStep
  by_cases hEq : k = j
  · subst hEq
    obtain rfl : other = stream := Option.some.inj (hOther.symm.trans hAt)
    rcases hBecame with hConnection | ⟨hClosed, hWritten⟩
    · obtain ⟨segments, hEndures⟩ := hLogs.endures
      rw [← hLogs.coordinator] at hEndures
      have hReads : ∀ fromLsn rest, other.connection.closed = false →
          other.connection.tasks = .drain fromLsn [] :: rest → s.coordinator.canServeFrom fromLsn = true := by
        intro fromLsn rest hOpen hTasks
        simpa [ReadsServed, hAt, Subscription.ReadsServed, hOpen, hTasks] using hServed
      obtain ⟨p', hStreamed'⟩ := hStreamed.work hEndures hReads hWork
      exact ⟨stream', p', hAt', hSameId.trans hId, hConnection ▸ hStreamed'⟩
    · exact ⟨stream', p, hAt', hSameId.trans hId, hStreamed.shut hWritten hClosed⟩
  · exact ⟨stream, p, (hOthers k hEq).trans hAt, hId, hStreamed⟩

/-- One step of the server, whichever stream it is about. -/
theorem Sent.step (h : s.Sent log k nodeId requested subscribed) (hLogs : s.Logs log) (hUnfailing : a.Unfailing = true)
    (hServed : s.ReadsServed k a = true) (hStep : s.step a = some t) :
    t.Sent (logStep log a) k nodeId requested subscribed := by
  obtain ⟨segments, hEndures⟩ := hLogs.endures
  cases a with
  | add append applied tombstone item =>
      obtain ⟨rfl, rfl⟩ : append = none ∧ tombstone = none := by simpa [Action.Unfailing] using hUnfailing
      cases hStep
      have hPublishes : log.add applied item = log ∨ ∃ r event, log.Publishes (log.add applied item) r event := by
        rcases LoggedCoordinator.add_publishes hEndures applied item with hSame | ⟨⟨r, hPublishes⟩, -⟩
        · exact Or.inl hSame
        · exact Or.inr ⟨r, _, hPublishes⟩
      rw [hLogs.coordinator]
      exact h.broadcast hLogs hPublishes
  | rotation append metaWrite unlinkFails =>
      obtain ⟨rfl, rfl⟩ : append = none ∧ metaWrite = none := by simpa [Action.Unfailing] using hUnfailing
      cases hStep
      obtain ⟨r, hPublishes⟩ := LoggedCoordinator.rotation_publishes hEndures unlinkFails
      rw [hLogs.coordinator]
      exact h.broadcast hLogs (Or.inr ⟨r, _, hPublishes⟩)
  | subscribe other lastLsn now =>
      cases hStep
      refine h.of_ended fun stream hAt => ⟨stream, ?_, Or.inl rfl⟩
      rcases s.subscribe_cases other lastLsn now with hSame | ⟨_, _, -, -, -, -, hEq⟩ | ⟨_, _, -, -, -, -, hEq⟩
      · rw [hSame]
        exact hAt
      · rw [hEq]
        exact Positions.getElem?_append_of_eq_some hAt _
      · rw [hEq]
        exact Positions.getElem?_append_of_eq_some hAt _
  | ended j =>
      cases hStep
      refine h.of_ended fun stream hAt => ?_
      rw [ended]
      split
      · exact ⟨stream, hAt, Or.inl rfl⟩
      · split_ifs
        · exact abortUnregistered_ended hAt j
        · exact close_ended hAt j
  | work j now => exact h.work hLogs hServed hStep
  | fail j =>
      obtain ⟨other, hOther, hRest⟩ := Option.bind_eq_some_iff.mp hStep
      obtain ⟨-, -, hRest⟩ := Option.bind_eq_some_iff.mp hRest
      cases hRest
      obtain ⟨-, -, hOthers, stream', hAt', hEnded⟩ := thrown_made hOther other.connection.dropTask rfl
      refine h.of_ended fun stream hAt => ?_
      by_cases hEq : k = j
      · subst hEq
        obtain rfl : other = stream := Option.some.inj (hOther.symm.trans hAt)
        exact ⟨stream', hAt', Or.inr hEnded⟩
      · exact ⟨stream, (hOthers k hEq).trans hAt, Or.inl rfl⟩
  | keepalive j now =>
      obtain ⟨other, hOther, hRest⟩ := Option.bind_eq_some_iff.mp hStep
      obtain ⟨-, -, hRest⟩ := Option.bind_eq_some_iff.mp hRest
      cases hRest
      obtain ⟨stream, p, hAt, hId, hStreamed⟩ := h
      by_cases hEq : k = j
      · subst hEq
        obtain rfl : other = stream := Option.some.inj (hOther.symm.trans hAt)
        exact ⟨_, p, List.getElem?_set_self (List.getElem?_eq_some_iff.mp hAt).1, hId,
          hStreamed.enqueue (List.append_nil _).symm⟩
      · exact ⟨stream, p, (List.getElem?_set_ne (Ne.symm hEq)).trans hAt, hId, hStreamed⟩
  | stop =>
      cases hStep
      exact h.of_ended fun stream hAt => stop_ended hAt

theorem logs_run {actions : List Action} (h : s.Logs log)
    (run : Run (restrict (ofStep step) fun _ a => a.Unfailing = true) s actions t) : t.Logs (logAfter log actions) := by
  induction run with
  | nil => exact h
  | snoc prior last ih =>
      rw [logAfter, List.foldl_append]
      exact ih.step last.2 last.1

theorem sent_run {actions : List Action} (h : s.Sent log k nodeId requested subscribed) (hLogs : s.Logs log)
    (run : Run (restrict (ofStep step) fun s a => a.Unfailing = true ∧ s.ReadsServed k a = true) s actions t) :
    t.Sent (logAfter log actions) k nodeId requested subscribed := by
  induction run with
  | nil => exact h
  | @snoc _ _ actions a prior last ih =>
      have hMiddle := logs_run hLogs (prior.mono fun _ _ _ hStep => ⟨hStep.1, hStep.2.1⟩)
      rw [logAfter, List.foldl_append]
      exact ih.step hMiddle last.2.1 last.2.2 last.1

/-- `Subscribe` has begun to stream. -/
theorem subscribe_streaming {lastLsn : Int} (h : (s.subscribe nodeId lastLsn now).2 = .streaming) :
    ∃ stream, (s.subscribe nodeId lastLsn now).1.made[s.made.length]? = some stream ∧ stream.nodeId = nodeId ∧
      stream.connection =
        .subscribe lastLsn.toNat s.coordinator.lastLsn s.coordinator.metaState.generation := by
  rw [subscribe] at h ⊢
  split_ifs at h ⊢
  cases hLsn : toLsn lastLsn with
  | none => simp [hLsn] at h
  | some requestedLsn =>
      obtain rfl : requestedLsn = lastLsn.toNat := by
        rw [toLsn] at hLsn
        split_ifs at hLsn
        exact (Option.some.inj hLsn).symm
      simp only [hLsn] at h ⊢
      split_ifs at h ⊢
      cases hRegister : s.registry.registerNode nodeId s.made.length now with
      | error error => simp [hRegister] at h
      | ok registry => exact ⟨_, List.getElem?_concat_length, rfl, rfl⟩

/-- A node that subscribes to a server is sent the log, from the LSN after the one it asks for
on: every record once, in order and in its generation, with no keepalive before what was in the
log by then, and all of it once its chain has nothing left to do. Neither the other nodes, nor
calls that are refused, nor streams that end or fail make a difference. Items are compared up to
lone surrogates, which a broadcast hands over as they are. Nothing is said once a write of the
log or of the meta file fails, or the drain reads where retention has been. -/
theorem streams_in_order (id walDir : String) (prior : List CoordinatorLives.Action) {log : LoggedCoordinator}
    (hLog : log = ⟨CoordinatorLives.run (CoordinatorRestart.start id walDir) prior,
      CoordinatorLives.history (CoordinatorRestart.start id walDir) prior⟩)
    {before actions : List Action} {lastLsn : Int}
    (hBefore : Run (restrict (ofStep step) fun _ a => a.Unfailing = true) (start log.coordinator) before s)
    (hStreaming : (s.subscribe nodeId lastLsn now).2 = .streaming) (hLe : lastLsn ≤ s.coordinator.lastLsn)
    (run : Run (restrict (ofStep step) fun u a => a.Unfailing = true ∧ u.ReadsServed s.made.length a = true)
      (s.subscribe nodeId lastLsn now).1 actions t) :
    ∃ stream p, t.made[s.made.length]? = some stream ∧ stream.nodeId = nodeId ∧ lastLsn.toNat ≤ p ∧
      p ≤ t.coordinator.lastLsn ∧
      stream.connection.written.filterMap lsnOf = List.range' (lastLsn.toNat + 1) (p - lastLsn.toNat) ∧
      (stream.connection.written.filter OutboundEvent.isCanonical).map OutboundEvent.wellFormed =
        ((messages (logAfter log (before ++ actions)).history).take p).drop lastLsn.toNat ∧
      (∀ j last generation, stream.connection.written[j]? = some (.keepalive last generation) →
        ∀ lsn, lastLsn.toNat < lsn → lsn ≤ s.coordinator.lastLsn →
          lsn ∈ (stream.connection.written.take j).filterMap lsnOf) ∧
      (stream.connection.closed = false → stream.connection.tasks = [] → p = t.coordinator.lastLsn) := by
  have hStart : (start log.coordinator).Logs log := by
    refine ⟨rfl, ?_, agrees_start log.coordinator, Or.inl rfl⟩
    rw [hLog]
    exact CoordinatorLives.endures_start id walDir prior
  have hOld := logs_run hStart hBefore
  have hLogs : (s.subscribe nodeId lastLsn now).1.Logs (logAfter log before) :=
    hOld.step (show Action.Unfailing (.subscribe nodeId lastLsn now) = true from rfl) rfl
  obtain ⟨segments, hEndures⟩ := hOld.endures
  have hLength : s.coordinator.lastLsn = (logAfter log before).history.length := by
    rw [hOld.coordinator]
    exact hEndures.lastLsn_eq
  obtain ⟨first, hFirst, hFirstId, hConnection⟩ := subscribe_streaming hStreaming
  have hSent : (s.subscribe nodeId lastLsn now).1.Sent (logAfter log before) s.made.length nodeId lastLsn.toNat
      (logAfter log before).history.length := by
    refine ⟨first, lastLsn.toNat, hFirst, hFirstId, ?_⟩
    rw [hConnection]
    exact NodeConnection.streamed_subscribe (by omega) _ _
  have hLater := logs_run hLogs (run.mono fun _ _ _ h => ⟨h.1, h.2.1⟩)
  obtain ⟨stream, p, hAt, hId, hStreamed⟩ := sent_run hSent hLogs run
  have hAfter : logAfter (logAfter log before) actions = logAfter log (before ++ actions) :=
    List.foldl_append.symm
  rw [hAfter] at hLater hStreamed
  obtain ⟨segments', hEndures'⟩ := hLater.endures
  have hLength' : t.coordinator.lastLsn = (logAfter log (before ++ actions)).history.length := by
    rw [hLater.coordinator]
    exact hEndures'.lastLsn_eq
  have hHigh := hStreamed.wrote.high
  refine ⟨stream, p, hAt, hId, hStreamed.wrote.low, by omega, Subscription.lsns_written hEndures' hStreamed.wrote,
    hStreamed.wrote.canonical, fun j last generation hAt lsn hLow hLsn => ?_, fun hOpen hIdle => ?_⟩
  · exact Subscription.mem_before_keepalive hEndures' hStreamed.wrote hAt hLow (by omega)
  · have hEnd := (hStreamed.phase hOpen).eq_of_idle hIdle
    omega

/-- A first node drains the log. -/
def crowd : List Action := [.subscribe [0x62] 1 1, .work 0 2]

/-- While a second one is served, another stream for it is refused, the first one's task fails,
a revocation comes and a rotation. -/
def meanwhile : List Action :=
  [.subscribe [0x61] 0 4, .work 1 5, .fail 0, .work 1 6, .add none (.ok ()) none [0x63], .work 1 7, .work 1 8,
    .rotation none none fun _ => false, .work 1 9, .work 1 10, .work 1 11, .work 1 12, .work 1 13, .work 1 14,
    .work 1 15, .work 1 16, .work 1 17, .work 1 18]

theorem streams_in_order_crowd :
    ∃ (t : DistributedServer) (stream : NodeConnectionImpl) (p : Nat), t.made[1]? = some stream ∧
      stream.connection.written =
        [.entry 2 0 [0x62], .entry 3 0 [0x63], .rotate 4 1, .keepalive 2 0] ∧
      stream.connection.written.filterMap lsnOf = List.range' 2 (p - 1) ∧ p = t.coordinator.lastLsn := by
  let log := Subscription.logAfter [.step (.add [0x61] (.ok ())), .step (.add [0x62] (.ok ()))]
  have hEnds : (((exec (guarded (fun _ a => a.Unfailing) step) (start log.coordinator) crowd).bind fun s =>
      if (s.subscribe [0x61] 1 3).2 = .streaming ∧ (1 : Int) ≤ s.coordinator.lastLsn ∧ s.made.length = 1 then
        exec (guarded (fun u a => a.Unfailing && u.ReadsServed 1 a) step) (s.subscribe [0x61] 1 3).1 meanwhile
      else none).bind fun t => t.made[1]?.map fun stream =>
        (stream.connection.written, !stream.connection.closed && stream.connection.tasks.isEmpty)) =
      some ([.entry 2 0 [0x62], .entry 3 0 [0x63], .rotate 4 1, .keepalive 2 0], true) := by
    decide +kernel
  obtain ⟨t, hRuns, hView⟩ := Option.bind_eq_some_iff.mp hEnds
  obtain ⟨s, hBefore, hRuns⟩ := Option.bind_eq_some_iff.mp hRuns
  obtain ⟨⟨hStreaming, hLe, hFirst⟩, hRun⟩ := Option.ite_none_right_eq_some.mp hRuns
  obtain ⟨stream, hAt, hStream⟩ := Option.map_eq_some_iff.mp hView
  simp only [Prod.mk.injEq, Bool.and_eq_true, Bool.not_eq_true', List.isEmpty_iff] at hStream
  obtain ⟨hWritten, hOpen, hIdle⟩ := hStream
  obtain ⟨other, p, hOther, -, -, -, hLsns, -, -, hAll⟩ := streams_in_order "r" "canonical" _ rfl
    ((run_of_exec hBefore).of_guarded fun _ _ h => h) hStreaming hLe
    ((run_of_exec hRun).of_guarded fun u a h => by rw [hFirst]; simpa using h)
  obtain rfl : other = stream := by
    rw [hFirst, hAt] at hOther
    exact (Option.some.inj hOther).symm
  exact ⟨t, other, p, hAt, hWritten, hLsns, hAll hOpen hIdle⟩

end DistributedServer

end TokenRevoker
