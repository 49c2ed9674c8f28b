import TokenRevoker.Node.CatchUp
import TokenRevoker.Node.ReplicaFeed

/-! Degraded mode, with a coordinator that answers and a log that rests. No stream comes up,
and the engine pages through the log. Page by page it gets all of it, whatever fails in
between. -/
namespace TokenRevoker

open Text Transition

/-- The call that a record asks for. -/
def recordCall (r : LogRecord) : Nat × RevokerCall := (r.1, r.2.call)

/-- The event of a page that brings a record. -/
def Brings (event : WireStreamEvent) : LogRecord → Prop
  | (lsn, .entry item) => ∃ generation, event = .entry (some ⟨decimal lsn, generation, item⟩)
  | (lsn, .rotate generation) => event = .rotate (some ⟨decimal lsn, int32 generation⟩)

/-- A page brings the next records, as many as there are and as fit on it. -/
theorem page_brings {c : Coordinator} {segments : List Segment} {history : List LogRecord}
    (h : c.Endures segments history) {fromLsn : Nat} (hServed : c.canServeFrom fromLsn = true) (wire : Wire)
    (maxEvents : Option Nat) :
    ∃ page more, c.pollDeltas wire fromLsn maxEvents = .ok (page, more) ∧
      List.Forall₂ Brings (page.map StreamEvent.toWire) ((history.drop fromLsn).take (pollLimit maxEvents)) := by
  have hInitialized := h.live.holds.initialized
  refine ⟨_, _, Coordinator.pollDeltas_eq hInitialized hServed wire maxEvents, ?_⟩
  obtain ⟨events, hRead, hRecords⟩ := h.readSince hServed 0
  rw [Coordinator.readSince_eq_page hInitialized, page, if_neg (Nat.lt_irrefl 0)] at hRead
  rw [page, if_neg (Nat.lt_irrefl 0), h.filter_eq_drop] at hRecords
  cases hRead
  rw [← hRecords, ← List.map_take, List.map_map, List.forall₂_map_left_iff, List.forall₂_map_right_iff,
    List.forall₂_same]
  intro event hEvent
  have hMem : event.record ∈ history := by
    refine List.mem_of_mem_drop (i := fromLsn) ?_
    rw [← hRecords]
    exact List.mem_map_of_mem (List.mem_of_mem_take hEvent)
  cases event with
  | entry lsn generation item | tombstone lsn generation item =>
      exact ⟨int32 generation, by simp [toStreamEvent, StreamEvent.toWire,
        wire.deliver_eq item (h.items lsn item hMem).2]⟩
  | rotate lsn generation => rfl

theorem Coordinator.Endures.lsn_eq {c : Coordinator} {segments : List Segment} {history : List LogRecord}
    (h : c.Endures segments history) {i : Nat} {r : LogRecord} (hAt : history[i]? = some r) : r.1 = i + 1 := by
  have hFst : (history.map Prod.fst)[i]? = some r.1 := by rw [List.getElem?_map, hAt, Option.map_some]
  rw [h.lsns, List.getElem?_range' (List.getElem?_eq_some_iff.mp hAt).1, Option.some_inj] at hFst
  omega

/-- The part of the engine that applies events. Streams, sleeps and timers are left out of it.
-/
structure Applier where
  lastAppliedLsn : Nat
  generation : Int
  polling : Option Poll
  chain : List Enqueued
  rotating : Option CoordinatedRotation
  fired : Bool
  stopped : Bool
  completed : List (Nat × RevokerCall)
  anomalies : List String

namespace Applier

/-- Where the poll is when the engine has been sent the records up to `top`. A page is applied
one event at a time, and a rotation takes a turn of its own. -/
inductive Stage (history : List LogRecord) (top : Nat) (a : Applier) : Prop where
  | between (hTop : a.lastAppliedLsn = top) (hChain : a.chain = []) (hRotating : a.rotating = none)
      (hPolling : ∀ poll, a.polling = some poll → ∃ pages, poll = .requesting a.lastAppliedLsn pages)
  | applying {event : WireStreamEvent} {rest : List WireStreamEvent} {more : Bool} {pages : Nat}
      {r : LogRecord} (hPolling : a.polling = some (.applying rest more pages))
      (hChain : a.chain = [⟨event, true⟩]) (hRotating : a.rotating = none)
      (hRecord : history[a.lastAppliedLsn]? = some r) (hEvent : Brings event r)
      (hRest : List.Forall₂ Brings rest ((history.take top).drop (a.lastAppliedLsn + 1)))
      (hLt : a.lastAppliedLsn < top)
  | rotating {rest : List WireStreamEvent} {more : Bool} {pages lsn marker : Nat}
      (hPolling : a.polling = some (.applying rest more pages)) (hChain : a.chain = [])
      (hRotating : a.rotating = some ⟨a.lastAppliedLsn + 1, a.generation + 1, true⟩)
      (hRecord : history[a.lastAppliedLsn]? = some (lsn, .rotate marker))
      (hRest : List.Forall₂ Brings rest ((history.take top).drop (a.lastAppliedLsn + 1)))
      (hLt : a.lastAppliedLsn < top)
  | resumed {rest : List WireStreamEvent} {more : Bool} {pages : Nat}
      (hPolling : a.polling = some (.resumed rest more pages)) (hChain : a.chain = [])
      (hRotating : a.rotating = none)
      (hRest : List.Forall₂ Brings rest ((history.take top).drop a.lastAppliedLsn))
      (hLe : a.lastAppliedLsn ≤ top)

/-- The records up to the cursor are applied, each of them once and in order. -/
structure FollowsLog (history : List LogRecord) (start a : Applier) : Prop where
  running : a.stopped = false
  clean : a.fired = false
  anomalies : a.anomalies = start.anomalies
  start_le : start.lastAppliedLsn ≤ a.lastAppliedLsn
  completed : a.completed = start.completed ++
    ((history.take a.lastAppliedLsn).drop start.lastAppliedLsn).map recordCall
  generation : a.generation = (markersOf (history.take a.lastAppliedLsn)).length

/-- How many steps of the chain and the loop are left of a page, at most. -/
def remaining (top : Nat) (a : Applier) : Nat :=
  match a.polling, a.rotating with
  | some (.resumed _ _ _), _ => 3 * (top - a.lastAppliedLsn) + 2
  | some (.applying _ _ _), none => 3 * (top - a.lastAppliedLsn) + 1
  | some (.applying _ _ _), some _ => 3 * (top - a.lastAppliedLsn)
  | _, _ => 0

variable {history : List LogRecord} {start a : Applier} {top : Nat}

/-- The record behind the cursor has been applied. -/
theorem take_drop_succ {lsn from_ : Nat} {r : LogRecord} (hLe : from_ ≤ lsn) (hRecord : history[lsn]? = some r) :
    (history.take (lsn + 1)).drop from_ = (history.take lsn).drop from_ ++ [r] := by
  obtain ⟨hLt, rfl⟩ := List.getElem?_eq_some_iff.mp hRecord
  rw [List.take_succ_eq_append_getElem hLt, List.drop_append_of_le_length]
  rw [List.length_take]
  omega

/-- The next record is applied. -/
def applied (a : Applier) (r : LogRecord) (polling : Option Poll) : Applier :=
  { a with
    lastAppliedLsn := a.lastAppliedLsn + 1
    generation := a.generation + if r.2.call.isRotation then 1 else 0
    completed := a.completed ++ [recordCall r]
    polling := polling
    chain := []
    rotating := none }

theorem FollowsLog.applied (h : FollowsLog history start a) {r : LogRecord} (hRecord : history[a.lastAppliedLsn]? = some r)
    (polling : Option Poll) : FollowsLog history start (a.applied r polling) where
  running := h.running
  clean := h.clean
  anomalies := h.anomalies
  start_le := Nat.le_succ_of_le h.start_le
  completed := by
    show a.completed ++ [recordCall r] = start.completed ++
      ((history.take (a.lastAppliedLsn + 1)).drop start.lastAppliedLsn).map recordCall
    rw [h.completed, take_drop_succ h.start_le hRecord, List.map_append, List.append_assoc]
    rfl
  generation := by
    obtain ⟨hLt, rfl⟩ := List.getElem?_eq_some_iff.mp hRecord
    show a.generation + _ = ((markersOf (history.take (a.lastAppliedLsn + 1))).length : Int)
    rw [List.take_succ_eq_append_getElem hLt, h.generation, length_markersOf, length_markersOf,
      List.countP_append, List.countP_singleton, Nat.cast_add]
    split_ifs <;> rfl

/-- What a page still has to bring, by its first event. -/
theorem next_record {event : WireStreamEvent} {rest : List WireStreamEvent} {lsn : Nat}
    (h : List.Forall₂ Brings (event :: rest) ((history.take top).drop lsn)) :
    ∃ r, history[lsn]? = some r ∧ Brings event r ∧
      List.Forall₂ Brings rest ((history.take top).drop (lsn + 1)) ∧ lsn < top := by
  have hLength := h.length_eq
  rw [List.length_cons, List.length_drop] at hLength
  have hLt : lsn < (history.take top).length := by omega
  rw [List.drop_eq_getElem_cons hLt, List.forall₂_cons] at h
  have hTop : lsn < top := Nat.lt_of_lt_of_le hLt (List.length_take_le ..)
  refine ⟨_, ?_, h.1, h.2, hTop⟩
  rw [← List.getElem?_eq_getElem hLt, List.getElem?_take_of_lt hTop]

end Applier

namespace SyncEngineProcess

open Applier

def applier (s : SyncEngineProcess) : Applier where
  lastAppliedLsn := s.lastAppliedLsn
  generation := s.generation
  polling := s.polling
  chain := s.chain
  rotating := s.rotating
  fired := s.rebootstrapFired
  stopped := s.stopped
  completed := s.history.completed
  anomalies := s.history.anomalies

variable {history : List LogRecord} {start : Applier} {s t : SyncEngineProcess} {top : Nat}

/-- The loop asks for a page, or ends. -/
theorem nextPage_follows (h : FollowsLog history start s.applier) (hEnd : s.lastAppliedLsn = top)
    (hChain : s.chain = []) (hRotating : s.rotating = none) (more : Bool) (pages : Nat) :
    FollowsLog history start (s.nextPage more pages).applier ∧ (s.nextPage more pages).applier.Stage history top ∧
      (s.nextPage more pages).applier.remaining top = 0 := by
  unfold nextPage
  split_ifs
  · refine ⟨⟨h.running, h.clean, h.anomalies, h.start_le, h.completed, h.generation⟩,
      .between hEnd hChain hRotating fun poll hPoll => ⟨pages, ?_⟩, rfl⟩
    exact (Option.some.inj hPoll).symm
  · exact ⟨⟨h.running, h.clean, h.anomalies, h.start_le, h.completed, h.generation⟩,
      .between hEnd hChain hRotating (fun poll hPoll => by cases hPoll), rfl⟩

/-- The loop goes on with the rest of its page, or behind it. -/
theorem nextEvent_follows (h : FollowsLog history start s.applier) (hTop : top ≤ history.length)
    (hChain : s.chain = []) (hRotating : s.rotating = none) {events : List WireStreamEvent}
    (hRest : List.Forall₂ Brings events ((history.take top).drop s.lastAppliedLsn))
    (hLe : s.lastAppliedLsn ≤ top) (more : Bool) (pages : Nat) :
    FollowsLog history start (s.nextEvent more pages events).applier ∧
      (s.nextEvent more pages events).applier.Stage history top ∧
      (s.nextEvent more pages events).applier.remaining top ≤ 3 * (top - s.lastAppliedLsn) + 1 := by
  cases events with
  | nil =>
      have hEnd : s.lastAppliedLsn = top := by
        have hLength := hRest.length_eq
        rw [List.length_nil, List.length_drop, List.length_take] at hLength
        omega
      obtain ⟨hFollows, hStage, hZero⟩ := nextPage_follows h hEnd hChain hRotating more (pages + 1)
      exact ⟨hFollows, hStage, hZero ▸ Nat.zero_le _⟩
  | cons event rest =>
      obtain ⟨r, hRecord, hEvent, hBehind, hLt⟩ := next_record hRest
      refine ⟨⟨h.running, h.clean, h.anomalies, h.start_le, h.completed, h.generation⟩,
        .applying rfl ?_ hRotating hRecord hEvent hBehind hLt, ?_⟩
      · show s.chain ++ [⟨event, true⟩] = [⟨event, true⟩]
        rw [hChain, List.nil_append]
      · simp [remaining, applier, nextEvent, enqueueApply, hRotating]

/-- The event of the next record passes the checks. -/
theorem check_brings {c : Coordinator} {segments : List Segment} (hEndures : c.Endures segments history)
    (hFits : ¬ Outgrown history) (h : FollowsLog history start s.applier) {event : WireStreamEvent} {r : LogRecord}
    (hRecord : history[s.lastAppliedLsn]? = some r) (hEvent : Brings event r) :
    s.check safeIntegerOf event = match r.2 with
      | .entry item => .entry (s.lastAppliedLsn + 1) item
      | .rotate _ => .rotate (s.lastAppliedLsn + 1) := by
  obtain ⟨lsn, payload⟩ := r
  obtain ⟨hLt, hEq⟩ := List.getElem?_eq_some_iff.mp hRecord
  have hLsn : lsn = s.lastAppliedLsn + 1 := hEndures.lsn_eq hRecord
  rw [Outgrown, not_or, Nat.not_lt, Nat.not_le] at hFits
  have hNumber : safeIntegerOf (decimal lsn) = some (s.lastAppliedLsn + 1) := by
    rw [safeIntegerOf_decimal, if_pos (by omega), hLsn]
  cases payload with
  | entry item =>
      obtain ⟨generation, rfl⟩ := hEvent
      simp [check, hNumber, checkLsn]
  | rotate marker =>
      obtain ⟨hMarker, hLe⟩ := hEndures.marker_eq hRecord
      have hGeneration : int32 marker = s.generation + 1 := by
        rw [int32_eq (by omega), hMarker]
        exact congrArg (· + 1) h.generation.symm
      cases hEvent
      simp [check, hNumber, checkLsn, hGeneration]

/-- The event of a page is applied, or its rotation begins. -/
theorem apply_follows {c : Coordinator} {segments : List Segment} (hEndures : c.Endures segments history)
    (hFits : ¬ Outgrown history) (h : FollowsLog history start s.applier) (hStage : s.applier.Stage history top)
    (hStep : s.step safeIntegerOf (.apply (.ok ()) (.ok ())) = some t) :
    FollowsLog history start t.applier ∧ t.applier.Stage history top ∧
      t.applier.remaining top < s.applier.remaining top := by
  simp only [step] at hStep
  split at hStep
  · rename_i enqueued behind hIdle hChain
    cases hStep
    cases hStage with
    | between hTop hNone | rotating hPolling hNone | resumed hPolling hNone =>
        rw [show s.chain = [] from hNone] at hChain
        cases hChain
    | @applying event rest more pages r hPolling hOne hRotating hRecord hEvent hRest hLt =>
        rw [show s.chain = [⟨event, true⟩] from hOne, List.cons.injEq] at hChain
        obtain ⟨rfl, rfl⟩ := hChain
        have hRunning : (s.stopped || s.rebootstrapFired) = false := by
          rw [Bool.or_eq_false_iff]
          exact ⟨h.running, h.clean⟩
        have hPolling : s.polling = some (.applying rest more pages) := hPolling
        have hLt : s.lastAppliedLsn < top := hLt
        have hBefore : s.applier.remaining top = 3 * (top - s.lastAppliedLsn) + 1 := by
          simp [remaining, applier, hPolling, hIdle]
        have hCheck := check_brings hEndures hFits h hRecord hEvent
        obtain ⟨lsn, payload⟩ := r
        simp only [applyEvent, hRunning, Bool.false_eq_true, if_false]
        rw [show ({ s with chain := [] } : SyncEngineProcess).check safeIntegerOf event =
          s.check safeIntegerOf event from rfl, hCheck]
        cases payload with
        | entry item =>
            have hLsn : lsn = s.lastAppliedLsn + 1 := hEndures.lsn_eq hRecord
            have hEq : applier (((({ s with chain := [] } : SyncEngineProcess).attempt (s.lastAppliedLsn + 1)
                (.applyEntry item)).complete (s.lastAppliedLsn + 1) (.applyEntry item)).persist
                (s.lastAppliedLsn + 1) (.ok ()) |>.resolve true) =
                s.applier.applied (lsn, .entry item) (some (.resumed rest more pages)) := by
              simp [applier, Applier.applied, attempt, complete, persist, resolve, hPolling, hIdle, recordCall,
                hLsn, Payload.call, RevokerCall.isRotation]
            rw [hEq, hBefore]
            refine ⟨h.applied hRecord _, .resumed rfl rfl rfl hRest (Nat.succ_le_of_lt hLt), ?_⟩
            show 3 * (top - (s.lastAppliedLsn + 1)) + 2 < 3 * (top - s.lastAppliedLsn) + 1
            omega
        | rotate marker =>
            refine ⟨⟨h.running, h.clean, h.anomalies, h.start_le, h.completed, h.generation⟩,
              .rotating hPolling rfl rfl hRecord hRest hLt, ?_⟩
            rw [hBefore]
            show remaining top { s.applier with chain := [], rotating := some _ } < _
            simp [remaining, applier, hPolling]
  · cases hStep

/-- The rotation of a page is over. -/
theorem rotated_follows {c : Coordinator} {segments : List Segment} (hEndures : c.Endures segments history)
    (h : FollowsLog history start s.applier) (hStage : s.applier.Stage history top)
    (hStep : s.step safeIntegerOf (.rotated (.ok ()) (.ok ())) = some t) :
    FollowsLog history start t.applier ∧ t.applier.Stage history top ∧
      t.applier.remaining top < s.applier.remaining top := by
  obtain ⟨rotation, hSome, rfl⟩ := Option.map_eq_some_iff.mp hStep
  cases hStage with
  | between hTop hChain hNone | applying hPolling hChain hNone | resumed hPolling hChain hNone =>
      rw [show s.rotating = none from hNone] at hSome
      cases hSome
  | @rotating rest more pages lsn marker hPolling hChain hRotating hRecord hRest hLt =>
      have hBefore : s.applier.remaining top = 3 * (top - s.lastAppliedLsn) := by
        simp [remaining, hPolling, hRotating]
        rfl
      rw [show s.rotating = some ⟨s.lastAppliedLsn + 1, s.generation + 1, true⟩ from hRotating] at hSome
      cases hSome
      have hPolling : s.polling = some (.applying rest more pages) := hPolling
      have hChain : s.chain = [] := hChain
      have hLsn : lsn = s.lastAppliedLsn + 1 := hEndures.lsn_eq hRecord
      have hEq : (s.finishRotation ⟨s.lastAppliedLsn + 1, s.generation + 1, true⟩ (.ok ()) (.ok ())).applier =
          s.applier.applied (lsn, .rotate marker) (some (.resumed rest more pages)) := by
        simp [applier, Applier.applied, finishRotation, complete, persist, resolve, hPolling, hChain, recordCall,
          hLsn, Payload.call, RevokerCall.isRotation]
      have hLt : s.lastAppliedLsn < top := hLt
      rw [hEq, hBefore]
      refine ⟨h.applied hRecord _, .resumed rfl rfl rfl hRest (Nat.succ_le_of_lt hLt), ?_⟩
      show 3 * (top - (s.lastAppliedLsn + 1)) + 2 < 3 * (top - s.lastAppliedLsn)
      omega

/-- The loop goes on behind an event. -/
theorem pollNext_follows (hTop : top ≤ history.length) (h : FollowsLog history start s.applier)
    (hStage : s.applier.Stage history top) (hStep : s.step safeIntegerOf .pollNext = some t) :
    FollowsLog history start t.applier ∧ t.applier.Stage history top ∧
      t.applier.remaining top < s.applier.remaining top := by
  simp only [step] at hStep
  split at hStep
  · rename_i rest more count hPolling
    have hRunning : (s.stopped || s.rebootstrapFired) = false := by
      rw [Bool.or_eq_false_iff]
      exact ⟨h.running, h.clean⟩
    rw [hRunning] at hStep
    cases hStep
    cases hStage with
    | between hEnd hChain hRotating hRequesting =>
        obtain ⟨_, hEq⟩ := hRequesting _ hPolling
        cases hEq
    | applying hSome | rotating hSome =>
        rw [show s.polling = _ from hSome] at hPolling
        cases hPolling
    | resumed hSome hChain hRotating hRest hLe =>
        rw [show s.polling = _ from hSome] at hPolling
        cases hPolling
        obtain ⟨hFollows, hNext, hFewer⟩ := nextEvent_follows h hTop hChain hRotating hRest hLe more count
        refine ⟨hFollows, hNext, Nat.lt_of_le_of_lt hFewer ?_⟩
        have hBefore : s.applier.remaining top = 3 * (top - s.lastAppliedLsn) + 2 := by
          simp only [remaining, hSome]
          rfl
        omega
  · cases hStep

theorem enterReconnecting_applier (s : SyncEngineProcess) : s.enterReconnecting.applier = s.applier := by
  unfold enterReconnecting scheduleReconnect startPolling
  split_ifs <;> rfl

theorem handleStreamDown_applier (s : SyncEngineProcess) (stream : Nat) :
    (s.handleStreamDown stream).applier = s.applier := by
  unfold handleStreamDown
  split_ifs
  · rfl
  · exact enterReconnecting_applier { s with stream := none }

theorem trySubscribe_applier (s : SyncEngineProcess) : s.trySubscribe.applier = s.applier := by
  unfold trySubscribe
  split_ifs <;> rfl

/-- What happens in degraded mode: calls of `subscribe` fail, polls fail or are answered by
the coordinator, and the revoker and the disk do what they are asked to. -/
def PollsOnly (c : Coordinator) (wire : Wire) (maxEvents : Option Nat) (s : SyncEngineProcess) : Action → Prop
  | .pollResponse events moreAvailable => ∃ fromLsn pages page,
      s.polling = some (.requesting fromLsn pages) ∧
        c.pollDeltas wire fromLsn maxEvents = .ok (page, moreAvailable) ∧ events = page.map StreamEvent.toWire
  | .apply applied updated | .rotated applied updated => applied = .ok () ∧ updated = .ok ()
  | .pollTick | .pollNext | .pollFailed | .subscribeFailed _ | .streamDown _ | .watchdog | .wake _ => True
  | .start | .subscribed _ | .data _ _ | .stop => False

def Polls (c : Coordinator) (wire : Wire) (maxEvents : Option Nat) :
    SyncEngineProcess → Action → SyncEngineProcess → Prop :=
  restrict (ofStep (step safeIntegerOf)) (PollsOnly c wire maxEvents)

/-- A page of a poll has come. -/
def Action.isPage : Action → Bool
  | .pollResponse _ _ => true
  | _ => false

/-- The poll works on a page. -/
def paging (s : SyncEngineProcess) : Bool :=
  match s.polling with
  | some (.applying _ _ _) | some (.resumed _ _ _) => true
  | _ => false

/-- The LSN up to which so many pages bring the log. A page that the log cannot fill ends at its
end. -/
def reach (history : List LogRecord) (maxEvents : Option Nat) (fromLsn pages : Nat) : Nat :=
  min (fromLsn + pages * pollLimit maxEvents) history.length

/-- The engine has applied the log up to its cursor, and nothing is under way. It is how
degraded mode begins, if nothing was left behind. -/
structure AtRest (history : List LogRecord) (s : SyncEngineProcess) : Prop where
  running : s.stopped = false
  clean : s.rebootstrapFired = false
  cursor_le : s.lastAppliedLsn ≤ history.length
  generation : s.generation = (markersOf (history.take s.lastAppliedLsn)).length
  polling : s.polling = none
  chain : s.chain = []
  rotating : s.rotating = none

/-- What the next page brings behind what the earlier ones brought. -/
theorem take_reach (history : List LogRecord) (maxEvents : Option Nat) (fromLsn pages : Nat) :
    (history.take (reach history maxEvents fromLsn (pages + 1))).drop (reach history maxEvents fromLsn pages) =
      (history.drop (reach history maxEvents fromLsn pages)).take (pollLimit maxEvents) := by
  rw [List.drop_take, List.take_eq_take_iff, List.length_drop, reach, reach, Nat.add_mul]
  omega

variable {c : Coordinator} {segments : List Segment} {wire : Wire} {maxEvents : Option Nat} {a : Action}
  {n pages : Nat}

/-- A page brings the engine on by its length, or to the end of the log. -/
theorem pollResponse_follows (hEndures : c.Endures segments history)
    (hServed : c.canServeFrom start.lastAppliedLsn = true) (h : FollowsLog history start s.applier)
    (hStage : s.applier.Stage history (reach history maxEvents n pages)) {fromLsn count : Nat}
    {page : List StreamEvent} {moreAvailable : Bool} (hPolling : s.polling = some (.requesting fromLsn count))
    (hAnswer : c.pollDeltas wire fromLsn maxEvents = .ok (page, moreAvailable))
    (hStep : s.step safeIntegerOf (.pollResponse (page.map StreamEvent.toWire) moreAvailable) = some t) :
    FollowsLog history start t.applier ∧ t.applier.Stage history (reach history maxEvents n (pages + 1)) := by
  cases hStage with
  | between hEnd hChain hRotating hRequesting =>
      obtain ⟨_, hEq⟩ := hRequesting _ hPolling
      have hCursor : fromLsn = s.lastAppliedLsn := (Poll.requesting.inj hEq).1
      have hEnd : s.lastAppliedLsn = reach history maxEvents n pages := hEnd
      have hLater : c.canServeFrom s.lastAppliedLsn = true := by
        rw [Coordinator.canServeFrom, CanonicalWal.canServeFrom, decide_eq_true_eq] at hServed ⊢
        exact Nat.le_trans hServed h.start_le
      obtain ⟨page', more, hPoll, hBrings⟩ := page_brings hEndures hLater wire maxEvents
      rw [hCursor, hPoll, Except.ok.injEq, Prod.mk.injEq] at hAnswer
      obtain ⟨rfl, rfl⟩ := hAnswer
      simp only [step, hPolling] at hStep
      rw [show s.stopped = false from h.running] at hStep
      cases hStep
      have hTop : reach history maxEvents n (pages + 1) ≤ history.length := Nat.min_le_right _ _
      have hFollows : FollowsLog history start (s.receive (page'.map StreamEvent.toWire)).applier :=
        ⟨h.running, h.clean, h.anomalies, h.start_le, h.completed, h.generation⟩
      have hLe : s.lastAppliedLsn ≤ reach history maxEvents n (pages + 1) := by
        rw [hEnd, reach, reach, Nat.add_mul]
        omega
      have hRest : List.Forall₂ Brings (page'.map StreamEvent.toWire)
          ((history.take (reach history maxEvents n (pages + 1))).drop s.lastAppliedLsn) := by
        rw [hEnd] at hBrings ⊢
        rw [take_reach]
        exact hBrings
      obtain ⟨hFollows, hNext, -⟩ := nextEvent_follows hFollows hTop hChain hRotating hRest hLe more count
      exact ⟨hFollows, hNext⟩
  | applying hSome | rotating hSome | resumed hSome =>
      rw [show s.polling = _ from hSome] at hPolling
      cases hPolling

/-- A step keeps pace with the pages. -/
theorem polls_follows (hEndures : c.Endures segments history) (hFits : ¬ Outgrown history)
    (hServed : c.canServeFrom start.lastAppliedLsn = true) (h : FollowsLog history start s.applier)
    (hStage : s.applier.Stage history (reach history maxEvents n pages)) (hPolls : Polls c wire maxEvents s a t) :
    FollowsLog history start t.applier ∧ t.applier.Stage history
      (reach history maxEvents n (if a.isPage then pages + 1 else pages)) := by
  obtain ⟨hStep, hAllowed⟩ := hPolls
  have hTop : ∀ pages, reach history maxEvents n pages ≤ history.length := fun pages => Nat.min_le_right _ _
  cases a with
  | start | subscribed | data | stop => exact absurd hAllowed id
  | subscribeFailed index =>
      simp only [ofStep, step] at hStep
      split_ifs at hStep
      cases hStep
      rw [enterReconnecting_applier]
      exact ⟨h, hStage⟩
  | streamDown stream =>
      simp only [ofStep, step] at hStep
      split_ifs at hStep
      cases hStep
      rw [handleStreamDown_applier]
      exact ⟨h, hStage⟩
  | watchdog =>
      simp only [ofStep, step] at hStep
      split_ifs at hStep
      split at hStep <;> cases hStep
      · rw [handleStreamDown_applier]
        exact ⟨h, hStage⟩
      · exact ⟨h, hStage⟩
  | wake index =>
      simp only [ofStep, step] at hStep
      split at hStep
      · split_ifs at hStep <;> cases hStep
        · exact ⟨h, hStage⟩
        · rw [trySubscribe_applier]
          exact ⟨h, hStage⟩
      · cases hStep
  | pollTick =>
      simp only [ofStep, step] at hStep
      split_ifs at hStep with hTimer hBusy <;> cases hStep
      · exact ⟨h, hStage⟩
      · simp only [Bool.or_eq_true, not_or, Bool.not_eq_true, Option.isSome_eq_false_iff,
          Option.isNone_iff_eq_none] at hBusy
        obtain ⟨⟨-, hPolling⟩, -⟩ := hBusy
        cases hStage with
        | between hEnd hChain hRotating =>
            obtain ⟨hFollows, hStage, -⟩ := nextPage_follows h hEnd hChain hRotating true 0
            exact ⟨hFollows, hStage⟩
        | applying hSome | rotating hSome | resumed hSome =>
            rw [show s.polling = _ from hSome] at hPolling
            cases hPolling
  | pollResponse events moreAvailable =>
      obtain ⟨fromLsn, count, page, hPolling, hAnswer, rfl⟩ := hAllowed
      exact pollResponse_follows hEndures hServed h hStage hPolling hAnswer hStep
  | pollFailed =>
      simp only [ofStep, step] at hStep
      split at hStep
      · rename_i fromLsn count hPolling
        cases hStep
        cases hStage with
        | between hEnd hChain hRotating =>
            exact ⟨⟨h.running, h.clean, h.anomalies, h.start_le, h.completed, h.generation⟩,
              .between hEnd hChain hRotating fun poll hPoll => by cases hPoll⟩
        | applying hSome | rotating hSome | resumed hSome =>
            rw [show s.polling = _ from hSome] at hPolling
            cases hPolling
      · cases hStep
  | pollNext =>
      obtain ⟨hFollows, hNext, -⟩ := pollNext_follows (hTop _) h hStage hStep
      exact ⟨hFollows, hNext⟩
  | apply applied updated =>
      obtain ⟨rfl, rfl⟩ := hAllowed
      obtain ⟨hFollows, hApplied, -⟩ := apply_follows hEndures hFits h hStage hStep
      exact ⟨hFollows, hApplied⟩
  | rotated outcome updated =>
      obtain ⟨rfl, rfl⟩ := hAllowed
      obtain ⟨hFollows, hRotated, -⟩ := rotated_follows hEndures h hStage hStep
      exact ⟨hFollows, hRotated⟩

theorem AtRest.follows (h : AtRest history s) (maxEvents : Option Nat) :
    FollowsLog history s.applier s.applier ∧
      s.applier.Stage history (reach history maxEvents s.lastAppliedLsn 0) := by
  have hEnd : s.lastAppliedLsn = reach history maxEvents s.lastAppliedLsn 0 := by
    rw [reach, Nat.zero_mul, Nat.add_zero, Nat.min_eq_left h.cursor_le]
  refine ⟨⟨h.running, h.clean, rfl, Nat.le_refl _, ?_, h.generation⟩, .between hEnd h.chain h.rotating ?_⟩
  · have hNothing : (history.take s.lastAppliedLsn).drop s.lastAppliedLsn = [] :=
      List.drop_eq_nil_of_le (List.length_take_le ..)
    show s.history.completed = s.history.completed ++ _
    rw [show s.applier.lastAppliedLsn = s.lastAppliedLsn from rfl, hNothing, List.map_nil, List.append_nil]
  · intro poll hPoll
    rw [show s.applier.polling = none from h.polling] at hPoll
    cases hPoll

/-- The steps that finish a page. -/
def Finishes : SyncEngineProcess → Action → SyncEngineProcess → Prop :=
  restrict (ofStep (step safeIntegerOf)) fun _ a =>
    a = .apply (.ok ()) (.ok ()) ∨ a = .rotated (.ok ()) (.ok ()) ∨ a = .pollNext

/-- What has come on a page can be applied to its end. -/
theorem exists_finish (hEndures : c.Endures segments history) (hFits : ¬ Outgrown history)
    (hTop : top ≤ history.length) (h : FollowsLog history start s.applier) (hStage : s.applier.Stage history top) :
    ∃ actions t, Run Finishes s actions t ∧
      (FollowsLog history start t.applier ∧ t.applier.Stage history top) ∧ t.paging = false := by
  refine exists_run_of_progress (P := fun s : SyncEngineProcess =>
      FollowsLog history start s.applier ∧ s.applier.Stage history top)
    (fun s => s.applier.remaining top) (fun s hs hPaging => ?_) ⟨h, hStage⟩
  obtain ⟨h, hStage⟩ := hs
  cases hStage with
  | between hEnd hChain hRotating hRequesting =>
      refine absurd ?_ hPaging
      unfold paging
      split
      · rename_i hPolling
        obtain ⟨_, hEq⟩ := hRequesting _ hPolling
        cases hEq
      · rename_i hPolling
        obtain ⟨_, hEq⟩ := hRequesting _ hPolling
        cases hEq
      · rfl
  | applying hPolling hChain hRotating hRecord hEvent hRest hLt =>
      have hStep : ∃ t, s.step safeIntegerOf (.apply (.ok ()) (.ok ())) = some t := by
        simp only [step, show s.chain = _ from hChain, show s.rotating = none from hRotating]
        exact ⟨_, rfl⟩
      obtain ⟨t, hStep⟩ := hStep
      obtain ⟨hFollows, hNext, hFewer⟩ := apply_follows hEndures hFits h
        (.applying hPolling hChain hRotating hRecord hEvent hRest hLt) hStep
      exact ⟨_, t, ⟨hStep, Or.inl rfl⟩, ⟨hFollows, hNext⟩, hFewer⟩
  | rotating hPolling hChain hRotating hRecord hRest hLt =>
      have hStep : ∃ t, s.step safeIntegerOf (.rotated (.ok ()) (.ok ())) = some t := by
        simp only [step, show s.rotating = _ from hRotating]
        exact ⟨_, rfl⟩
      obtain ⟨t, hStep⟩ := hStep
      obtain ⟨hFollows, hNext, hFewer⟩ := rotated_follows hEndures h
        (.rotating hPolling hChain hRotating hRecord hRest hLt) hStep
      exact ⟨_, t, ⟨hStep, Or.inr (Or.inl rfl)⟩, ⟨hFollows, hNext⟩, hFewer⟩
  | resumed hPolling hChain hRotating hRest hLe =>
      have hStep : ∃ t, s.step safeIntegerOf .pollNext = some t := by
        simp only [step, show s.polling = _ from hPolling]
        split_ifs <;> exact ⟨_, rfl⟩
      obtain ⟨t, hStep⟩ := hStep
      obtain ⟨hFollows, hNext, hFewer⟩ := pollNext_follows hTop h
        (.resumed hPolling hChain hRotating hRest hLe) hStep
      exact ⟨_, t, ⟨hStep, Or.inr (Or.inr rfl)⟩, ⟨hFollows, hNext⟩, hFewer⟩

/-- Between its pages the poll has applied all that they brought. -/
theorem cursor_of_not_paging (hStage : s.applier.Stage history top) (hPaging : s.paging = false) :
    s.lastAppliedLsn = top := by
  cases hStage with
  | between hEnd => exact hEnd
  | applying hPolling | rotating hPolling | resumed hPolling =>
      rw [paging, show s.polling = _ from hPolling] at hPaging
      cases hPaging

/-- In degraded mode, with a coordinator whose log rests and a revoker and a disk that work,
nothing goes wrong however the polls and the attempts to subscribe are interleaved: the engine
applies the records of the log, each of them once and in order. Every page is worth its
length: between two pages the engine is at the end of what they brought, until it is at the
end of the log, and a page that has come can always be finished. -/
theorem polling_converges (id walDir : String) (prior : List CoordinatorLives.Action) {log : LoggedCoordinator}
    (hLog : log = ⟨CoordinatorLives.run (CoordinatorRestart.start id walDir) prior,
      CoordinatorLives.history (CoordinatorRestart.start id walDir) prior⟩) (hFits : ¬ Outgrown log.history)
    {actions : List Action} (hRest : AtRest log.history s)
    (hServed : log.coordinator.canServeFrom s.lastAppliedLsn = true)
    (run : Run (Polls log.coordinator wire maxEvents) s actions t) :
    t.rebootstrapFired = false ∧ t.history.anomalies = s.history.anomalies ∧
      t.history.completed = s.history.completed ++
        ((log.history.take t.lastAppliedLsn).drop s.lastAppliedLsn).map recordCall ∧
      (t.paging = false → t.lastAppliedLsn =
        reach log.history maxEvents s.lastAppliedLsn (actions.countP Action.isPage)) ∧
      ∃ more u, Run Finishes t more u ∧ u.paging = false ∧ u.lastAppliedLsn =
        reach log.history maxEvents s.lastAppliedLsn (actions.countP Action.isPage) := by
  obtain ⟨segments, hStart⟩ := CoordinatorLives.endures_start id walDir prior
  have hEndures : log.coordinator.Endures segments log.history := by
    rw [hLog]
    exact hStart
  obtain ⟨hFollows, hStage⟩ := run.counted (P := fun pages u => FollowsLog log.history s.applier u.applier ∧
    u.applier.Stage log.history (reach log.history maxEvents s.lastAppliedLsn pages)) Action.isPage
    (fun pages _ _ _ h hStep => polls_follows hEndures hFits hServed h.1 h.2 hStep) (hRest.follows maxEvents)
  rw [Nat.zero_add] at hStage
  obtain ⟨more, u, hRun, ⟨-, hEnd⟩, hPaging⟩ := exists_finish hEndures hFits (Nat.min_le_right _ _) hFollows hStage
  exact ⟨hFollows.clean, hFollows.anomalies, hFollows.completed, cursor_of_not_paging hStage, more, u, hRun,
    hPaging, cursor_of_not_paging hEnd hPaging⟩

/-- Actions that degraded mode allows in every state. -/
def Action.isPoll : Action → Bool
  | .apply (.ok ()) (.ok ()) | .rotated (.ok ()) (.ok ()) | .pollTick | .pollNext => true
  | _ => false

theorem polls_of_exec {actions : List Action} (hExec : exec (step safeIntegerOf) s actions = some t)
    (hPoll : ∀ a ∈ actions, a.isPoll = true) : Run (Polls c wire maxEvents) s actions t := by
  refine ((run_of_exec hExec).restrict hPoll).mono fun u a v h => ⟨h.1, ?_⟩
  obtain ⟨-, hPoll⟩ := h
  unfold Action.isPoll at hPoll
  split at hPoll
  · exact ⟨rfl, rfl⟩
  · exact ⟨rfl, rfl⟩
  · trivial
  · trivial
  · cases hPoll

/-- An engine at the beginning of the log, whose call of `subscribe` has failed. -/
def disconnected : SyncEngineProcess := (init 0 0).enterReconnecting

/-- The one page of a log of two entries and a marker. -/
def onePage : List WireStreamEvent :=
  [.entry (some ⟨decimal 1, 0, [0x61]⟩), .entry (some ⟨decimal 2, 0, [0x62]⟩), .rotate (some ⟨decimal 3, 1⟩)]

/-- The steps behind it. -/
def finishing : List Action :=
  [.apply (.ok ()) (.ok ()), .pollNext, .apply (.ok ()) (.ok ()), .pollNext, .apply (.ok ()) (.ok ()),
    .rotated (.ok ()) (.ok ()), .pollNext]

theorem polling_converges_tombstoned :
    ∃ t, exec (step safeIntegerOf) disconnected ([.pollTick, .pollResponse onePage false] ++ finishing) = some t ∧
      t.rebootstrapFired = false ∧ t.lastAppliedLsn = 3 := by
  have hServed : Subscription.tombstonedLog.coordinator.canServeFrom 0 = true := by decide +kernel
  have hHistory : Subscription.tombstonedLog.history =
      [(1, .entry [0x61]), (2, .entry [0x62]), (3, .rotate 1)] := by decide +kernel
  have hInitialized : Subscription.tombstonedLog.coordinator.canonical.initialized = true := by decide +kernel
  have hLatest : KeyedLog.latest CanonicalEvent.lsn
      (Subscription.tombstonedLog.coordinator.canonical.events.filter fun event => 0 < event.lsn) =
        [.entry 1 0 [0x61], .tombstone 2 0 [0x62], .rotate 3 1] := by decide +kernel
  have hAbove : Subscription.tombstonedLog.coordinator.above 0 =
      [.entry 1 0 [0x61], .tombstone 2 0 [0x62], .rotate 3 1] := by
    refine KeyedLog.ordered_eq_of_mem_iff (by decide) fun event => ?_
    rw [hLatest]
  have hAnswer : Subscription.tombstonedLog.coordinator.pollDeltas .utf8 0 (some 5) =
      .ok ([.entry 1 0 [0x61], .entry 2 0 [0x62], .rotate 3 1], false) := by
    rw [Coordinator.pollDeltas_eq hInitialized hServed, hAbove]
    rfl
  obtain ⟨u, v, t, hTick, hPolling, hPage, hFinish, hExec, hIdle⟩ : ∃ u v t,
      exec (step safeIntegerOf) disconnected [.pollTick] = some u ∧ u.polling = some (.requesting 0 0) ∧
        u.step safeIntegerOf (.pollResponse onePage false) = some v ∧
        exec (step safeIntegerOf) v finishing = some t ∧
        exec (step safeIntegerOf) disconnected ([.pollTick, .pollResponse onePage false] ++ finishing) = some t ∧
        t.paging = false := ⟨_, _, _, by rfl, by rfl, by rfl, by rfl, by rfl, by rfl⟩
  have hRun : Run (Polls Subscription.tombstonedLog.coordinator .utf8 (some 5)) disconnected
      ([.pollTick] ++ [.pollResponse onePage false] ++ finishing) t :=
    ((polls_of_exec hTick (by decide)).snoc ⟨hPage, 0, 0, _, hPolling, hAnswer, rfl⟩).trans
      (polls_of_exec hFinish (by decide))
  have hFits : ¬ Outgrown Subscription.tombstonedLog.history := by
    rw [Outgrown, hHistory]
    decide
  have hRest : AtRest Subscription.tombstonedLog.history disconnected := ⟨rfl, rfl, Nat.zero_le _, rfl, rfl, rfl, rfl⟩
  obtain ⟨hClean, -, -, hCursor, -⟩ := polling_converges "r" "canonical" _
    (show Subscription.tombstonedLog = _ from rfl) hFits hRest hServed hRun
  refine ⟨t, hExec, hClean, (hCursor hIdle).trans ?_⟩
  rw [hHistory]
  decide

end SyncEngineProcess

end TokenRevoker
