import TokenRevoker.Node.RotateCrash

/-! What a node that does not crash has applied. Every step leaves the filters alone or
applies the record that is next in the log. -/
namespace TokenRevoker

open Text SignatureFilter

variable {g : Geometry}

/-- What applying a record does to the bits of the two filters. -/
def applyRecord (g : Geometry) (window : Window (Set Nat)) : LogRecord → Window (Set Nat)
  | (_, .entry x) => window.insert (SizedFilter.signature g) x
  | (_, .rotate _) => window.rotate

/-- The event is one of the log. -/
def StreamEvent.Logged (history : List LogRecord) : StreamEvent → Prop
  | .entry lsn _ item => (lsn, .entry item) ∈ history
  | .rotate lsn generation => ∃ marker, (lsn, .rotate marker) ∈ history ∧ generation = int32 marker
  | _ => True

/-- A read delivers events of the log. -/
theorem logged_toStreamEvent (wire : Wire) {history : List LogRecord} {event : CanonicalEvent}
    (hRecord : event.record ∈ history) (hItems : ∀ lsn x, (lsn, .entry x) ∈ history → IsWellFormed x) :
    (toStreamEvent wire event).Logged history := by
  cases event with
  | entry lsn generation item | tombstone lsn generation item =>
      show (lsn, Payload.entry (wire.deliver item)) ∈ history
      rw [wire.deliver_eq item (hItems lsn item hRecord)]
      exact hRecord
  | rotate lsn generation => exact ⟨generation, hRecord, rfl⟩

/-- A record stands at the place that its LSN says. -/
theorem getElem?_of_mem {history : List LogRecord}
    (hLsns : history.map Prod.fst = List.range' 1 history.length)
    {r : LogRecord} (hr : r ∈ history) : ∃ i, history[i]? = some r ∧ r.1 = i + 1 := by
  obtain ⟨i, hLt, hAt⟩ := List.mem_iff_getElem.mp hr
  refine ⟨i, List.getElem?_eq_some_iff.mpr ⟨hLt, hAt⟩, ?_⟩
  have hLsn : (history.map Prod.fst)[i]? = some r.1 := by
    rw [List.getElem?_map, List.getElem?_eq_some_iff.mpr ⟨hLt, hAt⟩]
    rfl
  rw [hLsns, List.getElem?_range' hLt] at hLsn
  simpa [Nat.add_comm] using (Option.some_inj.mp hLsn).symm

/-- The number of markers above one LSN and up to another. -/
def markersBetween (history : List LogRecord) (low high : Nat) : Nat :=
  (markersOf ((history.take high).drop low)).length

section Markers

variable {history : List LogRecord} {low high : Nat}

@[simp] theorem markersBetween_self (history : List LogRecord) (low : Nat) :
    markersBetween history low low = 0 := by
  rw [markersBetween, List.drop_eq_nil_of_le (List.length_take_le _ _)]
  rfl

theorem markersBetween_append (hHigh : high ≤ history.length) (more : List LogRecord) :
    markersBetween (history ++ more) low high = markersBetween history low high := by
  rw [markersBetween, List.take_append_of_le_length hHigh, markersBetween]

theorem markersBetween_succ {r : LogRecord} (hAt : history[high]? = some r) (hLow : low ≤ high) :
    markersBetween history low (high + 1) = markersBetween history low high + (markersOf [r]).length := by
  obtain ⟨hLt, hEq⟩ := List.getElem?_eq_some_iff.mp hAt
  have hLength : low ≤ (history.take high).length := by
    rw [List.length_take, Nat.min_eq_left hLt.le]
    exact hLow
  rw [markersBetween, List.take_add_one, hAt, Option.toList_some, List.drop_append_of_le_length hLength,
    markersOf_append, List.length_append, markersBetween]

end Markers

namespace Store

variable {s t : Store g} {a : Action g}

/-- Between the swaps, core leaves the two filters as they are. -/
theorem Effect.window_eq (effect : Effect s a t) (hProgress : a.isProgress = true) :
    t.manager.window = s.manager.window := by
  cases effect with
  | called call isCall => rcases isCall with ⟨_, rfl⟩ | ⟨_, rfl⟩ <;> cases hProgress
  | ticked | retried =>
      unfold Store.attempt
      split_ifs <;> rfl
  | abandoned job message hHolder => cases job <;> rfl
  | requested | swapped | crashed => cases hProgress
  | began | skipped | opened | handed | written | synced | closed | renamed | cleared | promoted => rfl

/-- An `applyEntry` that is refused leaves the two filters as they are. -/
theorem applyEntry_of_error (hSync : s.backups.bufferEnabled = false) {item : JsString} {error : RevokerError}
    (h : (s.applyEntry [] item).2 = .error error) :
    (s.applyEntry [] item).1.manager.window = s.manager.window := by
  unfold applyEntry at h ⊢
  rcases hApply : s.manager.applyEntry (.ok ()) item with ⟨manager, failure | _⟩
  · have hError : (s.manager.applyEntry (.ok ()) item).2 = .error failure := by rw [hApply]
    have hSame := Manager.applyEntry_of_error hError
    rw [hApply] at hSame
    exact hSame.window
  · simp only [hApply, backupItem_nil hSync] at h
    cases h

end Store

namespace SyncNode

variable {node node' : SyncNode g} {history more : List LogRecord} {event : StreamEvent}

def window (node : SyncNode g) : Window (Set Nat) := node.revoker.manager.window

/-- What is being applied is the record that is next. It is the link between the events of the
node and the log of the coordinator. -/
structure Tracks (history : List LogRecord) (node : SyncNode g) : Prop where
  ordered : node.revoker.Ordered
  next : ∀ applying, node.applying = some applying →
    ∃ r, history[node.engine.lastAppliedLsn]? = some r ∧ r.1 = node.engine.lastAppliedLsn + 1 ∧
      applying.IsFor r
  last_le : node.engine.lastAppliedLsn ≤ history.length

/-- What a step can do: nothing, or apply the record that is next. Redeliveries and refusals are
the first case. -/
inductive Moves (history : List LogRecord) (node node' : SyncNode g) : Prop where
  | stays (reach : node'.reach = node.reach) (window : node'.window = node.window)
      (generation : node'.engine.generation = node.engine.generation)
  | applies (r : LogRecord) (next : history[node.reach]? = some r) (reach : node'.reach = node.reach + 1)
      (window : node'.window = applyRecord g node.window r)
      (generation : node'.engine.generation = node.engine.generation + (markersOf [r]).length)

theorem Tracks.append (h : node.Tracks history) (more : List LogRecord) : node.Tracks (history ++ more) where
  ordered := h.ordered
  next := by
    intro applying hApplying
    obtain ⟨r, hAt, hNext⟩ := h.next applying hApplying
    refine ⟨r, ?_, hNext⟩
    rw [List.getElem?_append_left (List.getElem?_eq_some_iff.mp hAt).1]
    exact hAt
  last_le := by
    rw [List.length_append]
    exact Nat.le_add_right_of_le h.last_le

/-- At most one record is applied and not recorded in the state file. -/
theorem Tracks.reach_spec (h : node.Tracks history) : node.engine.lastAppliedLsn ≤ node.reach ∧
    node.reach ≤ history.length ∧ (node.applying = none → node.reach = node.engine.lastAppliedLsn) := by
  rw [reach]
  split
  case h_1 lsn hApplying | h_2 lsn hApplying =>
    obtain ⟨r, hAt, hNext, hLsn, -⟩ := h.next _ hApplying
    have := (List.getElem?_eq_some_iff.mp hAt).1
    refine ⟨by omega, by omega, ?_⟩
    rw [hApplying]
    simp
  case h_3 => exact ⟨Nat.le_refl _, h.last_le, fun _ => rfl⟩

theorem Tracks.requestRebootstrap (h : node.Tracks history) (reason : String) :
    Tracks history { node with engine := node.engine.requestRebootstrap reason } :=
  ⟨h.ordered, h.next, h.last_le⟩

/-- An event of the log is skipped, refused, or applied if it is next. -/
theorem Tracks.deliver (h : node.Tracks history)
    (hLsns : history.map Prod.fst = List.range' 1 history.length) (hIdle : node.applying = none)
    (hLogged : event.Logged history) :
    (node.applyEvent event).Tracks history ∧ node.Moves history (node.applyEvent event) := by
  have hReach := h.reach_spec.2.2 hIdle
  unfold applyEvent
  cases hCheck : node.engine.check event with
  | skip => exact ⟨h, .stays rfl rfl rfl⟩
  | rebootstrap reason => exact ⟨h.requestRebootstrap reason, .stays rfl rfl rfl⟩
  | entry lsn x =>
      obtain ⟨hNext, generation, rfl⟩ := SyncEngine.check_eq_entry hCheck
      obtain ⟨i, hAt, hLsn⟩ := getElem?_of_mem hLsns hLogged
      obtain rfl : i = node.engine.lastAppliedLsn := by
        simp only at hLsn
        omega
      have hOrdered := h.ordered.called (Store.applyEntry_called h.ordered.sync x)
      rcases hApply : node.revoker.applyEntry [] x with ⟨revoker, error | _⟩
      · have hWindow := Store.applyEntry_of_error h.ordered.sync (by rw [hApply] : _ = Except.error error)
        rw [hApply] at hOrdered hWindow
        simp only [hApply]
        exact ⟨⟨hOrdered, h.next, h.last_le⟩, .stays rfl hWindow rfl⟩
      · obtain ⟨-, manager, hInserted, hEq⟩ :=
          Store.applyEntry_of_ok h.ordered.sync (by rw [hApply] : _ = Except.ok ())
        rw [hApply] at hOrdered hEq
        simp only at hEq
        subst hEq
        simp only [hApply]
        refine ⟨⟨hOrdered, ?_, h.last_le⟩, .applies (lsn, .entry x) ?_ ?_ ?_ rfl⟩
        · intro applying hApplying
          cases hApplying
          exact ⟨_, hAt, hNext, rfl, x, rfl⟩
        · rw [hReach]
          exact hAt
        · rw [hReach]
          exact hNext
        · exact hInserted.window h.ordered.current
  | rotate lsn =>
      obtain ⟨hNext, rfl⟩ := SyncEngine.check_eq_rotate hCheck
      obtain ⟨marker, hMem, -⟩ := hLogged
      obtain ⟨i, hAt, hLsn⟩ := getElem?_of_mem hLsns hMem
      obtain rfl : i = node.engine.lastAppliedLsn := by
        simp only at hLsn
        omega
      have effect : Store.Effect node.revoker .requestRotation
        { node.revoker with waiting := node.revoker.waiting + 1 } := .requested
      refine ⟨⟨effect.ordered h.ordered, ?_, h.last_le⟩, .stays hReach.symm rfl rfl⟩
      intro applying hApplying
      cases hApplying
      exact ⟨_, hAt, hNext, rfl, marker, rfl⟩

/-- Core's own steps. -/
theorem Tracks.core (h : node.Tracks history) {action : Store.Action g} (hProgress : action.isProgress = true)
    {revoker : Store g} (hStep : node.revoker.step action = some revoker) :
    Tracks history { node with revoker := revoker } ∧
      node.Moves history { node with revoker := revoker } := by
  have effect := Store.step_effect h.ordered.sync ⟨hStep, Store.Action.noFault_of_isProgress hProgress⟩
  exact ⟨⟨effect.ordered h.ordered, h.next, h.last_le⟩, .stays rfl (effect.window_eq hProgress) rfl⟩

theorem Tracks.swap (h : node.Tracks history) (hSwap : node.swap = some node') :
    node'.Tracks history ∧ node.Moves history node' := by
  unfold SyncNode.swap at hSwap
  split at hSwap
  · rename_i lsn hApplying
    obtain ⟨revoker, hStep, rfl⟩ := Option.map_eq_some_iff.mp hSwap
    obtain ⟨⟨lsn', payload⟩, hAt, hNext, hLsn, generation, hMarker⟩ := h.next _ hApplying
    simp only at hNext hLsn hMarker
    subst hLsn hMarker
    have effect : Store.Effect node.revoker .swap revoker := Store.step_effect h.ordered.sync ⟨hStep, trivial⟩
    have hReach : node.reach = node.engine.lastAppliedLsn := by rw [reach, hApplying]
    have hWindow : revoker.manager.window = node.revoker.manager.window.rotate := by
      cases effect with
      | called call isCall => rcases isCall with ⟨_, hEq⟩ | ⟨_, hEq⟩ <;> cases hEq
      | swapped hStage => exact Manager.swap_window _
    refine ⟨⟨effect.ordered h.ordered, ?_, h.last_le⟩,
      .applies (lsn', .rotate generation) ?_ ?_ hWindow rfl⟩
    · intro applying hEq
      cases hEq
      exact ⟨_, hAt, hNext, rfl, generation, rfl⟩
    · rw [hReach]
      exact hAt
    · rw [hReach]
      exact hNext
  · cases hSwap

theorem Tracks.save (h : node.Tracks history) (hSave : node.save = some node') :
    node'.Tracks history ∧ node.Moves history node' := by
  have hReach := h.reach_spec.2.1
  unfold SyncNode.save at hSave
  split at hSave
  case h_1 lsn hApplying | h_2 lsn hApplying =>
    cases hSave
    have hLsn : node.reach = lsn := by rw [reach, hApplying]
    exact ⟨⟨h.ordered, by simp, hLsn ▸ hReach⟩, .stays hLsn.symm rfl rfl⟩
  case h_3 => cases hSave

end SyncNode

end TokenRevoker
