import TokenRevoker.Core.CrashSafety
import TokenRevoker.Node.SnapshotInstall
import TokenRevoker.Node.SyncEngine

/-! A node that applies the events of the log, crashes and resumes from its state file.
An event is recorded there after it was applied, so an event that a crash left
unrecorded is delivered again. A rotation has moved the blobs by then. -/
namespace TokenRevoker

open Text SignatureFilter

namespace Store

variable {g : Geometry} {s t : Store g} {a : Action g}

/-- Rotations that were asked for and have not swapped the filters yet. -/
def pending (s : Store g) : Nat := s.waiting + if s.rotating.isSome then 1 else 0

theorem Called.pending (h : Called s t) : t.pending = s.pending := by
  cases h with
  | refused manager filters eq | entered item manager accepted filters eq =>
      subst eq
      rfl

theorem pending_attempt (capture : Capture) (n : Nat) : (s.attempt capture n).pending = s.pending := by
  unfold Store.attempt
  split_ifs <;> rfl

/-- Core's own steps take a rotation from the manager's mutex to the point of the swap. -/
theorem pending_of_progress (hOrdered : Ordered s) (hProgress : a.isProgress = true)
    (hStep : s.step a = some t) : t.pending = s.pending := by
  have effect := step_effect hOrdered.sync ⟨hStep, Action.noFault_of_isProgress hProgress⟩
  cases effect with
  | called call isCall => rcases isCall with ⟨_, rfl⟩ | ⟨_, rfl⟩ <;> cases hProgress
  | began hFree =>
      simp only [step, Option.ite_none_left_eq_some, Bool.or_eq_true, not_or, beq_iff_eq] at hStep
      have hWaiting := hStep.1.2
      simp only [pending, hFree, Option.isSome_some, Option.isSome_none, Bool.false_eq_true, if_true,
        if_false]
      omega
  | ticked capture hInterval => exact pending_attempt capture 0
  | retried capture n rest hRetrying => exact pending_attempt capture n
  | abandoned job message hHolder => exact absurd rfl ((hOrdered.holds job _ hHolder).2.2.2 message)
  | promoted job hHolder =>
      have hJob := (hOrdered.holds job _ hHolder).2.2.1 rfl
      have hStage : s.rotating = some .backingUp := by
        by_contra hStage
        rw [(hOrdered.no_rotation hStage).2 job _ hHolder] at hJob
        cases hJob
      simp only [pending, hStage, Option.isSome_some]
  | requested | swapped | crashed => cases hProgress
  | skipped | opened | handed | written | synced | closed | renamed | cleared => rfl

/-- A rotation that may swap stays there until it does. -/
theorem swapping_of_progress (hOrdered : Ordered s) (hProgress : a.isProgress = true)
    (effect : Effect s a t) (hStage : s.rotating = some .swapping) : t.rotating = some .swapping := by
  cases effect with
  | called call isCall => exact call.frame.2.2.2.2.2.2.1.trans hStage
  | began hFree => exact absurd (hFree.symm.trans hStage) (by simp)
  | ticked | retried =>
      unfold Store.attempt
      split_ifs <;> exact hStage
  | abandoned job message hHolder => exact absurd rfl ((hOrdered.holds job _ hHolder).2.2.2 message)
  | swapped | crashed => cases hProgress
  | requested | skipped | opened | handed | written | synced | closed | renamed | cleared => exact hStage
  | promoted => rfl

end Store

/-- Where `#applyEvent` is: it waits for `rotateOnDemand`, or core has returned and
`stateStore.update` is next. -/
inductive Applying where
  | rotating (lsn : Nat)
  | rotated (lsn : Nat)
  | entered (lsn : Nat)
  deriving DecidableEq

/-- The record that is being applied. -/
def Applying.IsFor : Applying → LogRecord → Prop
  | .rotating lsn, r | .rotated lsn, r => r.1 = lsn ∧ ∃ generation, r.2 = .rotate generation
  | .entered lsn, r => r.1 = lsn ∧ ∃ x, r.2 = .entry x

/-- A node with its state file, after `init` has taken the resume path. -/
structure SyncNode (g : Geometry) where
  engine : SyncEngine
  revoker : Store g
  state : SyncState
  applying : Option Applying := none
  deriving DecidableEq

namespace SyncNode

variable {g : Geometry}

def files (node : SyncNode g) : NodeFiles := ⟨node.revoker.disk, some node.state⟩

/-- `#applyEvent` up to its first suspension, or up to `stateStore.update`. -/
def applyEvent (node : SyncNode g) (event : StreamEvent) : SyncNode g :=
  match node.engine.check event with
  | .skip => node
  | .rebootstrap reason => { node with engine := node.engine.requestRebootstrap reason }
  | .entry lsn item =>
    match node.revoker.applyEntry [] item with
    | (revoker, .ok ()) => { node with revoker := revoker, applying := some (.entered lsn) }
    | (revoker, .error _) =>
      { node with
        revoker := revoker
        engine := node.engine.requestRebootstrap
          "unappliable replicated entry (never drop silently)" }
  | .rotate lsn =>
    { node with
      revoker := { node.revoker with waiting := node.revoker.waiting + 1 }
      applying := some (.rotating lsn) }

/-- The swap, after which `rotateOnDemand` returns. -/
def swap (node : SyncNode g) : Option (SyncNode g) :=
  match node.applying with
  | some (.rotating lsn) =>
    (node.revoker.step .swap).map fun revoker => { node with
      revoker := revoker
      engine := { node.engine with generation := node.engine.generation + 1 }
      applying := some (.rotated lsn) }
  | _ => none

/-- `stateStore.update`, and the cursor after it. -/
def save (node : SyncNode g) : Option (SyncNode g) :=
  match node.applying with
  | some (.entered lsn) | some (.rotated lsn) =>
    some { node with
      state := { node.state with lastLsn := lsn, generation := node.engine.generation }
      engine := { node.engine with lastAppliedLsn := lsn }
      applying := none }
  | _ => none

/-- A new process on the files, if `init` resumes from them. -/
def resume (node : SyncNode g) : Option (SyncNode g) :=
  match node.files.init with
  | .resume lastLsn generation =>
    (node.revoker.step .crash).map fun revoker =>
      { engine := ⟨lastLsn, generation, none⟩, revoker := revoker, state := node.state }
  | .bootstrap => none

def isRotating (node : SyncNode g) : Bool :=
  match node.applying with
  | some (.rotating _) => true
  | _ => false

/-- The LSN up to which the events have been applied, recorded or not. -/
def reach (node : SyncNode g) : Nat :=
  match node.applying with
  | some (.entered lsn) | some (.rotated lsn) => lsn
  | _ => node.engine.lastAppliedLsn

end SyncNode

/-- A coordinator that stays up, and a node that joined it while it was empty. -/
structure ResumingCluster (g : Geometry) where
  coordinator : LoggedCoordinator
  node : SyncNode g
  deriving DecidableEq

namespace ResumingCluster

inductive Action (g : Geometry) where
  | add (applied : Except RevokerError Unit) (item : JsString)
  | rotation (unlinkFails : Nat → Bool)
  | deliver (fromLsn : Nat) (event : CanonicalEvent)
  | core (action : Store.Action g)
  | swap
  | save
  | crash

variable {g : Geometry}

def start (g : Geometry) (id walDir : String) (numItems : Nat) (periodic : Bool) : ResumingCluster g where
  coordinator := LoggedCoordinator.start id walDir
  node := {
    engine := ⟨0, 0, none⟩
    revoker := Store.boot g numItems periodic {}
    state := ⟨0, 0, false⟩ }

/-- One synchronous stretch. Events are applied one at a time, and only they ask for
rotations. -/
def step (wire : Wire) (t : ResumingCluster g) : Action g → Option (ResumingCluster g)
  | .add applied item => some { t with coordinator := t.coordinator.add applied item }
  | .rotation unlinkFails => some { t with coordinator := t.coordinator.rotation unlinkFails }
  | .deliver _ event =>
      if t.node.applying.isSome then none
      else some { t with node := t.node.applyEvent (toStreamEvent wire event) }
  | .core action =>
      if action.isProgress then
        (t.node.revoker.step action).map fun revoker => { t with node := { t.node with revoker := revoker } }
      else none
  | .swap => t.node.swap.map fun node => { t with node := node }
  | .save => t.node.save.map fun node => { t with node := node }
  | .crash => t.node.resume.map fun node => { t with node := node }

/-- What is delivered comes from a read of the log that the coordinator can serve. -/
def Served (t : ResumingCluster g) : Action g → Prop
  | .deliver fromLsn event => t.coordinator.coordinator.canServeFrom fromLsn = true ∧
      ∃ events, t.coordinator.coordinator.readSince fromLsn 0 = .ok events ∧ event ∈ events
  | _ => True

def Steps (g : Geometry) (wire : Wire) : ResumingCluster g → Action g → ResumingCluster g → Prop :=
  Transition.restrict (Transition.ofStep (step wire)) Served

/-- No crash comes between the promotion of the blob of a rotation and the record of the
rotation, and no entry is applied while a backup has handed its bytes over and not yet truncated
the log. No file operation fails here, so nothing but the promotion leads to the stage of the
swap. -/
def Careful (t : ResumingCluster g) : Action g → Prop
  | .deliver _ (.entry _ _ _) | .deliver _ (.tombstone _ _ _) => t.node.revoker.Quiet
  | .crash => t.node.revoker.rotating ≠ some .swapping ∧ ∀ lsn, t.node.applying ≠ some (.rotated lsn)
  | _ => True

/-- A marker comes after this LSN, and not after that one. -/
def Marked (history : List LogRecord) (lsn last : Nat) : Prop :=
  ∃ r ∈ history, lsn < r.1 ∧ r.1 ≤ last ∧ ∃ generation, r.2 = .rotate generation

section History

variable {c : LoggedCoordinator} {history more : List LogRecord} {lsn last : Nat} {x : JsString}

theorem markersOf_length_pos {r : LogRecord} (hr : r ∈ history) {generation : Nat}
    (hRotate : r.2 = .rotate generation) : 0 < (markersOf history).length := by
  rw [List.length_pos_iff]
  intro hNil
  exact markersOf_eq_nil_iff.mp hNil r hr generation hRotate

theorem markersOf_length_split (history : List LogRecord) (p : LogRecord → Bool) :
    (markersOf history).length =
      (markersOf (history.filter p)).length + (markersOf (history.filter fun r => !p r)).length := by
  simp only [markersOf, List.length_filterMap_eq_countP]
  exact List.countP_eq_countP_filter_add _ _ _

/-- Two markers after its entry, and an item need not be covered any more. -/
theorem not_stillCovered (hMarked : Marked history lsn last) {r : LogRecord} (hr : r ∈ history)
    (hLast : last < r.1) {generation : Nat} (hRotate : r.2 = .rotate generation) :
    ¬ StillCovered history lsn x := by
  rintro ⟨-, hFew⟩
  obtain ⟨r', hr', hLow, hHigh, generation', hRotate'⟩ := hMarked
  have hEarly : r' ∈ (history.filter fun r => lsn < r.1).filter fun r => r.1 ≤ last := by
    simp [hr', hLow, hHigh]
  have hLate : r ∈ (history.filter fun r => lsn < r.1).filter fun r => !decide (r.1 ≤ last) := by
    simp [hr, hLast, hLow.trans_le (hHigh.trans hLast.le)]
  have := markersOf_length_pos hEarly hRotate'
  have := markersOf_length_pos hLate hRotate
  have := markersOf_length_split (history.filter fun r => lsn < r.1) fun r => r.1 ≤ last
  omega

/-- An entry moves the end of a stretch without a marker. -/
theorem marked_succ_iff (hSound : c.Sound) (hEntry : (last + 1, .entry x) ∈ c.history) :
    Marked c.history lsn (last + 1) ↔ Marked c.history lsn last := by
  constructor
  · rintro ⟨r, hr, hLow, hHigh, generation, hRotate⟩
    refine ⟨r, hr, hLow, Nat.le_of_lt_succ (lt_of_le_of_ne hHigh fun hEq => ?_), generation, hRotate⟩
    rw [hSound.record_eq hr hEntry hEq] at hRotate
    cases hRotate
  · rintro ⟨r, hr, hLow, hHigh, hRotate⟩
    exact ⟨r, hr, hLow, Nat.le_succ_of_le hHigh, hRotate⟩

/-- What is appended comes after every LSN there was. -/
theorem mem_of_append {c' : LoggedCoordinator} (hSound : c'.Sound) (hMore : c'.history = history ++ more)
    {r : LogRecord} (hr : r ∈ c'.history) (hLe : r.1 ≤ history.length) : r ∈ history := by
  obtain ⟨segments, hKeeps⟩ := hSound.keeps
  rw [hMore] at hr
  refine (List.mem_append.mp hr).resolve_right fun hNew => ?_
  have := hKeeps.lt_of_mem_more hMore hNew
  omega

theorem marked_append_iff {c' : LoggedCoordinator} (hSound : c'.Sound)
    (hMore : c'.history = history ++ more) (hLast : last ≤ history.length) :
    Marked c'.history lsn last ↔ Marked history lsn last := by
  constructor
  · rintro ⟨r, hr, hLow, hHigh, hRotate⟩
    exact ⟨r, mem_of_append hSound hMore hr (hHigh.trans hLast), hLow, hHigh, hRotate⟩
  · rintro ⟨r, hr, hLow, hHigh, hRotate⟩
    refine ⟨r, ?_, hLow, hHigh, hRotate⟩
    rw [hMore]
    exact List.mem_append_left more hr

/-- An item that is still covered was covered before. -/
theorem stillCovered_of_append {c' : LoggedCoordinator} (hSound : c'.Sound)
    (hMore : c'.history = history ++ more) (h : StillCovered c'.history lsn x)
    (hLsn : lsn ≤ history.length) : StillCovered history lsn x := by
  refine ⟨mem_of_append hSound hMore h.1 hLsn, ?_⟩
  have hFew := h.2
  rw [hMore, List.filter_append, markersOf_append, List.length_append] at hFew
  omega

end History

/-- Up to this LSN, every item that is still covered is where a crash leaves it: with
the current filter until a marker comes after its entry, with the previous one then. -/
def Placed (history : List LogRecord) (s : Store g) (last : Nat) : Prop :=
  ∀ lsn x, StillCovered history lsn x → lsn ≤ last →
    (Marked history lsn last → s.InPrevious x) ∧
      (¬ Marked history lsn last → s.InCurrent x ∨ s.Promoted x)

/-- What holds in every state: the record being applied is the next one, a rotation is
asked for exactly while a marker is being applied, and the state file has the cursor. -/
structure Consistent (t : ResumingCluster g) : Prop where
  sound : t.coordinator.Sound
  ordered : t.node.revoker.Ordered
  saved : t.node.state.lastLsn = t.node.engine.lastAppliedLsn
  pending : t.node.revoker.pending = if t.node.isRotating then 1 else 0
  next : ∀ applying, t.node.applying = some applying →
    ∃ r ∈ t.coordinator.history, r.1 = t.node.engine.lastAppliedLsn + 1 ∧ applying.IsFor r
  reach_le : t.node.reach ≤ t.coordinator.history.length
  placed : Placed t.coordinator.history t.node.revoker t.node.reach

variable {t u : ResumingCluster g} {a : Action g} {wire : Wire} {x : JsString} {lsn : Nat}

/-- The coordinator goes on while the node does nothing. -/
theorem Consistent.append (h : t.Consistent) {c : LoggedCoordinator} (hSound : c.Sound)
    {more : List LogRecord} (hMore : c.history = t.coordinator.history ++ more) :
    Consistent { t with coordinator := c } where
  sound := hSound
  ordered := h.ordered
  saved := h.saved
  pending := h.pending
  next := by
    intro applying hApplying
    obtain ⟨r, hr, hNext⟩ := h.next applying hApplying
    refine ⟨r, ?_, hNext⟩
    show r ∈ c.history
    rw [hMore]
    exact List.mem_append_left more hr
  reach_le := by
    show t.node.reach ≤ c.history.length
    rw [hMore, List.length_append]
    exact Nat.le_add_right_of_le h.reach_le
  placed := by
    intro lsn x hCovered hLe
    have hLsn := hLe.trans h.reach_le
    have hMarked : Marked c.history lsn t.node.reach ↔ Marked t.coordinator.history lsn t.node.reach :=
      marked_append_iff hSound hMore h.reach_le
    have hPlaced := h.placed lsn x (stillCovered_of_append hSound hMore hCovered hLsn) hLe
    exact ⟨fun hYes => hPlaced.1 (hMarked.mp hYes), fun hNo => hPlaced.2 fun hYes => hNo (hMarked.mpr hYes)⟩

/-- Core keeps every item in its place, until a rotation begins without a marker for it. -/
theorem Placed.effect {history : List LogRecord} {s s' : Store g} {last : Nat} {b : Store.Action g}
    (h : Placed history s last) (hOrdered : s.Ordered) (effect : Store.Effect s b s')
    (hStay : s.rotating = some .swapping → s'.rotating = some .swapping)
    (hBegins : b = .rotate → ∃ r ∈ history, last < r.1 ∧ ∃ generation, r.2 = .rotate generation) :
    Placed history s' last := by
  intro lsn x hCovered hLe
  obtain ⟨hYes, hNo⟩ := h lsn x hCovered hLe
  constructor
  · intro hMarked
    refine effect.inPrevious hOrdered (hYes hMarked) fun hRotate => ?_
    obtain ⟨r, hr, hLast, generation, hMarker⟩ := hBegins hRotate
    exact not_stillCovered hMarked hr hLast hMarker hCovered
  · intro hUnmarked
    rcases hNo hUnmarked with hCurrent | hPromoted
    · exact effect.inCurrent hOrdered hCurrent
    · rcases effect.promoted_next hOrdered hPromoted with hNext | hNext
      · exact Or.inr hNext
      · have hStage := hStay hPromoted.stage
        rw [hNext.stage] at hStage
        cases hStage

/-- A step of core that leaves the files and filters as they are for every item. -/
theorem Consistent.effect (h : t.Consistent) {b : Store.Action g} {revoker : Store g}
    (effect : Store.Effect t.node.revoker b revoker)
    (hPending : revoker.pending = t.node.revoker.pending)
    (hStay : t.node.revoker.rotating = some .swapping → revoker.rotating = some .swapping)
    (hBegins : b = .rotate → t.node.isRotating = true) :
    Consistent { t with node := { t.node with revoker := revoker } } where
  sound := h.sound
  ordered := effect.ordered h.ordered
  saved := h.saved
  pending := hPending.trans h.pending
  next := h.next
  reach_le := h.reach_le
  placed := by
    refine h.placed.effect h.ordered effect hStay fun hRotate => ?_
    have hRotating := hBegins hRotate
    unfold SyncNode.isRotating at hRotating
    split at hRotating
    · rename_i lsn hApplying
      obtain ⟨r, hr, hNext, -, generation, hMarker⟩ := h.next _ hApplying
      refine ⟨r, hr, ?_, generation, hMarker⟩
      rw [SyncNode.reach, hApplying]
      exact hNext ▸ Nat.lt_succ_self _
    · cases hRotating

theorem Consistent.core (h : t.Consistent) {b : Store.Action g} (hProgress : b.isProgress = true)
    {revoker : Store g} (hStep : t.node.revoker.step b = some revoker) :
    Consistent { t with node := { t.node with revoker := revoker } } := by
  have effect := Store.step_effect h.ordered.sync ⟨hStep, Store.Action.noFault_of_isProgress hProgress⟩
  have hPending := Store.pending_of_progress h.ordered hProgress hStep
  refine h.effect effect hPending (Store.swapping_of_progress h.ordered hProgress effect) ?_
  rintro rfl
  by_contra hIdle
  have hZero := h.pending
  rw [if_neg hIdle] at hZero
  simp only [Store.step, Option.ite_none_left_eq_some, Bool.or_eq_true, not_or, beq_iff_eq] at hStep
  exact hStep.1.2 (Nat.eq_zero_of_add_eq_zero_right hZero)

theorem Consistent.requestRebootstrap (h : t.Consistent) (reason : String) :
    Consistent { t with node := { t.node with engine := t.node.engine.requestRebootstrap reason } } :=
  ⟨h.sound, h.ordered, h.saved, h.pending, h.next, h.reach_le, h.placed⟩

/-- A read that the coordinator can serve delivers a record of the log. -/
theorem Consistent.record_of_served (h : t.Consistent) (wire : Wire) {fromLsn : Nat} {event : CanonicalEvent}
    (hServed : Served t (.deliver fromLsn event)) : event.record ∈ t.coordinator.history ∧
      ∃ generation, toStreamEvent wire event = recordEvent generation event.record := by
  obtain ⟨hCanServe, events, hRead, hEvent⟩ := hServed
  obtain ⟨segments, hKeeps⟩ := h.sound.keeps
  obtain ⟨events', hRead', hRecords⟩ := hKeeps.readSince hCanServe 0
  cases hRead.symm.trans hRead'
  have hMem : event.record ∈ events.map CanonicalEvent.record := List.mem_map_of_mem hEvent
  rw [hRecords, page, if_neg (Nat.lt_irrefl 0)] at hMem
  have hRecord := (List.mem_filter.mp hMem).1
  refine ⟨hRecord, toStreamEvent_eq wire fun lsn x hEq => ?_⟩
  rw [hEq] at hRecord
  exact (h.sound.items lsn x hRecord).2

/-- Between two events no rotation is in progress. -/
theorem Consistent.idle (h : t.Consistent) (hIdle : t.node.isRotating = false) :
    t.node.revoker.waiting = 0 ∧ t.node.revoker.rotating = none := by
  have hZero := h.pending
  rw [hIdle] at hZero
  simp only [Bool.false_eq_true, if_false, Store.pending, Nat.add_eq_zero_iff] at hZero
  refine ⟨hZero.1, ?_⟩
  cases hStage : t.node.revoker.rotating with
  | none => rfl
  | some stage => simp [hStage] at hZero

/-- An entry is applied while no backup could lose it. -/
theorem Consistent.entered (h : t.Consistent) (hIdle : t.node.applying = none)
    (hQuiet : t.node.revoker.Quiet) (hNext : lsn = t.node.engine.lastAppliedLsn + 1)
    (hRecord : (lsn, .entry x) ∈ t.coordinator.history)
    (hOk : (t.node.revoker.applyEntry [] x).2 = .ok ()) :
    Consistent { t with node := { t.node with
      revoker := (t.node.revoker.applyEntry [] x).1
      applying := some (.entered lsn) } } := by
  have call := Store.applyEntry_called h.ordered.sync x
  have effect : Store.Effect t.node.revoker (.applyEntry x []) (t.node.revoker.applyEntry [] x).1 :=
    .called call (Or.inr ⟨x, rfl⟩)
  have hRotating : t.node.isRotating = false := by rw [SyncNode.isRotating, hIdle]
  obtain ⟨hWaiting, hStage⟩ := h.idle hRotating
  have hReach : t.node.reach = t.node.engine.lastAppliedLsn := by rw [SyncNode.reach, hIdle]
  have hWellFormed := (h.sound.items lsn x hRecord).2
  refine ⟨h.sound, h.ordered.called call, h.saved, ?_, ?_, ?_, ?_⟩
  · have hPending := h.pending
    rw [hRotating] at hPending
    exact call.pending.trans hPending
  · intro applying hApplying
    cases hApplying
    exact ⟨_, hRecord, hNext, rfl, x, rfl⟩
  · exact (h.sound.lsn_le hRecord).2
  · show Placed t.coordinator.history (t.node.revoker.applyEntry [] x).1 lsn
    have hOld : Placed t.coordinator.history (t.node.revoker.applyEntry [] x).1 t.node.reach :=
      h.placed.effect h.ordered effect (fun hSwapping => by simp [hStage] at hSwapping) (by simp)
    rw [hReach] at hOld
    intro lsn' x' hCovered hLe
    subst hNext
    rw [marked_succ_iff h.sound hRecord]
    rcases Nat.lt_or_eq_of_le hLe with hBefore | rfl
    · exact hOld lsn' x' hCovered (Nat.le_of_lt_succ hBefore)
    · have hSame := h.sound.record_eq hCovered.1 hRecord rfl
      cases hSame
      refine ⟨?_, fun _ => Or.inl ?_⟩
      · rintro ⟨r, -, hLow, hHigh, -⟩
        omega
      · obtain ⟨hItem, manager, hInserted, hEq⟩ := Store.applyEntry_of_ok h.ordered.sync hOk
        rw [hEq]
        exact .entered h.ordered hQuiet hWellFormed hItem hInserted

/-- A marker that is next asks for a rotation. -/
theorem Consistent.rotating (h : t.Consistent) (hIdle : t.node.applying = none)
    (hNext : lsn = t.node.engine.lastAppliedLsn + 1) {generation : Nat}
    (hRecord : (lsn, .rotate generation) ∈ t.coordinator.history) :
    Consistent { t with node := { t.node with
      revoker := { t.node.revoker with waiting := t.node.revoker.waiting + 1 }
      applying := some (.rotating lsn) } } := by
  have hRotating : t.node.isRotating = false := by rw [SyncNode.isRotating, hIdle]
  obtain ⟨hWaiting, hStage⟩ := h.idle hRotating
  have effect : Store.Effect t.node.revoker .requestRotation
    { t.node.revoker with waiting := t.node.revoker.waiting + 1 } := .requested
  have hReach : t.node.reach = t.node.engine.lastAppliedLsn := by rw [SyncNode.reach, hIdle]
  refine ⟨h.sound, effect.ordered h.ordered, h.saved, ?_, ?_, hReach.ge.trans h.reach_le, ?_⟩
  · show t.node.revoker.waiting + 1 + (if t.node.revoker.rotating.isSome then 1 else 0) = 1
    rw [hWaiting, hStage]
    rfl
  · intro applying hApplying
    cases hApplying
    exact ⟨_, hRecord, hNext, rfl, generation, rfl⟩
  · show Placed t.coordinator.history _ t.node.engine.lastAppliedLsn
    rw [← hReach]
    exact h.placed.effect h.ordered effect id (by simp)

/-- Whatever the coordinator serves, the node applies the next event, skips it, or gives up. -/
theorem Consistent.deliver (h : t.Consistent) {fromLsn : Nat} {event : CanonicalEvent}
    (hIdle : t.node.applying = none) (hServed : Served t (.deliver fromLsn event))
    (hCareful : Careful t (.deliver fromLsn event)) :
    Consistent { t with node := t.node.applyEvent (toStreamEvent wire event) } := by
  obtain ⟨hRecord, generation, hEvent⟩ := h.record_of_served wire hServed
  unfold SyncNode.applyEvent
  cases hCheck : t.node.engine.check (toStreamEvent wire event) with
  | skip => exact h
  | rebootstrap reason => exact h.requestRebootstrap reason
  | entry lsn x =>
      obtain ⟨hNext, generation', hEntry⟩ := SyncEngine.check_eq_entry hCheck
      rw [hEvent] at hEntry
      have hPayload := recordEvent_eq_entry hEntry
      rw [hPayload] at hRecord
      have hQuiet : t.node.revoker.Quiet := by
        cases event with
        | entry | tombstone => exact hCareful
        | rotate => cases hPayload
      rcases hApply : t.node.revoker.applyEntry [] x with ⟨revoker, error | _⟩
      · have call := Store.applyEntry_called h.ordered.sync x
        rw [hApply] at call
        have hRefused := h.effect (.called call (Or.inr ⟨x, rfl⟩)) call.pending
          (fun hStage => call.frame.2.2.2.2.2.2.1.trans hStage) (by simp)
        simp only [hApply]
        exact hRefused.requestRebootstrap _
      · have hOk : (t.node.revoker.applyEntry [] x).2 = .ok () := by rw [hApply]
        have hEntered := h.entered hIdle hQuiet hNext hRecord hOk
        rw [hApply] at hEntered
        simp only [hApply]
        exact hEntered
  | rotate lsn =>
      obtain ⟨hNext, hRotate⟩ := SyncEngine.check_eq_rotate hCheck
      rw [hEvent] at hRotate
      obtain ⟨marker, hPayload, -⟩ := recordEvent_eq_rotate hRotate
      rw [hPayload] at hRecord
      exact h.rotating hIdle hNext hRecord

/-- The swap completes the rotation of a marker: what it covers is the previous generation. -/
theorem Consistent.swap (h : t.Consistent) {node : SyncNode g} (hSwap : t.node.swap = some node) :
    Consistent { t with node := node } := by
  unfold SyncNode.swap at hSwap
  split at hSwap
  · rename_i lsn hApplying
    obtain ⟨revoker, hStep, rfl⟩ := Option.map_eq_some_iff.mp hSwap
    have effect : Store.Effect t.node.revoker .swap revoker :=
      Store.step_effect h.ordered.sync ⟨hStep, trivial⟩
    obtain ⟨r, hr, hNext, hLsn, generation, hMarker⟩ := h.next _ hApplying
    have hReach : t.node.reach = t.node.engine.lastAppliedLsn := by rw [SyncNode.reach, hApplying]
    have hLast : t.node.reach < r.1 := by omega
    obtain ⟨hSwapping, hNone, hWaiting⟩ : t.node.revoker.rotating = some .swapping ∧
        revoker.rotating = none ∧ revoker.waiting = t.node.revoker.waiting := by
      cases effect with
      | called call isCall => rcases isCall with ⟨_, hEq⟩ | ⟨_, hEq⟩ <;> cases hEq
      | swapped hStage => exact ⟨hStage, rfl, rfl⟩
    refine ⟨h.sound, effect.ordered h.ordered, h.saved, ?_, ?_, ?_, ?_⟩
    · have hPending := h.pending
      simp only [SyncNode.isRotating, hApplying, if_true, Store.pending, hSwapping, Option.isSome_some]
        at hPending
      show revoker.waiting + (if revoker.rotating.isSome then 1 else 0) = 0
      rw [hWaiting, hNone]
      simpa using hPending
    · intro applying hEq
      cases hEq
      exact ⟨r, hr, hNext, hLsn, generation, hMarker⟩
    · show lsn ≤ _
      rw [← hLsn]
      exact (h.sound.lsn_le hr).2
    · intro lsn' x hCovered hLe
      have hLe' : lsn' ≤ r.1 := hLsn ▸ hLe
      have hBefore : lsn' < r.1 := by
        refine lt_of_le_of_ne hLe' fun hEq => ?_
        rw [← h.sound.record_eq hCovered.1 hr hEq] at hMarker
        cases hMarker
      have hMarked : Marked t.coordinator.history lsn' lsn := ⟨r, hr, hBefore, hLsn.le, generation, hMarker⟩
      refine ⟨fun _ => ?_, fun hNo => absurd hMarked hNo⟩
      have hUnmarked : ¬ Marked t.coordinator.history lsn' t.node.reach := fun hYes =>
        not_stillCovered hYes hr hLast hMarker hCovered
      rcases (h.placed lsn' x hCovered (by omega)).2 hUnmarked with hCurrent | hPromoted
      · exact absurd hSwapping hCurrent.stage
      · rcases effect.promoted_next h.ordered hPromoted with hSame | hPrevious
        · exact absurd (hNone.symm.trans hSame.stage) (by simp)
        · exact hPrevious
  · cases hSwap

theorem Consistent.save (h : t.Consistent) {node : SyncNode g} (hSave : t.node.save = some node) :
    Consistent { t with node := node } := by
  unfold SyncNode.save at hSave
  split at hSave
  case h_1 lsn hApplying | h_2 lsn hApplying =>
    cases hSave
    have hReach : t.node.reach = lsn := by rw [SyncNode.reach, hApplying]
    have hPending := h.pending
    rw [SyncNode.isRotating, hApplying] at hPending
    exact ⟨h.sound, h.ordered, rfl, hPending, by simp, hReach ▸ h.reach_le, hReach ▸ h.placed⟩
  case h_3 => cases hSave

theorem Consistent.last_le_reach (h : t.Consistent) : t.node.engine.lastAppliedLsn ≤ t.node.reach := by
  rw [SyncNode.reach]
  split
  case h_1 lsn hApplying | h_2 lsn hApplying =>
    obtain ⟨r, -, hNext, hLsn, -⟩ := h.next _ hApplying
    omega
  case h_3 => exact Nat.le_refl _

/-- Where a crash is allowed, at most one entry has been applied and not recorded. -/
theorem Consistent.reach_cases (h : t.Consistent) (hCareful : Careful t .crash) :
    t.node.reach = t.node.engine.lastAppliedLsn ∨
      t.node.reach = t.node.engine.lastAppliedLsn + 1 ∧
        ∃ x, (t.node.engine.lastAppliedLsn + 1, .entry x) ∈ t.coordinator.history := by
  rw [SyncNode.reach]
  cases hApplying : t.node.applying with
  | none => exact Or.inl rfl
  | some applying =>
      cases applying with
      | rotating lsn => exact Or.inl rfl
      | rotated lsn => exact absurd hApplying (hCareful.2 lsn)
      | entered lsn =>
          obtain ⟨⟨lsn', payload⟩, hr, hNext, hLsn, x, hEntry⟩ := h.next _ hApplying
          simp only at hNext hLsn hEntry
          subst hLsn hNext hEntry
          exact Or.inr ⟨rfl, x, hr⟩

/-- A crash loses at most the record of one entry. -/
theorem Consistent.crash (h : t.Consistent) (hCareful : Careful t .crash) {node : SyncNode g}
    (hResume : t.node.resume = some node) : Consistent { t with node := node } := by
  unfold SyncNode.resume at hResume
  split at hResume
  · rename_i lastLsn generation hInit
    obtain ⟨revoker, hStep, rfl⟩ := Option.map_eq_some_iff.mp hResume
    have effect : Store.Effect t.node.revoker .crash revoker :=
      Store.step_effect h.ordered.sync ⟨hStep, trivial⟩
    have hBoot : revoker.rotating = none ∧ revoker.waiting = 0 := by
      cases hStep
      exact ⟨rfl, rfl⟩
    have hLast : lastLsn = t.node.engine.lastAppliedLsn :=
      (NodeFiles.init_eq_resume rfl hInit).2.trans h.saved
    subst hLast
    have hReach := h.last_le_reach
    refine ⟨h.sound, effect.ordered h.ordered, h.saved, ?_, by simp, hReach.trans h.reach_le, ?_⟩
    · show revoker.waiting + (if revoker.rotating.isSome then 1 else 0) = 0
      rw [hBoot.1, hBoot.2]
      rfl
    · intro lsn x hCovered hLe
      have hLe' : lsn ≤ t.node.engine.lastAppliedLsn := hLe
      have hSame : Marked t.coordinator.history lsn t.node.reach ↔
          Marked t.coordinator.history lsn t.node.engine.lastAppliedLsn := by
        rcases h.reach_cases hCareful with hEq | ⟨hEq, x', hEntry⟩
        · rw [hEq]
        · rw [hEq, marked_succ_iff h.sound hEntry]
      obtain ⟨hYes, hNo⟩ := h.placed lsn x hCovered (hLe'.trans hReach)
      constructor
      · intro hMarked
        exact effect.inPrevious h.ordered (hYes (hSame.mpr hMarked)) (by simp)
      · intro hUnmarked
        rcases hNo fun hMarked => hUnmarked (hSame.mp hMarked) with hCurrent | hPromoted
        · exact effect.inCurrent h.ordered hCurrent
        · exact absurd hPromoted.stage hCareful.1
  · cases hResume

theorem Consistent.step (h : t.Consistent) (hStep : Transition.restrict (Steps g wire) Careful t a u) :
    u.Consistent := by
  obtain ⟨⟨hStep, hServed⟩, hCareful⟩ := hStep
  cases a with
  | add applied item =>
      cases hStep
      exact h.append (h.sound.add applied item) rfl
  | rotation unlinkFails =>
      cases hStep
      exact h.append (h.sound.rotation unlinkFails) rfl
  | deliver fromLsn event =>
      simp only [Transition.ofStep, ResumingCluster.step, Option.ite_none_left_eq_some,
        Option.isSome_iff_ne_none, not_not] at hStep
      obtain ⟨hIdle, hEq⟩ := hStep
      cases hEq
      exact h.deliver hIdle hServed hCareful
  | core action =>
      simp only [Transition.ofStep, ResumingCluster.step, Option.ite_none_right_eq_some] at hStep
      obtain ⟨hProgress, hMap⟩ := hStep
      obtain ⟨revoker, hCore, rfl⟩ := Option.map_eq_some_iff.mp hMap
      exact h.core hProgress hCore
  | swap =>
      obtain ⟨node, hSwap, rfl⟩ := Option.map_eq_some_iff.mp hStep
      exact h.swap hSwap
  | save =>
      obtain ⟨node, hSave, rfl⟩ := Option.map_eq_some_iff.mp hStep
      exact h.save hSave
  | crash =>
      obtain ⟨node, hResume, rfl⟩ := Option.map_eq_some_iff.mp hStep
      exact h.crash hCareful hResume

theorem consistent_start (id walDir : String) (numItems : Nat) (periodic : Bool) :
    (start g id walDir numItems periodic).Consistent where
  sound := LoggedCoordinator.sound_start id walDir
  ordered := Store.boot_ordered numItems periodic ⟨[], by simp, rfl⟩
  saved := rfl
  pending := rfl
  next := by simp [start]
  reach_le := Nat.le_refl 0
  placed := by
    rintro lsn x ⟨hMem, -⟩
    cases hMem

/-- In every state that careful steps reach, the node covers the items of all entries it
has applied and that the coordinator still covers, also after crashes and redelivery. -/
def ResumeSafe (g : Geometry) (wire : Wire) (Allowed : ResumingCluster g → Action g → Prop) : Prop :=
  ∀ id walDir numItems periodic actions t,
    Transition.Run (Transition.restrict (Steps g wire) Allowed) (start g id walDir numItems periodic)
      actions t →
    ∀ lsn x, StillCovered t.coordinator.history lsn x → lsn ≤ t.node.engine.lastAppliedLsn →
      BloomFilter.Addressable g.m g.k x → (t.node.revoker.manager.has x).2 = .ok true

/-- Applying rotations is crash safe as long as no crash separates the promotion of a blob from
the record of its rotation, and no entry is applied while a backup could lose it. The events
that are delivered again may begin anywhere in the log. A disk that fails is not part of these
runs, and neither is a restart that takes the path through a snapshot. -/
theorem resumeSafe_careful (g : Geometry) (wire : Wire) : ResumeSafe g wire Careful := by
  intro id walDir numItems periodic actions t run lsn x hCovered hLe hAddressable
  have h : t.Consistent :=
    run.invariant (fun _ _ _ h hStep => h.step hStep) (consistent_start id walDir numItems periodic)
  have hItem := (h.sound.items lsn x hCovered.1).1
  have hReach : lsn ≤ t.node.reach := hLe.trans h.last_le_reach
  have hPlaced := h.placed lsn x hCovered hReach
  rw [Manager.has_eq_ok hItem.not_blank, (Manager.covers_iff hAddressable).mpr]
  by_cases hMarked : Marked t.coordinator.history lsn t.node.reach
  · exact Or.inr (hPlaced.1 hMarked).memory
  · rcases hPlaced.2 hMarked with hCurrent | hPromoted
    · exact Or.inl hCurrent.memory
    · exact Or.inl hPromoted.memory

/-- The test for `Served`. -/
def isServed (t : ResumingCluster g) : Action g → Bool
  | .deliver fromLsn event =>
      let canonical := t.coordinator.coordinator.canonical
      canonical.initialized && canonical.canServeFrom fromLsn &&
        decide (event ∈ KeyedLog.latest CanonicalEvent.lsn
          (canonical.events.filter fun event => fromLsn < event.lsn))
  | _ => true

theorem served_of_isServed (h : t.isServed a = true) : t.Served a := by
  cases a with
  | deliver fromLsn event =>
      simp only [isServed, Bool.and_eq_true, decide_eq_true_eq] at h
      refine ⟨h.1.2, _, CanonicalWal.readSince_eq h.1.1 fromLsn 0, ?_⟩
      rw [page, if_neg (Nat.lt_irrefl 0), KeyedLog.mem_ordered]
      exact h.2
  | _ => trivial

/-- The test for `Careful`. -/
def isCareful (t : ResumingCluster g) : Action g → Bool
  | .deliver _ (.entry _ _ _) | .deliver _ (.tombstone _ _ _) =>
      decide (t.node.revoker.rotating = none) &&
        t.node.revoker.holder.all fun holder => decide (holder.2 = .opening)
  | .crash =>
      decide (t.node.revoker.rotating ≠ some .swapping) &&
        match t.node.applying with
        | some (.rotated _) => false
        | _ => true
  | _ => true

theorem careful_of_isCareful (h : t.isCareful a = true) : t.Careful a := by
  cases a with
  | deliver fromLsn event =>
      cases event with
      | entry | tombstone =>
          simp only [isCareful, Bool.and_eq_true, decide_eq_true_eq] at h
          refine ⟨h.1, fun job phase hHolder => ?_⟩
          simpa [hHolder] using h.2
      | rotate => trivial
  | crash =>
      simp only [isCareful, Bool.and_eq_true, decide_eq_true_eq] at h
      refine ⟨h.1, fun lsn hApplying => ?_⟩
      simp [hApplying] at h
  | _ => trivial

theorem run_of_exec {actions : List (Action g)}
    (h : Transition.exec (Transition.guarded (fun t a => t.isServed a && t.isCareful a) (step wire))
      t actions = some u) : Transition.Run (Transition.restrict (Steps g wire) Careful) t actions u := by
  have hTest : ∀ (t : ResumingCluster g) a, (t.isServed a && t.isCareful a) = true →
      t.Served a ∧ t.Careful a := by
    intro t a hBoth
    rw [Bool.and_eq_true] at hBoth
    exact ⟨served_of_isServed hBoth.1, careful_of_isCareful hBoth.2⟩
  exact ((Transition.run_of_exec h).of_guarded hTest).mono fun _ _ _ h => ⟨⟨h.1, h.2.1⟩, h.2.2⟩

/-- The steps of a rotation's backup up to the promotion. -/
def backup (captured : SizedFilter g) : List (Action g) :=
  [.core .rotate, .core .acquire, .core (.settle (.ok ())), .core (.written captured),
    .core (.settle (.ok ())), .core (.settle (.ok ())), .core (.settle (.ok ())),
    .core (.settle (.ok ()))]

/-- An entry is applied, a rotation crashes as `crashed` says and is delivered again; the
second backup finds `captured`. -/
def redelivery (crashed : List (Action .oneBucket)) (captured : SizedFilter .oneBucket) :
    List (Action .oneBucket) :=
  [.add (.ok ()) [97], .deliver 0 (.entry 1 0 [97]), .save, .rotation fun _ => false,
      .deliver 1 (.rotate 2 1)] ++ backup (.add (.create _) [97]) ++ crashed ++
    [.deliver 1 (.rotate 2 1)] ++ backup captured ++ [.core (.promote (.ok ())), .swap, .save]

/-- The crash comes before the blob is promoted. -/
theorem resumeSafe_careful_one_bucket :
    ((Transition.exec (Transition.guarded (fun t a => t.isServed a && t.isCareful a) (step .utf8))
      (start .oneBucket "r" "canonical" 1 true) (redelivery [.crash] (.add (.create _) [97]))).map
        fun t => (t.node.revoker.manager.has [97]).2) = some (.ok true) := by
  have hEnd : ((Transition.exec (Transition.guarded (fun t a => t.isServed a && t.isCareful a)
      (step .utf8)) (start .oneBucket "r" "canonical" 1 true)
      (redelivery [.crash] (.add (.create _) [97]))).map
        fun t => (t.coordinator.history, t.node.engine.lastAppliedLsn)) =
      some ([(1, .entry [97]), (2, .rotate 1)], 2) := by decide +kernel
  obtain ⟨t, hRun, hState⟩ := Option.map_eq_some_iff.mp hEnd
  simp only [Prod.mk.injEq] at hState
  obtain ⟨hHistory, hCursor⟩ := hState
  have hCovered : StillCovered t.coordinator.history 1 [97] := by
    rw [hHistory]
    exact ⟨by decide, by decide⟩
  rw [hRun, Option.map_some, resumeSafe_careful .oneBucket .utf8 "r" "canonical" 1 true _ t
    (run_of_exec hRun) 1 [97] hCovered (by omega) (SizedFilter.addressable (by decide) _)]

/-- The crash comes after the promotion and before the record of the rotation: the empty
filter of the restart takes the place of the blob. -/
theorem not_resumeSafe : ¬ ResumeSafe .oneBucket .utf8 fun _ _ => True := by
  intro h
  have hEnd : ((Transition.exec (Transition.guarded isServed (step .utf8))
      (start .oneBucket "r" "canonical" 1 true)
      (redelivery [.core (.promote (.ok ())), .crash] (.create _))).map
        fun t => (t.coordinator.history, t.node.engine.lastAppliedLsn,
          (t.node.revoker.manager.has [97]).2)) =
      some ([(1, .entry [97]), (2, .rotate 1)], 2, .ok false) := by decide +kernel
  obtain ⟨t, hRun, hState⟩ := Option.map_eq_some_iff.mp hEnd
  simp only [Prod.mk.injEq] at hState
  obtain ⟨hHistory, hCursor, hLost⟩ := hState
  have hCovered : StillCovered t.coordinator.history 1 [97] := by
    rw [hHistory]
    exact ⟨by decide, by decide⟩
  have hServed := (Transition.run_of_exec hRun).of_guarded fun t a => served_of_isServed
  have hHas := h "r" "canonical" 1 true _ t (hServed.mono fun _ _ _ h => ⟨h, trivial⟩) 1 [97] hCovered
    (by omega) (SizedFilter.addressable (by decide) _)
  rw [hLost] at hHas
  cases hHas

end ResumingCluster

end TokenRevoker
