import TokenRevoker.Node.Replica
import TokenRevoker.Server.SnapshotTail

/-! Nodes that stream from the start and nodes that bootstrap from a snapshot, next to a
coordinator whose own filter refuses items when it is saturated. A tombstoned item reaches
every node that reads its entry, but it is missing from the blobs. -/
namespace TokenRevoker

open Text SignatureFilter
open Store (Bits)

variable {g : Geometry}

/-- `#bootstrapFromSnapshot`, on whatever files the node has. -/
def SyncNode.bootstrap (g : Geometry) (numItems : Nat) (periodic : Bool) (files : NodeFiles)
    (snapshot : SnapshotData) : SyncNode g where
  engine := ⟨snapshot.lastBackupLsn, snapshot.generation, none⟩
  revoker := Store.boot g numItems periodic
    ((NodeFiles.bootstrapSteps snapshot).foldl (fun files step => step files) files).disk
  state := ⟨snapshot.lastBackupLsn, snapshot.generation, false⟩

/-- A rotation is made canonical. -/
def CoordinatorProcess.Action.marks : CoordinatorProcess.Action g → Bool
  | .swap => true
  | _ => false

/-- A coordinator with its nodes; the first node was there from the start. -/
structure Fleet (g : Geometry) where
  process : CoordinatorProcess g
  nodes : List (SyncNode g)
  deriving DecidableEq

namespace Fleet

inductive Action (g : Geometry) where
  | coordinator (action : CoordinatorProcess.Action g)
  | bootstrap (files : NodeFiles)
  | deliver (node fromLsn index : Nat)
  | core (node : Nat) (action : Store.Action g)
  | swap (node : Nat)
  | save (node : Nat)

def start (g : Geometry) (id walDir : String) (numItems : Nat) (periodic : Bool) : Fleet g where
  process := .start g id walDir numItems periodic
  nodes := [{
    engine := ⟨0, 0, none⟩
    revoker := Store.boot g numItems periodic {}
    state := ⟨0, 0, false⟩ }]

/-- A node makes a step of its own. -/
def move (t : Fleet g) (node : Nat) (next : SyncNode g → Option (SyncNode g)) : Option (Fleet g) :=
  (t.nodes[node]?.bind next).map fun changed => { t with nodes := t.nodes.set node changed }

/-- One synchronous stretch. What is delivered stands in a read that the coordinator can serve. -/
def step (wire : Wire) (config : FilterConfig) (periodic : Bool) (t : Fleet g) : Action g → Option (Fleet g)
  | .coordinator action => (t.process.step action).map fun process => { t with process := process }
  | .bootstrap files =>
      match t.process.getSnapshot config with
      | .error _ => none
      | .ok snapshot =>
        some { t with nodes := t.nodes ++ [.bootstrap g config.numItems periodic files snapshot] }
  | .deliver node fromLsn index =>
      t.move node fun node =>
        if node.applying.isSome || !t.process.coordinator.canServeFrom fromLsn then none
        else match t.process.coordinator.readSince fromLsn 0 with
        | .error _ => none
        | .ok events => events[index]?.map fun event => node.applyEvent (toStreamEvent wire event)
  | .core node action =>
      t.move node fun node =>
        if action.isProgress then
          (node.revoker.step action).map fun revoker => { node with revoker := revoker }
        else none
  | .swap node => t.move node SyncNode.swap
  | .save node => t.move node SyncNode.save

/-- No backup is running or waiting, and no rotation. -/
def Idle (s : Store g) : Prop :=
  s.rotating = none ∧ s.waiting = 0 ∧ s.holder = none ∧ s.queue = []

/-- Revocations and rotations follow each other. -/
def Sequential (t : Fleet g) : Action g → Prop
  | .coordinator (.add _) | .coordinator .requestRotation => Idle t.process.revoker
  | _ => True

def Steps (g : Geometry) (wire : Wire) (config : FilterConfig) (periodic : Bool) :
    Fleet g → Action g → Fleet g → Prop :=
  Transition.restrict (Transition.ofStep (step wire config periodic)) Sequential

/-- When a rotation of the coordinator's filter begins, the filter has the bits of every
item that was tombstoned since the last marker, and no snapshot is taken between the
promotion of a blob and the swap. -/
def Recorded (t : Fleet g) : Action g → Prop
  | .coordinator (.core .rotate) => ∀ lsn generation x,
      .tombstone lsn generation x ∈ t.process.coordinator.canonical.events →
      t.process.coordinator.metaState.lastBackupLsn < lsn → Bits g t.process.revoker.manager.window.current x
  | .bootstrap _ => t.process.revoker.rotating ≠ some .swapping
  | _ => True

/-- A rotation is made canonical. -/
def Action.marks : Action g → Bool
  | .coordinator action => action.marks
  | _ => false

/-- An item that was tombstoned in a run tests true on every node that has caught up with
the log, as long as fewer than two markers follow its entry. -/
def TombstonesReach (g : Geometry) (wire : Wire) (config : FilterConfig) (Safe : JsString → Prop)
    (Allowed : Fleet g → Action g → Prop) : Prop :=
  ∀ id walDir periodic before t x result u after v,
    Transition.Run (Transition.restrict (Steps g wire config periodic) Allowed)
      (start g id walDir config.numItems periodic) before t →
    (t.process.add x).2 = .ok result → result.success = false → Safe x →
    Transition.restrict (Steps g wire config periodic) Allowed t (.coordinator (.add x)) u →
    Transition.Run (Transition.restrict (Steps g wire config periodic) Allowed) u after v →
    after.countP Action.marks < 2 →
    ∀ node ∈ v.nodes, node.engine.lastAppliedLsn = v.process.coordinator.lastLsn →
      (node.revoker.manager.has x).2 = .ok true

end Fleet

/-- Where the bits of an item are in a node that has applied its entry and then `markers`
markers. -/
def Holds (g : Geometry) (x : JsString) (markers : Nat) (window : Window (Set Nat)) : Prop :=
  (markers = 0 → Bits g window.current x) ∧ (markers = 1 → Bits g window.previous x)

theorem Holds.apply {x : JsString} {n : Nat} {window : Window (Set Nat)} (h : Holds g x n window)
    (r : LogRecord) : Holds g x (n + (markersOf [r]).length) (applyRecord g window r) := by
  obtain ⟨lsn, payload⟩ := r
  cases payload with
  | entry y => exact ⟨fun hZero => (h.1 hZero).mono (le_insert _ _ _), h.2⟩
  | rotate generation =>
      refine ⟨fun hZero => ?_, fun hOne => h.1 ?_⟩
      · cases hZero
      · exact Nat.succ.inj hOne

/-- The node has the item, once it has applied its entry. -/
def SyncNode.HasApplied (history : List LogRecord) (lsn : Nat) (x : JsString) (node : SyncNode g) : Prop :=
  lsn ≤ node.reach → Holds g x (markersBetween history lsn node.reach) node.window

theorem SyncNode.Moves.hasApplied {history : List LogRecord} {lsn : Nat} {x : JsString}
    {node node' : SyncNode g} (moves : node.Moves history node') (h : node.HasApplied history lsn x)
    (hEntry : history[lsn - 1]? = some (lsn, .entry x)) (hPos : 0 < lsn) :
    node'.HasApplied history lsn x := by
  intro hLe
  cases moves with
  | stays hReach hWindow =>
      rw [hReach] at hLe ⊢
      rw [hWindow]
      exact h hLe
  | applies r hNext hReach hWindow =>
      rw [hReach] at hLe ⊢
      rw [hWindow]
      rcases Nat.lt_or_eq_of_le hLe with hOld | rfl
      · rw [markersBetween_succ hNext (Nat.le_of_lt_succ hOld)]
        exact (h (Nat.le_of_lt_succ hOld)).apply r
      · rw [Nat.add_sub_cancel, hNext] at hEntry
        cases hEntry
        rw [markersBetween_self]
        exact ⟨fun _ => covers_insert _ _ _, fun hOne => by cases hOne⟩

/-- Outside the end of a rotation, the previous blob is as it was. -/
theorem Store.Effect.keeps_previous {s t : Store g} {a : Store.Action g} (effect : Store.Effect s a t)
    (hOrdered : s.Ordered) (hAlive : a ≠ .crash) (hSwap : a ≠ .swap) (hStage : t.rotating ≠ some .swapping) :
    s.rotating ≠ some .swapping ∧ t.disk.previousBlob = s.disk.previousBlob := by
  cases effect with
  | called call isCall =>
      obtain ⟨-, -, -, -, -, -, hRotating, -, hBlob, -⟩ := call.frame
      exact ⟨hRotating ▸ hStage, hBlob⟩
  | began hFree => exact ⟨by simp [hFree], rfl⟩
  | ticked | retried =>
      unfold Store.attempt at hStage ⊢
      split_ifs at hStage ⊢ <;> exact ⟨hStage, rfl⟩
  | abandoned job message hHolder => exact absurd rfl ((hOrdered.holds job _ hHolder).2.2.2 message)
  | promoted => exact absurd rfl hStage
  | swapped => exact absurd rfl hSwap
  | crashed => exact absurd rfl hAlive
  | requested | skipped | opened | handed | written | synced | closed | renamed | cleared =>
        exact ⟨hStage, rfl⟩

namespace CoordinatorProcess

variable {p q : CoordinatorProcess g} {a : Action g} {history : List LogRecord} {x : JsString} {lsn n : Nat}

/-- The tombstone of an item is in the files. -/
def Tombstoned (p : CoordinatorProcess g) (lsn : Nat) (x : JsString) : Prop :=
  ∃ generation, .tombstone lsn generation x ∈ p.coordinator.canonical.events

/-- A revocation leaves the tombstones in the files, and adds one if the filter refuses. -/
theorem tombstoned_add (hConsistent : p.Consistent history) (item : JsString) :
    (∀ lsn x, p.Tombstoned lsn x → (p.add item).1.Tombstoned lsn x) ∧
      ∀ failure, Acceptable item → (p.revoker.add [] item).2 = .error failure →
        (p.add item).1.Tombstoned p.coordinator.canonical.nextLsn (toWellFormed item) := by
  obtain ⟨segments, hKeeps⟩ := hConsistent.keeps
  have hLive := hKeeps.live
  simp only [Tombstoned, add_coordinator]
  by_cases hItem : Acceptable item
  · rw [Coordinator.add_sent hLive hItem (Or.inr rfl)]
    have hWritten := (hKeeps.toEndures.entry hItem (p.revoker.add [] item).2 []).live.holds
    have hMore : ∀ lsn x, (∃ generation, .tombstone lsn generation x ∈ (p.coordinator.canonical.written
          (Coordinator.entryLines p.coordinator.canonical.nextLsn item (p.revoker.add [] item).2)
          (p.coordinator.canonical.nextLsn + 1) p.coordinator.canonical.generation).events) ↔
        .tombstone lsn x ∈ (segments.flatMap Segment.lines ++ Coordinator.entryLines
          p.coordinator.canonical.nextLsn item (p.revoker.add [] item).2).map Line.wellFormed := by
      intro lsn x
      rw [← Segment.flatMap_lines_push hLive.holds.newest hLive.holds.sorted]
      exact hWritten.exists_tombstone_iff
    constructor
    · intro lsn x hOld
      rw [hMore, List.map_append]
      exact List.mem_append_left _ (hLive.holds.exists_tombstone_iff.mp hOld)
    · intro failure _ hFailure
      rw [hMore, hFailure]
      simp [Coordinator.entryLines, Line.wellFormed]
  · rw [Coordinator.add_refused hItem]
    exact ⟨fun _ _ h => h, fun _ hAccepted => absurd hAccepted hItem⟩

/-- A revocation that is answered, but not with success, was tombstoned. -/
theorem tombstoned_of_add (hConsistent : p.Consistent history) {result : AddResult}
    (hOk : (p.add x).2 = .ok result) (hFailed : result.success = false) :
    Acceptable x ∧ (p.add x).1.Tombstoned p.coordinator.canonical.nextLsn (toWellFormed x) := by
  obtain ⟨segments, hKeeps⟩ := hConsistent.keeps
  have hAnswer : (p.coordinator.add none (p.revoker.add [] x).2 none x).2 = .ok result := by
    unfold add at hOk
    dsimp only at hOk
    split at hOk
    · cases hOk
    · rename_i answer hAnswer
      cases hOk
      exact hAnswer
  obtain ⟨hItem, failure, hFailure⟩ := Coordinator.add_failure hKeeps.live hAnswer hFailed
  exact ⟨hItem, (tombstoned_add hConsistent x).2 failure hItem hFailure⟩

/-- Where the bits of a tombstoned item are after some markers. Until its first marker its
entry is in every tail, and from there to the promotion of another blob in the previous one. -/
def Stage (x : JsString) (lsn : Nat) : Nat → CoordinatorProcess g → Prop
  | 0, p => p.coordinator.metaState.lastBackupLsn < lsn ∧
      (p.revoker.rotating = none ∧ p.Tombstoned lsn x ∨ p.revoker.Backing x ∨ p.revoker.Promoted x)
  | 1, p => p.revoker.rotating ≠ some .swapping → Bits g (blobBits g p.revoker.disk.previousBlob) x
  | _ + 2, _ => True

/-- A step that is no swap leaves the meta state and the tombstones. -/
theorem step_unmarked (hConsistent : p.Consistent history) (hStep : Steps g p a q)
    (hMarks : a.marks = false) :
    ∃ b, Store.Effect p.revoker b q.revoker ∧ b.begins = a.begins ∧ b ≠ .crash ∧ b ≠ .swap ∧
      q.coordinator.metaState = p.coordinator.metaState ∧
      ∀ lsn x, p.Tombstoned lsn x → q.Tombstoned lsn x := by
  have hSync := hConsistent.ordered.sync
  obtain ⟨segments, hKeeps⟩ := hConsistent.keeps
  cases a with
  | add item =>
      cases hStep
      exact ⟨.add item [], .called (add_revoker hSync item) (Or.inl ⟨item, rfl⟩), rfl, by simp, by simp,
        metaState_add hKeeps item, (tombstoned_add hConsistent item).1⟩
  | requestRotation =>
      cases hStep
      exact ⟨.requestRotation, .requested, rfl, by simp, by simp, rfl, fun _ _ h => h⟩
  | core action =>
      simp only [Steps, Transition.ofStep, step, Option.ite_none_right_eq_some] at hStep
      obtain ⟨hProgress, hMap⟩ := hStep
      obtain ⟨revoker, hCore, rfl⟩ := Option.map_eq_some_iff.mp hMap
      refine ⟨action, Store.step_effect hSync ⟨hCore, Store.Action.noFault_of_isProgress hProgress⟩, rfl,
        ?_, ?_, rfl, fun _ _ h => h⟩
      · rintro rfl
        cases hProgress
      · rintro rfl
        cases hProgress
  | swap => cases hMarks

theorem Stage.step (h : Stage x lsn n p) (hConsistent : p.Consistent history) (hStep : Steps g p a q)
    (hRecorded : a.begins = true → p.Tombstoned lsn x → p.coordinator.metaState.lastBackupLsn < lsn →
      Bits g p.revoker.manager.window.current x) :
    Stage x lsn (if a.marks then n + 1 else n) q := by
  have hOrdered := hConsistent.ordered
  cases hMarks : a.marks with
  | false =>
      obtain ⟨b, effect, hBegins, hAlive, hSwap, hMeta, hTombstones⟩ := step_unmarked hConsistent hStep hMarks
      match n, h with
      | 0, ⟨hTail, hPlace⟩ =>
          refine ⟨by rwa [hMeta], ?_⟩
          rcases hPlace with ⟨hFree, hTombstone⟩ | hBacking | hPromoted
          · cases hRotate : b.begins with
            | false => exact Or.inl ⟨effect.rotating_none hOrdered hFree hRotate, hTombstones _ _ hTombstone⟩
            | true =>
                have hBits := hRecorded (hBegins ▸ hRotate) hTombstone hTail
                exact Or.inr (Or.inl (effect.backing_of_begins hOrdered hRotate hBits))
          · exact Or.inr (effect.backing hOrdered hBacking hAlive)
          · rcases effect.promoted_next hOrdered hPromoted with hNext | hPrevious
            · exact Or.inr (Or.inr hNext)
            · have hStage := (effect.keeps_previous hOrdered hAlive hSwap (by simp [hPrevious.stage])).1
              exact absurd hPromoted.stage hStage
      | 1, h =>
          intro hStage
          obtain ⟨hOld, hBlob⟩ := effect.keeps_previous hOrdered hAlive hSwap hStage
          rw [hBlob]
          exact h hOld
      | _ + 2, _ => trivial
  | true =>
      cases a with
      | swap =>
          match n, h with
          | 0, ⟨_, hPlace⟩ =>
              obtain ⟨revoker, hCore, rfl⟩ := Option.map_eq_some_iff.mp hStep
              have effect : Store.Effect p.revoker .swap revoker :=
                Store.step_effect hOrdered.sync ⟨hCore, trivial⟩
              have hStages : p.revoker.rotating = some .swapping ∧ revoker.rotating = none := by
                cases effect with
                | called call isCall => rcases isCall with ⟨_, hEq⟩ | ⟨_, hEq⟩ <;> cases hEq
                | swapped hStage => exact ⟨hStage, rfl⟩
              have hPromoted : p.revoker.Promoted x := by
                rcases hPlace with ⟨hFree, -⟩ | hBacking | hPromoted
                · simp [hStages.1] at hFree
                · have hStage := hBacking.stage
                  simp [hStages.1] at hStage
                · exact hPromoted
              rcases effect.promoted_next hOrdered hPromoted with hNext | hPrevious
              · have hStage := hNext.stage
                simp [hStages.2] at hStage
              · exact fun _ => hPrevious.disk
          | _ + 1, _ => trivial
      | add | requestRotation | core => cases hMarks

/-- A step that is consistent with the history makes as many markers as it should. -/
theorem Consistent.step_marks (hConsistent : p.Consistent history) (hStep : Steps g p a q) :
    ∃ more, q.Consistent (history ++ more) ∧ (markersOf more).length = if a.marks then 1 else 0 := by
  obtain ⟨more, hNext⟩ := hConsistent.step hStep
  obtain ⟨segments, hKeeps⟩ := hConsistent.keeps
  obtain ⟨segments', hKeeps'⟩ := hNext.keeps
  have hGeneration : q.coordinator.metaState.generation =
      p.coordinator.metaState.generation + if a.marks then 1 else 0 := by
    cases hMarks : a.marks with
    | false =>
        obtain ⟨-, -, -, -, -, hMeta, -⟩ := step_unmarked hConsistent hStep hMarks
        rw [hMeta]
        rfl
    | true =>
        cases a with
        | swap =>
            obtain ⟨revoker, -, rfl⟩ := Option.map_eq_some_iff.mp hStep
            show (p.coordinator.onCoreRotation none none fun _ => false).1.metaState.generation = _
            rw [Coordinator.rotation_sent hKeeps.live]
            rfl
        | add | requestRotation | core => cases hMarks
  have hOld := congrArg List.length hKeeps.markers
  have hNew := congrArg List.length hKeeps'.markers
  rw [List.length_range'] at hOld hNew
  rw [markersOf_append, List.length_append] at hNew
  exact ⟨more, hNext, by omega⟩

end CoordinatorProcess

namespace SyncNode

variable {history : List LogRecord} {snapshot : SnapshotData} {x : JsString}

/-- The files of a snapshot take the place of all others. -/
theorem bootstrap_disk (files : NodeFiles) (snapshot : SnapshotData) :
    ((NodeFiles.bootstrapSteps snapshot).foldl (fun files step => step files) files).disk =
      { currentBlob := if 0 < snapshot.currentBlob.length then some snapshot.currentBlob else none
        previousBlob := if 0 < snapshot.previousBlob.length then some snapshot.previousBlob else none
        temp := [] } := by
  simp only [NodeFiles.bootstrapSteps, NodeFiles.wipeBackupFiles, List.cons_append, List.nil_append,
    List.foldl, NodeFiles.installCurrent, NodeFiles.installPrevious]
  split_ifs <;> rfl

theorem tracks_bootstrap (numItems : Nat) (periodic : Bool) (files : NodeFiles)
    (hLe : snapshot.lastBackupLsn ≤ history.length) :
    (bootstrap g numItems periodic files snapshot).Tracks history where
  ordered := Store.boot_ordered numItems periodic ⟨[], by simp, by rw [bootstrap_disk]; rfl⟩
  next := by
    intro applying hApplying
    cases hApplying
  last_le := hLe

/-- The previous filter is that of the snapshot. -/
theorem previous_bootstrap (numItems : Nat) (periodic : Bool) (files : NodeFiles) {file : Option Bytes}
    (hBlob : snapshot.previousBlob = file.getD []) (hBits : Bits g (blobBits g file) x) :
    Bits g (bootstrap g numItems periodic files snapshot).window.previous x := by
  have hWindow : (bootstrap g numItems periodic files snapshot).window = restoredWindow g
      ((NodeFiles.bootstrapSteps snapshot).foldl (fun files step => step files) files).disk :=
    Store.boot_window _ _ _
  rw [hWindow, bootstrap_disk]
  show Bits g (blobBits g (if 0 < snapshot.previousBlob.length then some snapshot.previousBlob else none)) x
  rw [hBlob]
  cases file with
  | none => exact hBits
  | some blob =>
      rw [Option.getD_some]
      split_ifs with hLength
      · exact hBits
      · obtain rfl : blob = [] := List.eq_nil_of_length_eq_zero (by omega)
        rw [blobBits, restoreFilterFromFile_empty rfl] at hBits
        exact hBits

end SyncNode

namespace Fleet

variable {t u : Fleet g} {a : Action g} {history : List LogRecord} {x : JsString} {lsn n : Nat} {wire : Wire}
  {config : FilterConfig} {periodic : Bool}

/-- The coordinator keeps its history, and what a node applies is the record that is next. -/
structure Sound (history : List LogRecord) (t : Fleet g) : Prop where
  consistent : t.process.Consistent history
  nodes : ∀ node ∈ t.nodes, node.Tracks history

/-- What a step can do: the coordinator goes on, a node joins, or a node moves. -/
inductive Effect (history : List LogRecord) (config : FilterConfig) (periodic : Bool) (t : Fleet g) :
    Action g → Fleet g → Prop where
  | ran (action : CoordinatorProcess.Action g) (process : CoordinatorProcess g)
      (hStep : CoordinatorProcess.Steps g t.process action process) :
      Effect history config periodic t (.coordinator action) { t with process := process }
  | joined (files : NodeFiles) (snapshot : SnapshotData) (hSnapshot : t.process.getSnapshot config = .ok snapshot) :
      Effect history config periodic t (.bootstrap files)
        { t with nodes := t.nodes ++ [.bootstrap g config.numItems periodic files snapshot] }
  | moved {a : Action g} (i : Nat) (node node' : SyncNode g) (hNode : node ∈ t.nodes) (hTracks : node'.Tracks history)
      (hMoves : node.Moves history node') (hMarks : a.marks = false) :
      Effect history config periodic t a { t with nodes := t.nodes.set i node' }

theorem exists_of_move {i : Nat} {next : SyncNode g → Option (SyncNode g)} (h : t.move i next = some u) :
    ∃ node node', node ∈ t.nodes ∧ next node = some node' ∧ u = { t with nodes := t.nodes.set i node' } := by
  obtain ⟨node', hNext, rfl⟩ := Option.map_eq_some_iff.mp h
  obtain ⟨node, hAt, hNext⟩ := Option.bind_eq_some_iff.mp hNext
  exact ⟨node, node', List.mem_of_getElem? hAt, hNext, rfl⟩

theorem Sound.effect (h : t.Sound history) (hStep : t.step wire config periodic a = some u) :
    Effect history config periodic t a u := by
  obtain ⟨segments, hKeeps⟩ := h.consistent.keeps
  cases a with
  | coordinator action =>
      obtain ⟨process, hProcess, rfl⟩ := Option.map_eq_some_iff.mp hStep
      exact .ran action process hProcess
  | bootstrap files =>
      rw [Fleet.step] at hStep
      split at hStep
      · cases hStep
      · rename_i snapshot hSnapshot
        cases hStep
        exact .joined files snapshot hSnapshot
  | deliver i fromLsn index =>
      obtain ⟨node, node', hNode, hNext, rfl⟩ := exists_of_move hStep
      simp only [Option.ite_none_left_eq_some, Bool.or_eq_true, not_or, Option.isSome_iff_ne_none, not_not,
        Bool.not_eq_true', Bool.not_eq_false] at hNext
      obtain ⟨⟨hIdle, hServed⟩, hNext⟩ := hNext
      obtain ⟨events, hRead, hRecords⟩ := hKeeps.readSince hServed 0
      rw [hRead] at hNext
      obtain ⟨event, hAt, rfl⟩ := Option.map_eq_some_iff.mp hNext
      have hRecord : event.record ∈ history := by
        have hMem : event.record ∈ events.map CanonicalEvent.record :=
          List.mem_map_of_mem (List.mem_of_getElem? hAt)
        rw [hRecords, page, if_neg (Nat.lt_irrefl 0)] at hMem
        exact (List.mem_filter.mp hMem).1
      have hLogged := logged_toStreamEvent wire hRecord fun lsn x hMem => (hKeeps.items lsn x hMem).2
      obtain ⟨hTracks, hMoves⟩ := (h.nodes node hNode).deliver hKeeps.lsns hIdle hLogged
      exact .moved i node _ hNode hTracks hMoves rfl
  | core i action =>
      obtain ⟨node, node', hNode, hNext, rfl⟩ := exists_of_move hStep
      simp only [Option.ite_none_right_eq_some] at hNext
      obtain ⟨revoker, hCore, rfl⟩ := Option.map_eq_some_iff.mp hNext.2
      obtain ⟨hTracks, hMoves⟩ := (h.nodes node hNode).core hNext.1 hCore
      exact .moved i node _ hNode hTracks hMoves rfl
  | swap i =>
      obtain ⟨node, node', hNode, hNext, rfl⟩ := exists_of_move hStep
      obtain ⟨hTracks, hMoves⟩ := (h.nodes node hNode).swap hNext
      exact .moved i node _ hNode hTracks hMoves rfl
  | save i =>
      obtain ⟨node, node', hNode, hNext, rfl⟩ := exists_of_move hStep
      obtain ⟨hTracks, hMoves⟩ := (h.nodes node hNode).save hNext
      exact .moved i node _ hNode hTracks hMoves rfl

/-- Every step keeps the order, and makes as many markers as it should. -/
theorem Sound.step (h : t.Sound history) (effect : Effect history config periodic t a u) :
    ∃ more, u.Sound (history ++ more) ∧ (markersOf more).length = if a.marks then 1 else 0 := by
  cases effect with
  | ran action process hStep =>
      obtain ⟨more, hNext, hMarks⟩ := h.consistent.step_marks hStep
      exact ⟨more, ⟨hNext, fun node hNode => (h.nodes node hNode).append more⟩, hMarks⟩
  | joined files snapshot hSnapshot =>
      obtain ⟨segments, hKeeps⟩ := h.consistent.keeps
      have hLe : snapshot.lastBackupLsn ≤ history.length := by
        rw [(CoordinatorProcess.getSnapshot_spec hSnapshot).2]
        exact hKeeps.backup_le
      refine ⟨[], ⟨by rw [List.append_nil]; exact h.consistent, fun node hNode => ?_⟩, rfl⟩
      rw [List.append_nil]
      rcases List.mem_append.mp hNode with hOld | hNew
      · exact h.nodes node hOld
      · rw [List.mem_singleton.mp hNew]
        exact SyncNode.tracks_bootstrap _ _ _ hLe
  | moved i node node' hNode hTracks hMoves hMarks =>
      refine ⟨[], ⟨by rw [List.append_nil]; exact h.consistent, fun other hOther => ?_⟩, by rw [hMarks]; rfl⟩
      rw [List.append_nil]
      rcases List.mem_or_eq_of_mem_set hOther with hOld | rfl
      · exact h.nodes other hOld
      · exact hTracks

/-- All markers stand up to the last one. -/
theorem markersBetween_last {segments : List Segment} {c : Coordinator} (hKeeps : c.Keeps segments history)
    (hLow : lsn ≤ c.metaState.lastBackupLsn) :
    markersBetween history lsn c.metaState.lastBackupLsn = markersBetween history lsn history.length := by
  have hNone : markersOf (history.drop c.metaState.lastBackupLsn) = [] := by
    rw [markersOf_eq_nil_iff]
    intro r hr generation hRotate
    rw [← hKeeps.filter_eq_drop, List.mem_filter, decide_eq_true_eq] at hr
    exact absurd (hKeeps.lastMarker r hr.1 generation hRotate) (Nat.not_le.mpr hr.2)
  have hLength : lsn ≤ (history.take c.metaState.lastBackupLsn).length := by
    rw [List.length_take, Nat.min_eq_left hKeeps.backup_le]
    exact hLow
  calc markersBetween history lsn c.metaState.lastBackupLsn
      = (markersOf ((history.take c.metaState.lastBackupLsn ++
          history.drop c.metaState.lastBackupLsn).drop lsn)).length := by
        rw [List.drop_append_of_le_length hLength, markersOf_append, hNone, List.append_nil, markersBetween]
    _ = markersBetween history lsn history.length := by
        rw [List.take_append_drop, markersBetween, List.take_length]

/-- Where an item and its entry are after `n` markers. -/
structure Reaches (history : List LogRecord) (x : JsString) (lsn n : Nat) (t : Fleet g) : Prop
    extends Sound history t where
  pos : 0 < lsn
  entry : history[lsn - 1]? = some (lsn, .entry x)
  count : markersBetween history lsn history.length = n
  stage : t.process.Stage x lsn n
  applied : ∀ node ∈ t.nodes, node.HasApplied history lsn x

/-- What a node has applied does not change when the log grows. -/
theorem hasApplied_append {node : SyncNode g} (hTracks : node.Tracks history)
    (h : node.HasApplied history lsn x) (more : List LogRecord) :
    node.HasApplied (history ++ more) lsn x := by
  intro hLe
  rw [markersBetween_append hTracks.reach_spec.2.1]
  exact h hLe

/-- A snapshot that is not taken in the middle of a rotation gives a node what it needs. -/
theorem Reaches.bootstrap (h : t.Reaches history x lsn n) {snapshot : SnapshotData}
    (hSnapshot : t.process.getSnapshot config = .ok snapshot)
    (hStage : t.process.revoker.rotating ≠ some .swapping) (files : NodeFiles) :
    (SyncNode.bootstrap g config.numItems periodic files snapshot).HasApplied history lsn x := by
  obtain ⟨hBlob, hBackup⟩ := CoordinatorProcess.getSnapshot_spec hSnapshot
  obtain ⟨segments, hKeeps⟩ := h.consistent.keeps
  intro hLe
  have hLsn : lsn ≤ t.process.coordinator.metaState.lastBackupLsn := hBackup ▸ hLe
  have hCount : markersBetween history lsn snapshot.lastBackupLsn = n := by
    rw [hBackup, markersBetween_last hKeeps hLsn, h.count]
  show Holds g x (markersBetween history lsn snapshot.lastBackupLsn) _
  rw [hCount]
  match n, h.stage with
  | 0, ⟨hTail, _⟩ => omega
  | 1, hPrevious =>
      refine ⟨fun hZero => absurd hZero Nat.one_ne_zero, fun _ => ?_⟩
      exact SyncNode.previous_bootstrap config.numItems periodic files hBlob (hPrevious hStage)
  | _ + 2, _ => exact ⟨fun hZero => absurd hZero (by omega), fun hOne => absurd hOne (by omega)⟩

theorem Reaches.step (h : t.Reaches history x lsn n) (hStep : t.step wire config periodic a = some u)
    (hRecorded : t.Recorded a) :
    ∃ more, u.Reaches (history ++ more) x lsn (if a.marks then n + 1 else n) := by
  have effect := h.toSound.effect hStep
  obtain ⟨more, hSound, hMarks⟩ := h.toSound.step effect
  have hLt : lsn - 1 < history.length := (List.getElem?_eq_some_iff.mp h.entry).1
  have hPos := h.pos
  have hEntry : (history ++ more)[lsn - 1]? = some (lsn, .entry x) := by
    rw [List.getElem?_append_left hLt]
    exact h.entry
  have hCount : markersBetween (history ++ more) lsn (history ++ more).length =
      if a.marks then n + 1 else n := by
    have hOld := h.count
    rw [markersBetween, List.take_length] at hOld
    rw [markersBetween, List.take_length, List.drop_append_of_le_length (by omega), markersOf_append,
      List.length_append, hOld, hMarks]
    split_ifs <;> rfl
  have hApplied : ∀ node ∈ t.nodes, node.HasApplied (history ++ more) lsn x :=
    fun node hNode => hasApplied_append (h.nodes node hNode) (h.applied node hNode) more
  cases effect with
  | ran action process hProcess =>
      refine ⟨more, hSound, hPos, hEntry, hCount, h.stage.step h.consistent hProcess ?_, hApplied⟩
      intro hBegins hTombstone hTail
      obtain ⟨generation, hEvent⟩ := hTombstone
      cases action with
      | core action =>
          cases action with
          | rotate => exact hRecorded lsn generation x hEvent hTail
          | _ => cases hBegins
      | add | requestRotation | swap => cases hBegins
  | joined files snapshot hSnapshot =>
      refine ⟨more, hSound, hPos, hEntry, hCount, h.stage, fun node hNode => ?_⟩
      rcases List.mem_append.mp hNode with hOld | hNew
      · exact hApplied node hOld
      · rw [List.mem_singleton.mp hNew]
        have hLe : snapshot.lastBackupLsn ≤ history.length := by
          obtain ⟨segments, hKeeps⟩ := h.consistent.keeps
          rw [(CoordinatorProcess.getSnapshot_spec hSnapshot).2]
          exact hKeeps.backup_le
        exact hasApplied_append (SyncNode.tracks_bootstrap _ _ _ hLe)
          (h.bootstrap hSnapshot hRecorded files) more
  | moved i node node' hNode hTracks hMoves hUnmarked =>
      refine ⟨more, hSound, hPos, hEntry, hCount, ?_, fun other hOther => ?_⟩
      · rw [hUnmarked]
        exact h.stage
      · rcases List.mem_or_eq_of_mem_set hOther with hOld | rfl
        · exact hApplied other hOld
        · exact hasApplied_append hTracks (hMoves.hasApplied (h.applied node hNode) h.entry h.pos) more

/-- A tombstoned item starts out with its entry in every tail. -/
theorem Sound.reaches_of_add (h : t.Sound history) {result : AddResult}
    (hOk : (t.process.add x).2 = .ok result) (hFailed : result.success = false) (hWellFormed : IsWellFormed x)
    (hFree : t.process.revoker.rotating = none) :
    Acceptable x ∧ ∃ lsn, Reaches (history ++ [(lsn, .entry x)]) x lsn 0
      { t with process := (t.process.add x).1 } := by
  obtain ⟨hItem, hTombstone⟩ := CoordinatorProcess.tombstoned_of_add h.consistent hOk hFailed
  obtain ⟨segments, hKeeps⟩ := h.consistent.keeps
  have hNext := hKeeps.next
  have call := CoordinatorProcess.add_revoker h.consistent.ordered.sync x
  obtain ⟨segments', hAdded⟩ := hKeeps.add (t.process.revoker.add [] x).2 x
  rw [Coordinator.entryRecords, if_pos hItem, ← CoordinatorProcess.add_coordinator,
    show toWellFormed x = x from hWellFormed] at hAdded
  rw [show toWellFormed x = x from hWellFormed] at hTombstone
  refine ⟨hItem, t.process.coordinator.canonical.nextLsn,
    ⟨⟨h.consistent.ordered.called call, segments', hAdded⟩, fun node hNode => (h.nodes node hNode).append _⟩,
    hKeeps.live.pos, ?_, ?_, ⟨?_, Or.inl ⟨?_, hTombstone⟩⟩, ?_⟩
  · rw [hNext, Nat.add_sub_cancel]
    exact List.getElem?_concat_length
  · rw [List.length_append, List.length_singleton, ← hNext]
    exact markersBetween_self _ _
  · rw [CoordinatorProcess.metaState_add hKeeps, hNext]
    exact Nat.lt_succ_of_le hKeeps.backup_le
  · exact call.frame.2.2.2.2.2.2.1.trans hFree
  · intro node hNode hLe
    have := (h.nodes node hNode).reach_spec.2.1
    omega

theorem sound_start (id walDir : String) (numItems : Nat) (periodic : Bool) :
    (start g id walDir numItems periodic).Sound [] where
  consistent := CoordinatorProcess.consistent_start id walDir numItems periodic
  nodes := by
    intro node hNode
    rw [List.mem_singleton.mp hNode]
    exact ⟨Store.boot_ordered numItems periodic ⟨[], by simp, rfl⟩, by simp, Nat.le_refl 0⟩

/-- A node that has caught up has the item in one of its filters. -/
theorem Reaches.has (h : t.Reaches history x lsn n) (hFew : n < 2) {node : SyncNode g}
    (hNode : node ∈ t.nodes)
    (hLast : node.engine.lastAppliedLsn = t.process.coordinator.lastLsn) (hItem : Acceptable x)
    (hAddressable : BloomFilter.Addressable g.m g.k x) : (node.revoker.manager.has x).2 = .ok true := by
  obtain ⟨segments, hKeeps⟩ := h.consistent.keeps
  obtain ⟨hLow, hHigh, -⟩ := (h.nodes node hNode).reach_spec
  rw [hLast, hKeeps.lastLsn_eq] at hLow
  have hReach : node.reach = history.length := Nat.le_antisymm hHigh hLow
  have hLt : lsn - 1 < history.length := (List.getElem?_eq_some_iff.mp h.entry).1
  have hHolds := h.applied node hNode (by omega)
  rw [hReach, h.count] at hHolds
  rw [Manager.has_eq_ok hItem.not_blank, (Manager.covers_iff hAddressable).mpr]
  rcases Nat.lt_or_ge n 1 with hZero | hOne
  · exact Or.inl (hHolds.1 (by omega))
  · exact Or.inr (hHolds.2 (by omega))

instance (s : Store g) : Decidable (Idle s) :=
  inferInstanceAs (Decidable (s.rotating = none ∧ s.waiting = 0 ∧ s.holder = none ∧ s.queue = []))

/-- The test for `Sequential`. -/
def isSequential (t : Fleet g) : Action g → Bool
  | .coordinator (.add _) | .coordinator .requestRotation => decide (Idle t.process.revoker)
  | _ => true

theorem sequential_of_isSequential (h : t.isSequential a = true) : t.Sequential a := by
  cases a with
  | coordinator action =>
      cases action with
      | add | requestRotation => exact (of_decide_eq_true h : Idle t.process.revoker)
      | core | swap => trivial
  | _ => trivial

/-- The test for `Recorded`. -/
def isRecorded (t : Fleet g) : Action g → Bool
  | .coordinator (.core .rotate) =>
      t.process.coordinator.canonical.events.all fun
        | .tombstone lsn _ x => decide (lsn ≤ t.process.coordinator.metaState.lastBackupLsn) ||
            (match t.process.revoker.manager.current with
              | some filter => filter.test x
              | none => false)
        | _ => true
  | .bootstrap _ => decide (t.process.revoker.rotating ≠ some .swapping)
  | _ => true

theorem recorded_of_isRecorded (hAddressable : ∀ x, BloomFilter.Addressable g.m g.k x)
    (h : t.isRecorded a = true) : t.Recorded a := by
  cases a with
  | coordinator action =>
      cases action with
      | core action =>
          cases action with
          | rotate =>
              intro lsn generation x hEvent hTail
              have hTest := List.all_eq_true.mp h _ hEvent
              simp only [Bool.or_eq_true, decide_eq_true_eq] at hTest
              rcases hTest with hOld | hTest
              · omega
              · exact (Manager.slot_test_iff _ (hAddressable x)).mp hTest
          | _ => trivial
      | _ => trivial
  | bootstrap files => exact (of_decide_eq_true h : t.process.revoker.rotating ≠ some .swapping)
  | _ => trivial

/-- A rotation on its own, whose backup finds `captured`. -/
def rotation (captured : SizedFilter .oneBucket) : List (Action .oneBucket) :=
  [.coordinator .requestRotation, .coordinator (.core .rotate), .coordinator (.core .acquire),
    .coordinator (.core (.settle (.ok ()))), .coordinator (.core (.written captured)),
    .coordinator (.core (.settle (.ok ()))), .coordinator (.core (.settle (.ok ()))),
    .coordinator (.core (.settle (.ok ()))), .coordinator (.core (.settle (.ok ()))),
    .coordinator (.core (.promote (.ok ()))), .coordinator .swap]

/-- An item is added until the filter of capacity one is saturated. -/
def saturating : List (Action .oneBucket) := List.replicate 11 (.coordinator (.add [97]))

/-- A rotation, and a node that joins after it. -/
def joining : List (Action .oneBucket) := rotation (.add (.create _) [97]) ++ [.bootstrap ⟨{}, none⟩]

/-- A run of the one-bucket filter, split at the revocation that is tombstoned. -/
theorem TombstonesReach.of_exec {Safe : JsString → Prop}
    {Allowed : Fleet .oneBucket → Action .oneBucket → Prop}
    {test : Fleet .oneBucket → Action .oneBucket → Bool}
    (h : TombstonesReach .oneBucket .utf8 ⟨1, 9 / 10, 60⟩ Safe Allowed)
    (hTest : ∀ t a, test t a = true → t.Sequential a ∧ Allowed t a) {before after : List (Action .oneBucket)}
    {x : JsString} {v : Fleet .oneBucket}
    (hRun : Transition.exec (Transition.guarded test (step .utf8 ⟨1, 9 / 10, 60⟩ true))
      (start .oneBucket "r" "canonical" 1 true) (before ++ .coordinator (.add x) :: after) = some v)
    (hAnswer : (Transition.exec (Transition.guarded test (step .utf8 ⟨1, 9 / 10, 60⟩ true))
      (start .oneBucket "r" "canonical" 1 true) before).map
        (fun t => (t.process.add x).2.toOption.map AddResult.success) = some (some false))
    (hSafe : Safe x) (hFew : after.countP Action.marks < 2) :
    ∀ node ∈ v.nodes, node.engine.lastAppliedLsn = v.process.coordinator.lastLsn →
      (node.revoker.manager.has x).2 = .ok true := by
  have hAllowed : ∀ {s t : Fleet .oneBucket} {actions : List (Action .oneBucket)},
      Transition.exec (Transition.guarded test (step .utf8 ⟨1, 9 / 10, 60⟩ true)) s actions = some t →
      Transition.Run (Transition.restrict (Steps .oneBucket .utf8 ⟨1, 9 / 10, 60⟩ true) Allowed) s
        actions t :=
    fun hExec => ((Transition.run_of_exec hExec).of_guarded hTest).mono fun _ _ _ h => ⟨⟨h.1, h.2.1⟩, h.2.2⟩
  rw [Transition.exec_append] at hRun
  obtain ⟨t, hBefore, hRest⟩ := Option.bind_eq_some_iff.mp hRun
  obtain ⟨u, hAdd, hAfter⟩ := Option.bind_eq_some_iff.mp hRest
  rw [hBefore, Option.map_some, Option.some_inj] at hAnswer
  obtain ⟨result, hResult, hFailed⟩ := Option.map_eq_some_iff.mp hAnswer
  have hOk : (t.process.add x).2 = .ok result := by
    cases hAdded : (t.process.add x).2 with
    | error error =>
        rw [hAdded] at hResult
        cases hResult
    | ok answer =>
        rw [hAdded] at hResult
        cases hResult
        rfl
  simp only [Transition.guarded, Option.ite_none_right_eq_some] at hAdd
  obtain ⟨hSequential, hStep⟩ := hTest t _ hAdd.1
  exact h "r" "canonical" true before t x result u after v (hAllowed hBefore) hOk hFailed hSafe
    ⟨⟨hAdd.2, hSequential⟩, hStep⟩ (hAllowed hAfter) hFew

/-- Tombstoned items reach all nodes if every one of them is in the coordinator's own filter
when the next rotation begins. Only nodes that have caught up are spoken of, and only items that
the wire and the filters keep as they are. -/
theorem tombstonesReach_recorded (g : Geometry) (wire : Wire) (config : FilterConfig) :
    TombstonesReach g wire config (fun x => IsWellFormed x ∧ BloomFilter.Addressable g.m g.k x) Recorded := by
  intro id walDir periodic before t x result u after v hBefore hOk hFailed hSafe hAdd hAfter hFew node hNode
    hLast
  obtain ⟨history, hSound⟩ : ∃ history, t.Sound history :=
    hBefore.invariant (P := fun t => ∃ history, t.Sound history)
      (fun _ _ _ ⟨_, hSound⟩ hStep =>
        have ⟨_, hNext, _⟩ := hSound.step (hSound.effect hStep.1.1)
        ⟨_, hNext⟩)
      ⟨[], sound_start id walDir config.numItems periodic⟩
  obtain ⟨hItem, lsn, hReaches⟩ := hSound.reaches_of_add hOk hFailed hSafe.1 hAdd.1.2.1
  have hStart : u = { t with process := (t.process.add x).1 } := by
    cases hAdd.1.1
    rfl
  subst hStart
  obtain ⟨history', hEnd⟩ : ∃ history', v.Reaches history' x lsn (0 + after.countP Action.marks) :=
    hAfter.counted Action.marks (P := fun n t => ∃ history, t.Reaches history x lsn n)
      (fun _ _ _ _ ⟨_, hReaches⟩ hStep =>
        have ⟨_, hNext⟩ := hReaches.step hStep.1.1 hStep.2
        ⟨_, hNext⟩)
      ⟨_, hReaches⟩
  exact hEnd.has (by omega) hNode hLast hItem hSafe.2

/-- The tombstoned item is one that the saturated filter has already. -/
theorem tombstonesReach_recorded_one_bucket : ∃ v node, v.nodes[1]? = some node ∧
    Transition.exec (Transition.guarded (fun t a => t.isSequential a && t.isRecorded a)
      (step .utf8 ⟨1, 9 / 10, 60⟩ true)) (start .oneBucket "r" "canonical" 1 true)
      (saturating ++ .coordinator (.add [97]) :: joining) = some v ∧
    (node.revoker.manager.has [97]).2 = .ok true := by
  have hEnd : (Transition.exec (Transition.guarded (fun t a => t.isSequential a && t.isRecorded a)
      (step .utf8 ⟨1, 9 / 10, 60⟩ true)) (start .oneBucket "r" "canonical" 1 true)
      (saturating ++ .coordinator (.add [97]) :: joining)).map (fun v =>
        (v.nodes[1]?.map fun node => node.engine.lastAppliedLsn, v.process.coordinator.lastLsn)) =
      some (some 13, 13) := by decide +kernel
  obtain ⟨v, hRun, hState⟩ := Option.map_eq_some_iff.mp hEnd
  simp only [Prod.mk.injEq] at hState
  obtain ⟨hNode, hLast⟩ := hState
  obtain ⟨node, hAt, hApplied⟩ := Option.map_eq_some_iff.mp hNode
  have hTest : ∀ (t : Fleet .oneBucket) a, (t.isSequential a && t.isRecorded a) = true →
      t.Sequential a ∧ t.Recorded a := by
    intro t a hBoth
    rw [Bool.and_eq_true] at hBoth
    exact ⟨sequential_of_isSequential hBoth.1,
      recorded_of_isRecorded (fun x => SizedFilter.addressable (by decide) x) hBoth.2⟩
  refine ⟨v, node, hAt, hRun, ?_⟩
  exact (tombstonesReach_recorded .oneBucket .utf8 ⟨1, 9 / 10, 60⟩).of_exec hTest hRun (by decide +kernel)
    ⟨by decide, SizedFilter.addressable (by decide) _⟩ (by decide) node (List.mem_of_getElem? hAt)
    (hApplied.trans hLast.symm)

/-- The saturated filter does not have the tombstoned item, and neither has a node that joins
after the next rotation. -/
theorem not_tombstonesReach : ¬ TombstonesReach .oneBucket .utf8 ⟨1, 9 / 10, 60⟩
    (fun x => IsWellFormed x ∧ BloomFilter.Addressable Geometry.oneBucket.m Geometry.oneBucket.k x)
    fun _ _ => True := by
  intro h
  have hEnd : (Transition.exec (Transition.guarded isSequential (step .utf8 ⟨1, 9 / 10, 60⟩ true))
      (start .oneBucket "r" "canonical" 1 true) (saturating ++ .coordinator (.add [97, 97]) :: joining)).map
        (fun v => (v.nodes[1]?.map fun node =>
          (node.engine.lastAppliedLsn, (node.revoker.manager.has [97, 97]).2),
          v.process.coordinator.lastLsn)) =
      some (some (13, .ok false), 13) := by decide +kernel
  obtain ⟨v, hRun, hState⟩ := Option.map_eq_some_iff.mp hEnd
  simp only [Prod.mk.injEq] at hState
  obtain ⟨hNode, hLast⟩ := hState
  obtain ⟨node, hAt, hNode⟩ := Option.map_eq_some_iff.mp hNode
  simp only [Prod.mk.injEq] at hNode
  obtain ⟨hApplied, hLost⟩ := hNode
  have hHas := h.of_exec (fun t a hTest => ⟨sequential_of_isSequential hTest, trivial⟩) hRun
    (by decide +kernel) ⟨by decide, SizedFilter.addressable (by decide) _⟩ (by decide) node
    (List.mem_of_getElem? hAt) (hApplied.trans hLast.symm)
  rw [hLost] at hHas
  cases hHas

end Fleet

end TokenRevoker
