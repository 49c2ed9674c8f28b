import TokenRevoker.Library.Transition
import TokenRevoker.Core.Store
import TokenRevoker.Node.SnapshotInstall

/-! Rotations that a node's core makes on its own, and the mark they leave in the state
file. The core moves the blobs first and calls the hook when the rotation is over; the
hook writes the mark, unless it takes the rotation for one of the engine's. -/
namespace TokenRevoker

/-- Who asked for a rotation: the core's own timer, or the engine by `rotateOnDemand`. -/
inductive RotationOrigin where
  | timer
  | coordinated
  deriving DecidableEq

/-- A rotation that holds the manager's mutex or has held it. Core keeps no such record. -/
structure RotationRun where
  origin : RotationOrigin
  /-- It has changed a blob file. -/
  changed : Bool := false
  deriving DecidableEq

/-- A core revoker in a node, with what its engine keeps about it. The mutex goes to the callers
in the order they came. -/
structure CoreInstance (g : Geometry) where
  store : Store g
  /-- Who waits for the manager's mutex, in order, and who holds it. -/
  waiting : List RotationOrigin := []
  rotating : Option RotationRun := none
  /-- Rotations whose hook is called next. -/
  returned : List RotationRun := []
  rotationInterval : Bool := true
  inCoordinatedRotation : Bool := false
  destroyed : Bool := false
  deriving DecidableEq

namespace CoreInstance

variable {g : Geometry}

def requestRotation (core : CoreInstance g) (origin : RotationOrigin) : CoreInstance g :=
  { core with
    store := { core.store with waiting := core.store.waiting + 1 }
    waiting := core.waiting ++ [origin] }

/-- The rotation interval fires. It can fire again while an earlier rotation is waiting. -/
def timer (core : CoreInstance g) : Option (CoreInstance g) :=
  if core.rotationInterval then some (core.requestRotation .timer) else none

/-- The engine calls `rotateOnDemand`, one call at a time. -/
def rotateOnDemand (core : CoreInstance g) : Option (CoreInstance g) :=
  if core.inCoordinatedRotation || core.destroyed then none
  else some { core.requestRotation .coordinated with
    rotationInterval := false
    inCoordinatedRotation := true }

/-- `#rotate` gets the mutex. A core that was destroyed has no backup manager any more. Such a
core swaps its filters without a backup. -/
def rotate (core : CoreInstance g) : Option (CoreInstance g) :=
  match core.rotating, core.waiting with
  | none, origin :: rest =>
      let begun : CoreInstance g := { core with waiting := rest, rotating := some ⟨origin, false⟩ }
      if core.destroyed then
        some { begun with store := { core.store with
          waiting := core.store.waiting - 1
          rotating := some .swapping } }
      else (core.store.step .rotate).map fun store => { begun with store := store }
  | _, _ => none

/-- `#rotate` swaps the filters and releases the mutex. -/
def swap (core : CoreInstance g) : Option (CoreInstance g) :=
  match core.rotating with
  | some rotation =>
      (core.store.step .swap).map fun store =>
        { core with store := store, rotating := none, returned := core.returned ++ [rotation] }
  | none => none

/-- A rotation of the engine's is under way. It waits for the mutex, holds it, or is about to be
reported. -/
def coordinates (core : CoreInstance g) : Bool :=
  core.waiting.contains .coordinated ||
    (core.rotating.toList ++ core.returned).any fun rotation => rotation.origin = .coordinated

/-- `rotateOnDemand` returns to the engine. That comes after the hook has been called. -/
def rotateOnDemandReturned (core : CoreInstance g) : Option (CoreInstance g) :=
  if core.inCoordinatedRotation && !core.coordinates then
    some { core with inCoordinatedRotation := false, rotationInterval := true }
  else none

/-- `destroy`. A backup that is under way still has its filter, so the filters stay. Rotations
that wait or run go on. -/
def destroy (core : CoreInstance g) : CoreInstance g :=
  { core with
    store := { core.store with
      manager := { core.store.manager with shuttingDown := true }
      interval := none }
    rotationInterval := false
    destroyed := true }

/-- The backup mutex is held by the backup of a rotation. -/
def backsUpRotation (core : CoreInstance g) : Bool :=
  core.store.holder.any fun holder => holder.1.isRotation

/-- The store comes further, and the rotation that backs up may have changed a blob file. -/
def advance (core : CoreInstance g) (store : Store g) (changed : Bool) : CoreInstance g :=
  { core with
    store := store
    rotating := core.rotating.map fun rotation =>
      { rotation with changed := rotation.changed || changed } }

/-- A rotation of the timer has changed a blob file, and its hook has not been called. -/
def unannounced (core : CoreInstance g) : Bool :=
  (core.rotating.toList ++ core.returned).any fun rotation =>
    rotation.origin = .timer && rotation.changed

end CoreInstance

/-- `Partial<SyncState>`. Fields that are left out keep what the file says. -/
structure SyncStateUpdate where
  lastLsn : Option Nat := none
  generation : Option Nat := none
  dirty : Option Bool := none
  deriving DecidableEq

namespace NodeFiles

/-- `StateFile.read`, which finds nothing while the file cannot be read. -/
def read (files : NodeFiles) (readable : Bool) : Option SyncState :=
  if readable then files.state else none

/-- `StateFile.update`: what is read is merged with the update and replaces the file,
unless the write fails. -/
def update (files : NodeFiles) (readable : Bool) (written : Except String Unit)
    (update : SyncStateUpdate) : NodeFiles :=
  let current := (files.read readable).getD ⟨0, 0, false⟩
  match written with
  | .ok () => { files with state := some {
      lastLsn := update.lastLsn.getD current.lastLsn
      generation := update.generation.getD current.generation
      dirty := update.dirty.getD current.dirty } }
  | .error _ => files

/-- The state file says that the node is dirty. -/
def dirty (files : NodeFiles) : Bool := files.state.any (·.dirty)

end NodeFiles

/-- The blob files differ. -/
def Disk.blobsDiffer (disk next : Disk) : Bool :=
  decide (disk.currentBlob ≠ next.currentBlob) || decide (disk.previousBlob ≠ next.previousBlob)

/-- A node as far as its files are concerned. A process that does not run has no cores. Several
cores may be there at once: one that is destroyed can still finish what it began. `selfRotated`
is no field of the source. -/
structure NodeProcess (g : Geometry) where
  files : NodeFiles
  numItems : Nat
  periodic : Bool
  cores : List (CoreInstance g) := []
  /-- `#revoker` and `#engine`, by the core they belong to. -/
  revoker : Option Nat := none
  engine : Option Nat := none
  /-- `createRevoker` is next. -/
  ready : Bool := false
  shuttingDown : Bool := false
  /-- A rotation of a timer has changed a blob file since the last snapshot was installed. -/
  selfRotated : Bool := false
  deriving DecidableEq

namespace NodeProcess

inductive Action (g : Geometry) where
  | init (readable : Bool)
  | install (snapshot : SnapshotData) (steps : Nat)
  | create (created : Bool)
  | core (index : Nat) (a : Store.Action g)
  | timer (index : Nat)
  | rotateOnDemand (index : Nat)
  | rotate (index : Nat)
  | swap (index : Nat)
  | notify (index : Nat) (readable : Bool) (written : Except String Unit)
  | rotateOnDemandReturned (index : Nat)
  | update (lastLsn generation : Nat) (readable : Bool) (written : Except String Unit)
  | stopEngine
  | destroyRevoker
  | shutdown
  | crash

variable {g : Geometry}

/-- `#engine?.isRotationExternallyDriven()`. -/
def isRotationExternallyDriven (node : NodeProcess g) : Bool :=
  (node.engine.bind fun engine => node.cores[engine]?).any (·.inCoordinatedRotation)

/-- `#onCoreRotation`; a failure of the write is logged and swallowed. -/
def onCoreRotation (node : NodeProcess g) (readable : Bool) (written : Except String Unit) :
    NodeProcess g :=
  if node.shuttingDown then node
  else if node.isRotationExternallyDriven then node
  else { node with files := node.files.update readable written { dirty := some true } }

/-- The decision of `init` on what it reads. A state file that cannot be read counts as none. -/
def startPath (node : NodeProcess g) (readable : Bool) : StartPath :=
  NodeFiles.init { node.files with state := node.files.read readable }

/-- What the store of a core does by itself, or for the engine. -/
def isCoreStep : Store.Action g → Bool
  | .applyEntry _ _ | .tick | .retry | .acquire | .written _ | .settle _ | .promote _ => true
  | .add _ _ | .requestRotation | .rotate | .swap | .crash => false

/-- A step of one core on the files that all of them share. -/
def coreStep (node : NodeProcess g) (index : Nat) (a : Store.Action g) : Option (NodeProcess g) :=
  match node.cores[index]? with
  | none => none
  | some core =>
    if isCoreStep a then
      (({ core.store with disk := node.files.disk } : Store g).step a).map fun store =>
        let changed := core.backsUpRotation && node.files.disk.blobsDiffer store.disk
        { node with
          files := { node.files with disk := store.disk }
          cores := node.cores.set index (core.advance store changed)
          selfRotated := node.selfRotated ||
            (changed && core.rotating.any fun rotation => rotation.origin = .timer) }
    else none

/-- A step of one core that touches no file. -/
def memoryStep (node : NodeProcess g) (index : Nat)
    (run : CoreInstance g → Option (CoreInstance g)) : Option (NodeProcess g) :=
  match node.cores[index]? with
  | none => none
  | some core => (run core).map fun core => { node with cores := node.cores.set index core }

/-- One synchronous stretch of the node, `none` where it cannot run now. -/
def step (node : NodeProcess g) : Action g → Option (NodeProcess g)
  | .init readable =>
      if node.cores.isEmpty && !node.ready then
        match node.startPath readable with
        | .resume _ _ => some { node with ready := true }
        | .bootstrap => some node
      else none
  | .install snapshot steps =>
      if node.revoker.isNone && node.engine.isNone then
        let files := node.files.crashedInBootstrap snapshot steps
        -- it is installed when the state file has been written
        if steps < (NodeFiles.bootstrapSteps snapshot).length then some { node with files := files }
        else some { node with files := files, ready := true, selfRotated := false }
      else none
  | .create created =>
      if node.ready then
        if created then
          some { node with
            ready := false
            revoker := some node.cores.length
            engine := some node.cores.length
            cores := node.cores ++ [{ store := Store.boot g node.numItems node.periodic node.files.disk }] }
        else some { node with ready := false }
      else none
  | .core index a => node.coreStep index a
  | .timer index => node.memoryStep index CoreInstance.timer
  | .rotateOnDemand index => node.memoryStep index CoreInstance.rotateOnDemand
  | .rotate index => node.memoryStep index CoreInstance.rotate
  | .swap index => node.memoryStep index CoreInstance.swap
  | .notify index readable written =>
      match node.cores[index]? with
      | none => none
      | some core =>
        match core.returned with
        | [] => none
        | _ :: rest =>
          some (({ node with cores := node.cores.set index { core with returned := rest } }
            : NodeProcess g).onCoreRotation readable written)
  | .rotateOnDemandReturned index => node.memoryStep index CoreInstance.rotateOnDemandReturned
  | .update lastLsn generation readable written =>
      if node.cores.isEmpty then none
      else some { node with
        files := node.files.update readable written
          { lastLsn := some lastLsn, generation := some generation } }
  | .stopEngine => some { node with engine := none }
  | .destroyRevoker =>
      if node.engine.isSome then none
      else
        match node.revoker with
        | none => none
        | some index =>
          match node.cores[index]? with
          | none => none
          | some core =>
            some { node with revoker := none, cores := node.cores.set index core.destroy }
  | .shutdown => some { node with shuttingDown := true }
  | .crash =>
      some { node with
        cores := [], revoker := none, engine := none, ready := false, shuttingDown := false }

/-- A node before its first `init`, on these files. -/
def start (g : Geometry) (numItems : Nat) (periodic : Bool) (files : NodeFiles) : NodeProcess g where
  files := files
  numItems := numItems
  periodic := periodic

variable {node next : NodeProcess g} {a : Action g}

/-- Where the node does what its mark asks for: no process ends between the change of a
blob file by a self-rotation and its hook; the hook takes it for what it is, and its
write succeeds; the engine does not write over a mark that it cannot read. A file that
is marked already makes up for the first two. -/
def heeds (node : NodeProcess g) : Action g → Bool
  | .crash => node.files.dirty || !node.cores.any (·.unannounced)
  | .notify index _ written =>
      match node.cores[index]? with
      | none => true
      | some core =>
        match core.returned with
        | [] => true
        | rotation :: _ =>
          node.files.dirty || !(rotation.origin = .timer && rotation.changed) ||
            (!node.shuttingDown && !node.isRotationExternallyDriven && written.isOk)
  | .update _ _ readable written => readable || !node.files.dirty || !written.isOk
  | _ => true

/-- A self-rotation that has changed the blobs has left its mark, or is about to. -/
def Marked (node : NodeProcess g) : Prop :=
  node.selfRotated = true → node.files.dirty = true ∨ ∃ core ∈ node.cores, core.unannounced = true

theorem Marked.keep (h : Marked node) (hFlag : next.selfRotated = true → node.selfRotated = true)
    (hDirty : node.files.dirty = true → next.files.dirty = true)
    (hCores : ∀ core ∈ node.cores, core.unannounced = true →
      ∃ later ∈ next.cores, later.unannounced = true) : Marked next := by
  intro hNext
  rcases h (hFlag hNext) with hMarked | ⟨core, hCore, hOpen⟩
  · exact Or.inl (hDirty hMarked)
  · exact Or.inr (hCores core hCore hOpen)

theorem exists_set {cores : List (CoreInstance g)} {index : Nat} {core later : CoreInstance g}
    (hCore : cores[index]? = some core) (hLater : core.unannounced = true → later.unannounced = true) :
    ∀ other ∈ cores, other.unannounced = true →
      ∃ later' ∈ cores.set index later, later'.unannounced = true := by
  intro other hOther hOpen
  obtain ⟨i, hi⟩ := List.mem_iff_getElem?.mp hOther
  by_cases hEq : index = i
  · subst hEq
    rw [hCore] at hi
    cases hi
    exact ⟨later, List.mem_set (List.getElem?_eq_some_iff.mp hCore).1 later, hLater hOpen⟩
  · refine ⟨other, List.mem_iff_getElem?.mpr ⟨i, ?_⟩, hOpen⟩
    rw [List.getElem?_set, if_neg hEq, hi]

theorem Marked.memoryStep (h : Marked node) {index : Nat} {run : CoreInstance g → Option (CoreInstance g)}
    (hRun : ∀ core later, run core = some later → core.unannounced = true → later.unannounced = true)
    (hStep : node.memoryStep index run = some next) : Marked next := by
  unfold NodeProcess.memoryStep at hStep
  split at hStep
  · cases hStep
  · rename_i core hCore
    obtain ⟨later, hLater, rfl⟩ := Option.map_eq_some_iff.mp hStep
    exact h.keep id id (exists_set hCore (hRun core later hLater))

theorem unannounced_iff {core : CoreInstance g} : core.unannounced = true ↔
    ∃ rotation, (core.rotating = some rotation ∨ rotation ∈ core.returned) ∧
      rotation.origin = .timer ∧ rotation.changed = true := by
  simp only [CoreInstance.unannounced, List.any_eq_true, List.mem_append, Option.mem_toList,
    Bool.and_eq_true, decide_eq_true_eq]

theorem rotate_unannounced {core later : CoreInstance g} (hRotate : core.rotate = some later)
    (hOpen : core.unannounced = true) : later.unannounced = true := by
  obtain ⟨rotation, hRotation, hTimer⟩ := unannounced_iff.mp hOpen
  refine unannounced_iff.mpr ⟨rotation, Or.inr ?_, hTimer⟩
  unfold CoreInstance.rotate at hRotate
  split at hRotate
  · rename_i hFree hWaiting
    have hReturned : rotation ∈ core.returned := by
      rcases hRotation with hRotating | hReturned
      · rw [hFree] at hRotating
        cases hRotating
      · exact hReturned
    dsimp only at hRotate
    split_ifs at hRotate
    · cases hRotate
      exact hReturned
    · obtain ⟨store, -, rfl⟩ := Option.map_eq_some_iff.mp hRotate
      exact hReturned
  · cases hRotate

theorem swap_unannounced {core later : CoreInstance g} (hSwap : core.swap = some later)
    (hOpen : core.unannounced = true) : later.unannounced = true := by
  obtain ⟨rotation, hRotation, hTimer⟩ := unannounced_iff.mp hOpen
  refine unannounced_iff.mpr ⟨rotation, Or.inr ?_, hTimer⟩
  unfold CoreInstance.swap at hSwap
  split at hSwap
  · rename_i held hHeld
    obtain ⟨store, -, rfl⟩ := Option.map_eq_some_iff.mp hSwap
    rcases hRotation with hRotating | hReturned
    · rw [hHeld] at hRotating
      cases hRotating
      exact List.mem_append_right _ (List.mem_singleton_self _)
    · exact List.mem_append_left _ hReturned
  · cases hSwap

theorem advance_unannounced {core : CoreInstance g} (store : Store g) (changed : Bool)
    (hOpen : core.unannounced = true) : (core.advance store changed).unannounced = true := by
  obtain ⟨rotation, hRotation, hTimer, hChanged⟩ := unannounced_iff.mp hOpen
  rcases hRotation with hRotating | hReturned
  · refine unannounced_iff.mpr ⟨{ rotation with changed := rotation.changed || changed }, Or.inl ?_,
        hTimer, ?_⟩
    · rw [CoreInstance.advance, hRotating, Option.map_some]
    · rw [hChanged, Bool.true_or]
  · exact unannounced_iff.mpr ⟨rotation, Or.inr hReturned, hTimer, hChanged⟩

theorem unannounced_of_advance {core : CoreInstance g} (store : Store g)
    (hTimer : (core.rotating.any fun rotation => rotation.origin = .timer) = true) :
    (core.advance store true).unannounced = true := by
  obtain ⟨rotation, hRotating, hTimer⟩ := (Option.any_eq_true _ _).mp hTimer
  refine unannounced_iff.mpr ⟨{ rotation with changed := rotation.changed || true }, Or.inl ?_, ?_, ?_⟩
  · rw [CoreInstance.advance, hRotating, Option.map_some]
  · exact of_decide_eq_true hTimer
  · rw [Bool.or_true]

/-- A rotation of the timer that changes a blob file is under way until its hook is called. -/
theorem Marked.coreStep (h : Marked node) {index : Nat} {a : Store.Action g}
    (hStep : node.coreStep index a = some next) : Marked next := by
  unfold NodeProcess.coreStep at hStep
  split at hStep
  · cases hStep
  · rename_i core hCore
    split_ifs at hStep
    obtain ⟨store, -, rfl⟩ := Option.map_eq_some_iff.mp hStep
    intro hFlag
    by_cases hSelf : node.selfRotated = true
    · exact h.keep (fun _ => hSelf) id (exists_set hCore (advance_unannounced store _)) hFlag
    · simp only [hSelf, Bool.false_or, Bool.and_eq_true] at hFlag
      obtain ⟨⟨hBackup, hDiffer⟩, hTimer⟩ := hFlag
      refine Or.inr ⟨_, List.mem_set (List.getElem?_eq_some_iff.mp hCore).1 _, ?_⟩
      rw [hBackup, hDiffer]
      exact unannounced_of_advance store hTimer

theorem update_dirty {files : NodeFiles} {readable : Bool} {written : Except String Unit}
    {update : SyncStateUpdate} (h : files.dirty = true)
    (hReads : update.dirty = some true ∨ update.dirty = none ∧ (readable = true ∨ written.isOk = false)) :
    (files.update readable written update).dirty = true := by
  cases written with
  | error message => exact h
  | ok =>
      rcases hReads with hMark | ⟨hNone, hReadable | hFailed⟩
      · simp [NodeFiles.update, NodeFiles.dirty, hMark]
      · obtain ⟨state, hState, hDirty⟩ := (Option.any_eq_true _ _).mp h
        simp [NodeFiles.update, NodeFiles.dirty, NodeFiles.read, hNone, hReadable, hState, hDirty]
      · cases hFailed

theorem onCoreRotation_dirty (readable : Bool) (written : Except String Unit)
    (h : node.files.dirty = true) : (node.onCoreRotation readable written).files.dirty = true := by
  unfold onCoreRotation
  split_ifs
  · exact h
  · exact h
  · exact update_dirty h (Or.inl rfl)

/-- The hook leaves the mark. -/
theorem onCoreRotation_marks (readable : Bool) {written : Except String Unit}
    (hServing : node.shuttingDown = false) (hOwn : node.isRotationExternallyDriven = false)
    (hWritten : written.isOk = true) : (node.onCoreRotation readable written).files.dirty = true := by
  unfold onCoreRotation
  rw [hServing, hOwn]
  cases written with
  | error message => cases hWritten
  | ok => simp [NodeFiles.update, NodeFiles.dirty]

theorem onCoreRotation_frame (node : NodeProcess g) (readable : Bool) (written : Except String Unit) :
    (node.onCoreRotation readable written).cores = node.cores ∧
      (node.onCoreRotation readable written).selfRotated = node.selfRotated := by
  unfold onCoreRotation
  split_ifs <;> exact ⟨rfl, rfl⟩

theorem externallyDriven_set {index : Nat} {core later : CoreInstance g}
    (hCore : node.cores[index]? = some core)
    (hSame : later.inCoordinatedRotation = core.inCoordinatedRotation) :
    ({ node with cores := node.cores.set index later } : NodeProcess g).isRotationExternallyDriven =
      node.isRotationExternallyDriven := by
  unfold isRotationExternallyDriven
  cases node.engine with
  | none => rfl
  | some engine =>
      simp only [Option.bind_some, List.getElem?_set]
      split_ifs with hEq hLt
      · subst hEq
        rw [hCore, Option.any_some, Option.any_some, hSame]
      · subst hEq
        exact absurd (List.getElem?_eq_some_iff.mp hCore).1 hLt
      · rfl

theorem Marked.notify (h : Marked node) {index : Nat} {readable : Bool} {written : Except String Unit}
    (hHeeds : node.heeds (.notify index readable written) = true)
    (hStep : node.step (.notify index readable written) = some next) : Marked next := by
  simp only [NodeProcess.step] at hStep
  split at hStep
  · cases hStep
  · rename_i core hCore
    split at hStep
    · cases hStep
    · rename_i rotation rest hReturned
      cases hStep
      simp only [heeds, hCore, hReturned, Bool.or_eq_true, Bool.not_eq_true', Bool.and_eq_true] at hHeeds
      obtain ⟨hCores, hFlag⟩ := onCoreRotation_frame
        { node with cores := node.cores.set index { core with returned := rest } } readable written
      intro hSelf
      rw [hFlag] at hSelf
      rcases hHeeds with (hDirty | hOther) | ⟨⟨hServing, hOwn⟩, hWritten⟩
      · exact Or.inl (onCoreRotation_dirty _ _ hDirty)
      · rcases h hSelf with hDirty | ⟨opened, hMem, hOpen⟩
        · exact Or.inl (onCoreRotation_dirty _ _ hDirty)
        · rw [hCores]
          refine Or.inr (exists_set hCore (fun hCoreOpen => ?_) opened hMem hOpen)
          obtain ⟨run, hRun, hTimer, hChanged⟩ := unannounced_iff.mp hCoreOpen
          refine unannounced_iff.mpr ⟨run, hRun.imp id fun hRun => ?_, hTimer, hChanged⟩
          rw [hReturned] at hRun
          rcases List.mem_cons.mp hRun with rfl | hRun
          · simp [hTimer, hChanged] at hOther
          · exact hRun
      · refine Or.inl (onCoreRotation_marks _ hServing ?_ hWritten)
        rw [← hOwn]
        exact externallyDriven_set hCore rfl

/-- A step that heeds the mark keeps it. -/
theorem step_marked (h : Marked node) (hHeeds : node.heeds a = true) (hStep : node.step a = some next) :
    Marked next := by
  cases a with
  | init readable =>
      simp only [step] at hStep
      split_ifs at hStep
      split at hStep <;> cases hStep <;> exact h
  | install snapshot steps =>
      simp only [step] at hStep
      split_ifs at hStep with hFree hShort <;> cases hStep
      · refine h.keep id (fun hDirty => ?_) fun core hCore hOpen => ⟨core, hCore, hOpen⟩
        rw [NodeFiles.dirty, Installation.crashed_state node.files snapshot hShort]
        exact hDirty
      · exact fun hFlag => by cases hFlag
  | create created =>
      simp only [step] at hStep
      split_ifs at hStep <;> cases hStep
      · exact h.keep id id fun core hCore hOpen => ⟨core, List.mem_append_left _ hCore, hOpen⟩
      · exact h
  | core index a => exact h.coreStep hStep
  | timer index =>
      refine h.memoryStep (fun core later hTimer hOpen => ?_) hStep
      simp only [CoreInstance.timer, Option.ite_none_right_eq_some] at hTimer
      obtain ⟨-, hTimer⟩ := hTimer
      cases hTimer
      exact hOpen
  | rotateOnDemand index =>
      refine h.memoryStep (fun core later hRotate hOpen => ?_) hStep
      simp only [CoreInstance.rotateOnDemand, Option.ite_none_left_eq_some] at hRotate
      obtain ⟨-, hRotate⟩ := hRotate
      cases hRotate
      exact hOpen
  | rotate index => exact h.memoryStep (fun _ _ => rotate_unannounced) hStep
  | swap index => exact h.memoryStep (fun _ _ => swap_unannounced) hStep
  | notify index readable written => exact h.notify hHeeds hStep
  | rotateOnDemandReturned index =>
      refine h.memoryStep (fun core later hReturned hOpen => ?_) hStep
      simp only [CoreInstance.rotateOnDemandReturned, Option.ite_none_right_eq_some] at hReturned
      obtain ⟨-, hReturned⟩ := hReturned
      cases hReturned
      exact hOpen
  | update lastLsn generation readable written =>
      simp only [step] at hStep
      split_ifs at hStep
      cases hStep
      simp only [heeds, Bool.or_eq_true, Bool.not_eq_true'] at hHeeds
      refine h.keep id (fun hDirty => ?_) fun core hCore hOpen => ⟨core, hCore, hOpen⟩
      rcases hHeeds with (hReadable | hClean) | hFailed
      · exact update_dirty hDirty (Or.inr ⟨rfl, Or.inl hReadable⟩)
      · rw [hDirty] at hClean
        cases hClean
      · exact update_dirty hDirty (Or.inr ⟨rfl, Or.inr hFailed⟩)
  | stopEngine =>
      cases hStep
      exact h
  | destroyRevoker =>
      simp only [step] at hStep
      split_ifs at hStep
      split at hStep
      · cases hStep
      · split at hStep
        · cases hStep
        · rename_i core hCore
          cases hStep
          exact h.keep id id (exists_set hCore fun hOpen => hOpen)
  | shutdown =>
      cases hStep
      exact h
  | crash =>
      cases hStep
      intro hFlag
      simp only [heeds, Bool.or_eq_true, Bool.not_eq_true'] at hHeeds
      rcases h hFlag with hDirty | ⟨core, hCore, hOpen⟩
      · exact Or.inl hDirty
      · rcases hHeeds with hDirty | hAnnounced
        · exact Or.inl hDirty
        · rw [List.any_eq_false] at hAnnounced
          exact absurd hOpen (hAnnounced core hCore)

/-- The steps that heed the mark. -/
def HeedingSteps (g : Geometry) : NodeProcess g → Action g → NodeProcess g → Prop :=
  Transition.restrict (Transition.ofStep step) fun node a => node.heeds a = true

/-- While the node heeds the mark, whenever `init` takes the local-resume path no self-rotation
has changed the blobs since the last snapshot was installed. The converse is not said: a node
may start over from a snapshot without need. -/
theorem clean_resume (numItems : Nat) (periodic : Bool) (files : NodeFiles) {as : List (Action g)}
    (run : Transition.Run (HeedingSteps g) (start g numItems periodic files) as node)
    (hStopped : node.cores = []) {readable : Bool} {lastLsn generation : Nat}
    (hResume : node.startPath readable = .resume lastLsn generation) : node.selfRotated = false := by
  have hMarked : Marked node :=
    run.invariant (fun _ _ _ h hStep => step_marked h hStep.2 hStep.1) fun hFlag => by cases hFlag
  by_contra hFlag
  rcases hMarked (by simpa using hFlag) with hDirty | ⟨core, hCore, -⟩
  · obtain ⟨state, hState, hDirty⟩ := (Option.any_eq_true _ _).mp hDirty
    unfold startPath NodeFiles.init NodeFiles.read at hResume
    cases readable with
    | true => simp [hState, hDirty] at hResume
    | false => simp at hResume
  · rw [hStopped] at hCore
    cases hCore

/-- A snapshot of an empty filter. -/
def emptySnapshot : SnapshotData where
  currentBlob := [0, 0, 0, 0]
  previousBlob := []
  generation := 0
  lastBackupLsn := 0
  numItems := 1
  fpRate := 1 / 10
  k := 1
  rotateTime := 1000

/-- A new node bootstraps, and the timer of its core fires. -/
def timerFires : List (Action .oneBucket) :=
  [.init true, .install emptySnapshot 6, .create true, .timer 0, .rotate 0]

/-- The backup of a rotation moves the blobs. -/
def movesBlobs (index : Nat) : List (Action .oneBucket) :=
  [.core index .acquire, .core index (.settle (.ok ())), .core index (.written (.create _)),
    .core index (.settle (.ok ())), .core index (.settle (.ok ())), .core index (.settle (.ok ())),
    .core index (.settle (.ok ())), .core index (.promote (.ok ()))]

/-- What happens while a rotation of the timer has not backed up yet, and after it. -/
def interrupted (between after : List (Action .oneBucket)) : List (Action .oneBucket) :=
  timerFires ++ between ++ movesBlobs 0 ++ after

/-- The mark is written, the node bootstraps again, rotates with its coordinator and crashes. -/
def healed : List (Action .oneBucket) :=
  interrupted [] [.swap 0, .notify 0 true (.ok ()), .stopEngine, .destroyRevoker,
    .install emptySnapshot 6, .create true, .rotateOnDemand 1, .rotate 1] ++ movesBlobs 1 ++
    [.swap 1, .notify 1 true (.ok ()), .rotateOnDemandReturned 1, .update 1 1 true (.ok ()), .crash]

/-- The step function behind the test for heeding. -/
def heedingStep (g : Geometry) : NodeProcess g → Action g → Option (NodeProcess g) :=
  Transition.guarded heeds step

theorem clean_resume_healed :
    ∃ node : NodeProcess .oneBucket,
      Transition.exec (heedingStep .oneBucket) (start .oneBucket 1 false ⟨{}, none⟩) healed = some node ∧
      node.startPath true = .resume 1 1 ∧ node.selfRotated = false := by
  have hRun : ∃ node : NodeProcess .oneBucket,
      Transition.exec (heedingStep .oneBucket) (start .oneBucket 1 false ⟨{}, none⟩) healed = some node ∧
      node.cores = [] ∧ node.startPath true = .resume 1 1 := ⟨_, by rfl, by rfl, by rfl⟩
  obtain ⟨node, hExec, hStopped, hResume⟩ := hRun
  have run : Transition.Run (HeedingSteps .oneBucket) _ _ node :=
    Transition.Run.of_guarded (fun _ _ hTest => hTest) (Transition.run_of_exec hExec)
  exact ⟨node, hExec, hResume, clean_resume 1 false ⟨{}, none⟩ run hStopped hResume⟩

/-- The same of every run, whether its steps heed the mark or not. -/
def NeverHides (g : Geometry) : Prop :=
  ∀ (numItems : Nat) (periodic : Bool) (files : NodeFiles) (as : List (Action g)) (node : NodeProcess g),
    Transition.Run (Transition.ofStep step) (start g numItems periodic files) as node → node.cores = [] →
      ∀ readable lastLsn generation, node.startPath readable = .resume lastLsn generation →
        node.selfRotated = false

/-- A dirty flag that cannot be written is logged and forgotten. -/
theorem not_neverHides : ¬ NeverHides .oneBucket := by
  intro h
  have hRun : ∃ node : NodeProcess .oneBucket,
      Transition.exec step (start .oneBucket 1 false ⟨{}, none⟩)
        (interrupted [] [.swap 0, .notify 0 true (.error "ENOSPC"), .crash]) = some node ∧
      node.cores = [] ∧ node.startPath true = .resume 0 0 ∧ node.selfRotated = true :=
    ⟨_, by rfl, by rfl, by rfl, by rfl⟩
  obtain ⟨node, hExec, hStopped, hResume, hRotated⟩ := hRun
  have hHidden := h 1 false _ _ node (Transition.run_of_exec hExec) hStopped true 0 0 hResume
  rw [hRotated] at hHidden
  cases hHidden

/-- Such a run ends with a node that resumes from self-rotated files. -/
def hides (between after : List (Action .oneBucket)) : Bool :=
  (Transition.exec step (start .oneBucket 1 false ⟨{}, none⟩) (interrupted between after)).any fun node =>
    node.cores.isEmpty && node.selfRotated && decide (node.startPath true ≠ .bootstrap)

/-- Each of the other steps that do not heed the mark hides a self-rotation too: the engine
writes over a mark that it cannot read, the process ends before the hook, the hook takes
the rotation for the one that the engine waits for, or the node is shutting down. -/
theorem hides_of_unheeding :
    hides [] [.swap 0, .notify 0 true (.ok ()), .update 1 0 false (.ok ()), .crash] = true ∧
    hides [] [.crash] = true ∧
    hides [.rotateOnDemand 0] [.swap 0, .notify 0 true (.ok ()), .crash] = true ∧
    hides [.shutdown] [.swap 0, .notify 0 true (.ok ()), .crash] = true := by
  decide +kernel

end NodeProcess

end TokenRevoker
