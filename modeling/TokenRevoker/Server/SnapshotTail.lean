import TokenRevoker.Core.CrashSafety
import TokenRevoker.Server.CanonicalHistory

/-! The coordinator together with its own filter. A revocation takes its LSN and sets
its bits in one synchronous stretch; the files of the filter follow step by step, and
the marker of a rotation is written when the filters are swapped. A snapshot claims
that the blobs reflect every entry up to the last marker. -/
namespace TokenRevoker

open Text SignatureFilter

variable {g : Geometry}

/-- The filter in a blob of a snapshot has the bits of `x`. -/
def blobTests (g : Geometry) (blob : Bytes) (x : JsString) : Bool :=
  match restoreFilterFromFile g (some blob) with
  | some filter => filter.test x
  | none => false

/-- A file that is missing is served as an empty blob. -/
theorem blobTests_getD {file : Option Bytes} {x : JsString} (hAddressable : BloomFilter.Addressable g.m g.k x)
    (h : Store.Bits g (blobBits g file) x) : blobTests g (file.getD []) x = true := by
  have hSame : blobBits g (some (file.getD [])) = blobBits g file := by
    cases file with
    | none => rw [blobBits, blobBits, restoreFilterFromFile_empty rfl, restoreFilterFromFile_empty rfl]
    | some blob => rfl
  rw [← hSame] at h
  exact (Manager.slot_test_iff _ hAddressable).mpr h

namespace Store

/-- A rotation is inside `backupRotate`, and its backup will not lose `x`. -/
structure Backing (x : JsString) (s : Store g) : Prop where
  memory : Bits g s.manager.window.current x
  stage : s.rotating = some .backingUp
  bytes : ∀ job phase, s.holder = some (job, phase) → job.isRotation = true → Phase.Carries x s.disk phase

variable {s t : Store g} {a : Action g} {x : JsString}

/-- Only the swap takes bits out of the current filter. -/
theorem Effect.current_le (effect : Effect s a t) (hOrdered : Ordered s)
    (hStage : s.rotating ≠ some .swapping) (hAlive : a ≠ .crash) :
    s.manager.window.current ⊆ t.manager.window.current := by
  cases effect with
  | called call isCall => exact (call.window_le hOrdered.current hOrdered.log).1
  | ticked | retried =>
      unfold Store.attempt
      split_ifs <;> exact subset_rfl
  | abandoned job message hHolder => exact absurd rfl ((hOrdered.holds job _ hHolder).2.2.2 message)
  | swapped hSwapping => exact absurd hSwapping hStage
  | crashed => exact absurd rfl hAlive
  | requested | began | skipped | opened | handed | written | synced | closed | renamed | cleared
  | promoted => exact subset_rfl

theorem Backing.advance (h : Backing x s) {job : Job} {phase : Phase g} {disk : Disk}
    (hCarries : job.isRotation = true → Phase.Carries x disk phase) :
    Backing x { s with disk := disk, holder := some (job, phase) } := by
  refine ⟨h.memory, h.stage, ?_⟩
  intro job' phase' hEq hRotation
  cases hEq
  exact hCarries hRotation

theorem Backing.attempt (h : Backing x s) (capture : Capture) (n : Nat) :
    Backing x (s.attempt capture n) := by
  unfold Store.attempt
  split_ifs
  · exact ⟨h.memory, h.stage, h.bytes⟩
  · exact h

/-- A rotation that begins will back up the filter there is. -/
theorem Effect.backing_of_begins (effect : Effect s a t) (hOrdered : Ordered s)
    (hBegins : a.begins = true) (hMemory : Bits g s.manager.window.current x) : Backing x t := by
  cases effect with
  | called call isCall => rcases isCall with ⟨_, rfl⟩ | ⟨_, rfl⟩ <;> cases hBegins
  | began hFree =>
      refine ⟨hMemory, rfl, fun job phase hHolder hRotation => ?_⟩
      rw [(hOrdered.no_rotation (by simp [hFree])).2 job phase hHolder] at hRotation
      cases hRotation
  | _ => cases hBegins

/-- The backup of a rotation ends with the promotion of a blob that has the item. -/
theorem Effect.backing (effect : Effect s a t) (hOrdered : Ordered s) (h : Backing x s)
    (hAlive : a ≠ .crash) : Backing x t ∨ Promoted x t := by
  cases effect with
  | called call isCall =>
      obtain ⟨hMemory, -, -⟩ := call.window_le hOrdered.current hOrdered.log
      obtain ⟨-, -, -, -, -, hHolder, hRotating, hBlob, -⟩ := call.frame
      refine Or.inl ⟨h.memory.mono hMemory, hRotating.trans h.stage, ?_⟩
      intro job phase hPhase hRotation
      rw [hHolder] at hPhase
      exact (h.bytes job phase hPhase hRotation).mono hBlob
  | requested => exact Or.inl ⟨h.memory, h.stage, h.bytes⟩
  | began hFree => exact absurd (hFree.symm.trans h.stage) (by simp)
  | ticked capture hInterval => exact Or.inl (h.attempt capture 0)
  | retried capture n rest hRetrying =>
      have hRest : Backing x { s with retrying := rest } := ⟨h.memory, h.stage, h.bytes⟩
      exact Or.inl (hRest.attempt capture n)
  | skipped capture n rest hFree hQueue => exact Or.inl ⟨h.memory, h.stage, h.bytes⟩
  | opened job rest hFree hQueue hFresh =>
      have hRest : Backing x { s with queue := rest } := ⟨h.memory, h.stage, h.bytes⟩
      exact Or.inl (hRest.advance fun _ => trivial)
  | handed job filter hHolder hLookup =>
      rw [(hOrdered.holds job _ hHolder).1] at hLookup
      have hMemory := h.memory
      rw [lookup_current hLookup] at hMemory
      exact Or.inl (h.advance fun _ => hMemory)
  | written job handed live captured hHolder hLookup hFrom hTo =>
      refine Or.inl (h.advance fun hRotation => ?_)
      have hHanded : Bits g handed.bits x := h.bytes _ _ hHolder hRotation
      exact hHanded.mono (BloomFilter.within_spec hFrom).2
  | synced job bytes hHolder | closed job bytes hHolder =>
      have hBytes : job.isRotation = true → Bits g bytes.bits x := h.bytes _ _ hHolder
      exact Or.inl (h.advance hBytes)
  | abandoned job message hHolder => exact absurd rfl ((hOrdered.holds job _ hHolder).2.2.2 message)
  | renamed job bytes hHolder =>
      refine Or.inl (h.advance fun hRotation => ?_)
      have hBytes : Bits g bytes.bits x := h.bytes _ _ hHolder hRotation
      show Bits g (blobBits g (some (blobOfBuckets bytes.buckets))) x
      rwa [blobBits_blob]
  | cleared job hHolder =>
      refine Or.inl ⟨h.memory, h.stage, ?_⟩
      intro job' phase hEq hRotation
      simp only at hEq
      split_ifs at hEq with hJob
      cases hEq
      exact h.bytes _ _ hHolder hRotation
  | promoted job hHolder =>
      have hBlob : Bits g (blobBits g s.disk.currentBlob) x :=
        h.bytes _ _ hHolder ((hOrdered.holds job _ hHolder).2.2.1 rfl)
      exact Or.inr ⟨h.memory, hBlob.mono (blobBits_promoteBlob _), rfl⟩
  | swapped hStage => exact absurd (hStage.symm.trans h.stage) (by simp)
  | crashed => exact absurd rfl hAlive

end Store

/-- A coordinator and the revoker it owns. -/
structure CoordinatorProcess (g : Geometry) where
  coordinator : Coordinator
  revoker : Store g
  deriving DecidableEq

namespace CoordinatorProcess

open Store (Bits)

inductive Action (g : Geometry) where
  | add (item : JsString)
  | requestRotation
  | core (action : Store.Action g)
  | swap

def start (g : Geometry) (id walDir : String) (numItems : Nat) (periodic : Bool) :
    CoordinatorProcess g where
  coordinator := Coordinator.init id walDir [] none
  revoker := Store.boot g numItems periodic {}

/-- `Coordinator.add` on its own filter, where no append fails: core is called once
the entry has its LSN, and not at all if the item is refused. -/
def add (p : CoordinatorProcess g) (item : JsString) :
    CoordinatorProcess g × Except RevokerError AddResult :=
  let applied := p.revoker.add [] item
  let added := p.coordinator.add none applied.2 none item
  match added.2 with
  | .error error => ({ p with coordinator := added.1 }, .error error)
  | .ok result => (⟨added.1, applied.1⟩, .ok result)

/-- One synchronous stretch. The swap of the filters and the hook that makes the
rotation canonical follow each other without any I/O of core between them. -/
def step (p : CoordinatorProcess g) : Action g → Option (CoordinatorProcess g)
  | .add item => some (p.add item).1
  | .requestRotation =>
      (p.revoker.step .requestRotation).map fun revoker => { p with revoker := revoker }
  | .core action =>
      if action.isProgress then
        (p.revoker.step action).map fun revoker => { p with revoker := revoker }
      else none
  | .swap =>
      (p.revoker.step .swap).map fun revoker =>
        ⟨(p.coordinator.onCoreRotation none none fun _ => false).1, revoker⟩

def Steps (g : Geometry) : CoordinatorProcess g → Action g → CoordinatorProcess g → Prop :=
  Transition.ofStep step

/-- A rotation of the filter begins. -/
def Action.begins : Action g → Bool
  | .core action => action.begins
  | _ => false

def getSnapshot (p : CoordinatorProcess g) (config : FilterConfig) : Except RevokerError SnapshotData :=
  p.coordinator.getSnapshot config p.revoker.manager.current p.revoker.disk

/-- A read from this LSN on returns the entry of `x`. -/
def Replays (p : CoordinatorProcess g) (fromLsn lsn : Nat) (x : JsString) : Prop :=
  ∃ events, p.coordinator.readSince fromLsn 0 = .ok events ∧
    ∃ event ∈ events, event.record = (lsn, .entry (toWellFormed x))

/-- The snapshot covers `x`: in one of its blobs, or by the entry of `x` in the events
after it, when it is taken and for as long as the coordinator can serve them. -/
def Covers (p : CoordinatorProcess g) (snapshot : SnapshotData) (lsn : Nat) (x : JsString) : Prop :=
  blobTests g snapshot.currentBlob x = true ∨ blobTests g snapshot.previousBlob x = true ∨
    snapshot.lastBackupLsn < lsn ∧ p.Replays snapshot.lastBackupLsn lsn x ∧
      ∀ more later, Transition.Run (Steps g) p more later →
        later.coordinator.canServeFrom snapshot.lastBackupLsn = true →
        later.Replays snapshot.lastBackupLsn lsn x

variable {p q : CoordinatorProcess g} {a : Action g} {as : List (Action g)}
  {history : List LogRecord} {x : JsString} {lsn n : Nat}

/-- What holds of every state of a run: the files and mutexes of core are in order,
and the coordinator keeps its history. -/
structure Consistent (p : CoordinatorProcess g) (history : List LogRecord) : Prop where
  ordered : p.revoker.Ordered
  keeps : ∃ segments, p.coordinator.Keeps segments history

theorem consistent_start (id walDir : String) (numItems : Nat) (periodic : Bool) :
    (start g id walDir numItems periodic).Consistent [] where
  ordered := Store.boot_ordered numItems periodic ⟨[], by simp, rfl⟩
  keeps := ⟨[], Coordinator.keeps_init id walDir⟩

theorem add_revoker (hSync : p.revoker.backups.bufferEnabled = false) (item : JsString) :
    Store.Called p.revoker (p.add item).1.revoker := by
  unfold add
  dsimp only
  split
  · exact .refused p.revoker.manager (Manager.SameFilters.refl _) rfl
  · exact Store.add_called hSync item

theorem add_coordinator (p : CoordinatorProcess g) (item : JsString) :
    (p.add item).1.coordinator = (p.coordinator.add none (p.revoker.add [] item).2 none item).1 := by
  unfold add
  dsimp only
  split <;> rfl

/-- A revocation leaves the meta state alone. -/
theorem metaState_add {segments : List Segment} (hKeeps : p.coordinator.Keeps segments history)
    (item : JsString) :
    (p.add item).1.coordinator.metaState = p.coordinator.metaState := by
  rw [add_coordinator]
  by_cases hItem : Acceptable item
  · rw [Coordinator.add_sent hKeeps.live hItem (Or.inr rfl)]
  · rw [Coordinator.add_refused hItem]

/-- Every step is one of core's, and only the swap touches the meta state. -/
theorem step_effect (hConsistent : p.Consistent history) (hStep : Steps g p a q) :
    ∃ b, Store.Effect p.revoker b q.revoker ∧ b.begins = a.begins ∧ b ≠ .crash ∧
      (p.revoker.rotating = some .swapping ∨ q.coordinator.metaState = p.coordinator.metaState) := by
  have hSync := hConsistent.ordered.sync
  obtain ⟨segments, hKeeps⟩ := hConsistent.keeps
  cases a with
  | add item =>
      cases hStep
      exact ⟨.add item [], .called (add_revoker hSync item) (Or.inl ⟨item, rfl⟩), rfl, by simp,
        Or.inr (metaState_add hKeeps item)⟩
  | requestRotation =>
      cases hStep
      exact ⟨.requestRotation, .requested, rfl, by simp, Or.inr rfl⟩
  | core action =>
      simp only [Steps, Transition.ofStep, step, Option.ite_none_right_eq_some] at hStep
      obtain ⟨hProgress, hMap⟩ := hStep
      obtain ⟨revoker, hCore, rfl⟩ := Option.map_eq_some_iff.mp hMap
      refine ⟨action, Store.step_effect hSync ⟨hCore, Store.Action.noFault_of_isProgress hProgress⟩,
        rfl, ?_, Or.inr rfl⟩
      rintro rfl
      cases hProgress
  | swap =>
      obtain ⟨revoker, hCore, rfl⟩ := Option.map_eq_some_iff.mp hStep
      have effect : Store.Effect p.revoker .swap revoker := Store.step_effect hSync ⟨hCore, trivial⟩
      refine ⟨.swap, effect, rfl, by simp, Or.inl ?_⟩
      cases effect with
      | called call isCall => rcases isCall with ⟨_, hEq⟩ | ⟨_, hEq⟩ <;> cases hEq
      | swapped hStage => exact hStage

/-- A step only adds to the history. -/
theorem Consistent.step (h : p.Consistent history) (hStep : Steps g p a q) :
    ∃ more, q.Consistent (history ++ more) := by
  obtain ⟨b, effect, -⟩ := step_effect h hStep
  have hOrdered := effect.ordered h.ordered
  obtain ⟨segments, hKeeps⟩ := h.keeps
  cases a with
  | add item =>
      cases hStep
      obtain ⟨segments', hNext⟩ := hKeeps.add (p.revoker.add [] item).2 item
      rw [← add_coordinator] at hNext
      exact ⟨_, hOrdered, segments', hNext⟩
  | requestRotation =>
      cases hStep
      exact ⟨[], hOrdered, segments, by rwa [List.append_nil]⟩
  | core action =>
      simp only [Steps, Transition.ofStep, CoordinatorProcess.step, Option.ite_none_right_eq_some] at hStep
      obtain ⟨revoker, hCore, rfl⟩ := Option.map_eq_some_iff.mp hStep.2
      exact ⟨[], hOrdered, segments, by rwa [List.append_nil]⟩
  | swap =>
      obtain ⟨revoker, hCore, rfl⟩ := Option.map_eq_some_iff.mp hStep
      obtain ⟨segments', hNext⟩ := hKeeps.rotation fun _ => false
      exact ⟨_, hOrdered, segments', hNext⟩

theorem Consistent.run (h : p.Consistent history) (run : Transition.Run (Steps g) p as q) :
    ∃ more, q.Consistent (history ++ more) := by
  induction run with
  | nil => exact ⟨[], by rwa [List.append_nil]⟩
  | snoc prior last ih =>
      obtain ⟨first, hPrior⟩ := ih
      obtain ⟨more, hLast⟩ := hPrior.step last
      exact ⟨first ++ more, by rwa [← List.append_assoc]⟩

theorem Consistent.replays (h : p.Consistent history) (hEntry : (lsn, .entry (toWellFormed x)) ∈ history)
    {fromLsn : Nat} (hLt : fromLsn < lsn) (hServed : p.coordinator.canServeFrom fromLsn = true) :
    p.Replays fromLsn lsn x := by
  obtain ⟨segments, hKeeps⟩ := h.keeps
  obtain ⟨events, hRead, hRecords⟩ := hKeeps.readSince hServed 0
  rw [page, if_neg (Nat.lt_irrefl 0)] at hRecords
  have hMem : (lsn, Payload.entry (toWellFormed x)) ∈ events.map CanonicalEvent.record := by
    rw [hRecords, List.mem_filter]
    exact ⟨hEntry, decide_eq_true hLt⟩
  exact ⟨events, hRead, List.mem_map.mp hMem⟩

/-- Where an item with this LSN may be after `n` rotations have begun since it was
added: until its rotation is made canonical, the entry is part of every tail. -/
def Placed (x : JsString) (lsn : Nat) : Nat → CoordinatorProcess g → Prop
  | 0, p => Bits g p.revoker.manager.window.current x ∧ p.revoker.rotating = none ∧
      p.coordinator.metaState.lastBackupLsn < lsn
  | 1, p => (p.revoker.Backing x ∧ p.coordinator.metaState.lastBackupLsn < lsn) ∨
      p.revoker.Promoted x ∨ p.revoker.InPrevious x
  | _ + 2, _ => True

theorem Placed.step (h : Placed x lsn n p) (hConsistent : p.Consistent history) (hStep : Steps g p a q) :
    Placed x lsn (if a.begins then n + 1 else n) q := by
  obtain ⟨b, effect, hBegins, hAlive, hMeta⟩ := step_effect hConsistent hStep
  have hOrdered := hConsistent.ordered
  rw [← hBegins]
  match n, h with
  | 0, ⟨hMemory, hFree, hTail⟩ =>
      have hStage : p.revoker.rotating ≠ some .swapping := by simp [hFree]
      have hMemory' := hMemory.mono (effect.current_le hOrdered hStage hAlive)
      have hTail' : q.coordinator.metaState.lastBackupLsn < lsn := by
        rwa [hMeta.resolve_left hStage]
      cases hRotate : b.begins
      · exact ⟨hMemory', effect.rotating_none hOrdered hFree hRotate, hTail'⟩
      · exact Or.inl ⟨effect.backing_of_begins hOrdered hRotate hMemory, hTail'⟩
  | 1, h =>
      cases hRotate : b.begins
      · rcases h with ⟨hBacking, hTail⟩ | h | h
        · have hStage : p.revoker.rotating ≠ some .swapping := by simp [hBacking.stage]
          rcases effect.backing hOrdered hBacking hAlive with hNext | hNext
          · refine Or.inl ⟨hNext, ?_⟩
            rwa [hMeta.resolve_left hStage]
          · exact Or.inr (Or.inl hNext)
        · exact Or.inr (effect.promoted_next hOrdered h)
        · refine Or.inr (Or.inr (effect.inPrevious hOrdered h ?_))
          rintro rfl
          cases hRotate
      · trivial
  | _ + 2, _ => cases b.begins <;> trivial

theorem Placed.run (h : Placed x lsn n p) (hConsistent : p.Consistent history)
    (run : Transition.Run (Steps g) p as q) : Placed x lsn (n + as.countP Action.begins) q :=
  (run.counted Action.begins
    (P := fun n p => (∃ history, p.Consistent history) ∧ Placed x lsn n p)
    (fun _ _ _ _ h hStep =>
      have ⟨_, hConsistent⟩ := h.1
      have ⟨_, hNext⟩ := hConsistent.step hStep
      ⟨⟨_, hNext⟩, h.2.step hConsistent hStep⟩)
    ⟨⟨_, hConsistent⟩, h⟩).2

/-- What a snapshot takes from the state of the coordinator. -/
theorem getSnapshot_spec {config : FilterConfig} {snapshot : SnapshotData}
    (hSnapshot : p.getSnapshot config = .ok snapshot) :
    snapshot.previousBlob = p.revoker.disk.previousBlob.getD [] ∧
      snapshot.lastBackupLsn = p.coordinator.metaState.lastBackupLsn := by
  unfold getSnapshot Coordinator.getSnapshot at hSnapshot
  split at hSnapshot
  · cases hSnapshot
  · cases hSnapshot
    exact ⟨rfl, rfl⟩

/-- Before the second rotation begins, the item is in a blob or in the tail. -/
theorem Placed.covers (h : Placed x lsn n p) (hFew : n < 2) (hConsistent : p.Consistent history)
    (hEntry : (lsn, .entry (toWellFormed x)) ∈ history)
    (hAddressable : BloomFilter.Addressable g.m g.k x) {config : FilterConfig} {snapshot : SnapshotData}
    (hSnapshot : p.getSnapshot config = .ok snapshot) : p.Covers snapshot lsn x := by
  obtain ⟨hPrevious, hBackup⟩ := getSnapshot_spec hSnapshot
  have hBlob : Bits g (blobBits g p.revoker.disk.previousBlob) x → p.Covers snapshot lsn x := by
    intro hBits
    rw [Covers, hPrevious]
    exact Or.inr (Or.inl (blobTests_getD hAddressable hBits))
  have hTail : p.coordinator.metaState.lastBackupLsn < lsn → p.Covers snapshot lsn x := by
    intro hLt
    rw [← hBackup] at hLt
    obtain ⟨segments, hKeeps⟩ := hConsistent.keeps
    refine Or.inr (Or.inr ⟨hLt, hConsistent.replays hEntry hLt ?_, ?_⟩)
    · rw [hBackup]
      exact hKeeps.canServeFrom
    · intro more later hLater hServed
      obtain ⟨added, hNext⟩ := hConsistent.run hLater
      exact hNext.replays (List.mem_append_left added hEntry) hLt hServed
  match n, h with
  | 0, ⟨_, _, hLt⟩ => exact hTail hLt
  | 1, .inl ⟨_, hLt⟩ => exact hTail hLt
  | 1, .inr (.inl h) => exact hBlob h.disk
  | 1, .inr (.inr h) => exact hBlob h.disk
  | _ + 2, _ => omega

theorem add_of_success (hConsistent : p.Consistent history) {result : AddResult}
    (hOk : (p.add x).2 = .ok result) (hSuccess : result.success = true) :
    Acceptable x ∧ (p.revoker.add [] x).2 = .ok () ∧ result.lsn = p.coordinator.canonical.nextLsn ∧
      (p.add x).1.revoker = (p.revoker.add [] x).1 := by
  obtain ⟨segments, hKeeps⟩ := hConsistent.keeps
  unfold add at hOk ⊢
  dsimp only at hOk ⊢
  split at hOk
  · cases hOk
  · rename_i answer hAnswer
    cases hOk
    obtain ⟨hItem, hApplied, hLsn⟩ := Coordinator.add_success hKeeps.live hAnswer hSuccess
    exact ⟨hItem, hApplied, hLsn, rfl⟩

/-- An item added while no rotation is in progress starts out in every tail. -/
theorem placed_of_add (hConsistent : p.Consistent history) (hFree : p.revoker.rotating = none)
    {result : AddResult} (hOk : (p.add x).2 = .ok result) (hSuccess : result.success = true) :
    Placed x result.lsn 0 (p.add x).1 ∧
      (p.add x).1.Consistent (history ++ [(result.lsn, .entry (toWellFormed x))]) := by
  obtain ⟨hItem, hApplied, hLsn, hRevoker⟩ := add_of_success hConsistent hOk hSuccess
  have hOrdered := hConsistent.ordered
  have call := add_revoker hOrdered.sync x
  obtain ⟨segments, hKeeps⟩ := hConsistent.keeps
  refine ⟨⟨?_, call.frame.2.2.2.2.2.2.1.trans hFree, ?_⟩, hOrdered.called call, ?_⟩
  · obtain ⟨-, manager, hInserted, hEq⟩ := Store.add_of_ok hOrdered.sync hApplied
    rw [hRevoker, hEq]
    simp only [hInserted.window hOrdered.current, Window.insert]
    exact covers_insert _ _ _
  · rw [metaState_add hKeeps, hLsn, hKeeps.next]
    exact Nat.lt_succ_of_le hKeeps.backup_le
  · obtain ⟨segments', hNext⟩ := hKeeps.add (p.revoker.add [] x).2 x
    rw [Coordinator.entryRecords, if_pos hItem, ← hLsn, ← add_coordinator] at hNext
    exact ⟨segments', hNext⟩

/-- As long as fewer than two rotations have begun since an `add` that succeeded where
`Safe` held, every snapshot covers its item. -/
def Complete (g : Geometry) (Safe : CoordinatorProcess g → JsString → Prop) : Prop :=
  ∀ id walDir numItems periodic before p x result after q config snapshot,
    Transition.Run (Steps g) (start g id walDir numItems periodic) before p →
    (p.add x).2 = .ok result → result.success = true → Safe p x →
    Transition.Run (Steps g) (p.add x).1 after q → after.countP Action.begins < 2 →
    q.getSnapshot config = .ok snapshot → q.Covers snapshot result.lsn x

/-- Snapshot and tail are complete for items whose bits can be addressed, when they are added
while no rotation is in progress; a periodic backup may be anywhere in its work. Of an item that
is added inside a rotation nothing is said: the bytes on their way to the disk may miss it, and
where they do not, the next rotation alone drops it. -/
theorem complete_between_rotations : Complete g fun p x =>
    p.revoker.rotating = none ∧ BloomFilter.Addressable g.m g.k x := by
  intro id walDir numItems periodic before p x result after q config snapshot hBefore hOk hSuccess hSafe
    hAfter hFew hSnapshot
  obtain ⟨history, hConsistent⟩ := (consistent_start id walDir numItems periodic).run hBefore
  obtain ⟨hPlaced, hAdded⟩ := placed_of_add hConsistent hSafe.1 hOk hSuccess
  obtain ⟨more, hLater⟩ := hAdded.run hAfter
  have hEntry : (result.lsn, Payload.entry (toWellFormed x)) ∈
      ([] ++ history ++ [(result.lsn, .entry (toWellFormed x))]) ++ more := by simp
  exact (hPlaced.run hAdded hAfter).covers (by omega) hLater hEntry hSafe.2 hSnapshot

/-- An item added before a rotation, in the snapshot taken after it. -/
theorem complete_between_rotations_one_bucket :
    ∃ q : CoordinatorProcess .oneBucket, ∃ snapshot,
      Transition.exec step ((start .oneBucket "r" "canonical" 1 true).add [97]).1
        [.requestRotation, .core .rotate, .core .acquire, .core (.settle (.ok ())),
          .core (.written (.add (.create _) [97])), .core (.settle (.ok ())), .core (.settle (.ok ())),
          .core (.settle (.ok ())), .core (.settle (.ok ())), .core (.promote (.ok ())), .swap] = some q ∧
      q.getSnapshot ⟨1, 1 / 10, 60⟩ = .ok snapshot ∧ q.Covers snapshot 1 [97] := by
  refine ⟨_, _, rfl, rfl, ?_⟩
  exact complete_between_rotations "r" "canonical" 1 true [] _ [97] ⟨true, "Item revoked", 1⟩
    [.requestRotation, .core .rotate, .core .acquire, .core (.settle (.ok ())),
      .core (.written (.add (.create _) [97])), .core (.settle (.ok ())), .core (.settle (.ok ())),
      .core (.settle (.ok ())), .core (.settle (.ok ())), .core (.promote (.ok ())), .swap]
    _ ⟨1, 1 / 10, 60⟩ _ (Transition.Run.nil _) (by decide) rfl
    ⟨rfl, SizedFilter.addressable (by decide) _⟩ (Transition.run_of_exec rfl) (by decide) rfl

/-- An item added after a rotation has handed its filter over: the bytes miss it, and
the marker that follows puts its entry before the snapshot's tail. -/
theorem not_complete : ¬ Complete .oneBucket fun _ _ => True := by
  intro h
  have hCovers := h "r" "canonical" 1 true
    [.requestRotation, .core .rotate, .core .acquire, .core (.settle (.ok ()))] _ [97]
    ⟨true, "Item revoked", 1⟩
    [.core (.written (.create _)), .core (.settle (.ok ())), .core (.settle (.ok ())),
      .core (.settle (.ok ())), .core (.settle (.ok ())), .core (.promote (.ok ())), .swap]
    _ ⟨1, 1 / 10, 60⟩ _ (Transition.run_of_exec rfl) (by decide) rfl trivial (Transition.run_of_exec rfl)
    (by decide) rfl
  rcases hCovers with hCurrent | hPrevious | ⟨hTail, -⟩
  · exact absurd hCurrent (by decide)
  · exact absurd hPrevious (by decide)
  · exact absurd hTail (by decide)

end CoordinatorProcess

end TokenRevoker
