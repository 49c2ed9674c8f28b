import TokenRevoker.Core.Store

/-! Which items survive a crash of the standalone store. An item that was added
while no rotation ran and no backup had handed its bytes over yet stays in the
log or in a blob until the second rotation after it. An item added in between
reaches neither the bytes being written nor, once the log is truncated, the disk. -/
namespace TokenRevoker

open Text SignatureFilter

variable {g : Geometry}

/-- The bits of a set of buckets on disk that would be restored. A blob of another size has
none, as it is ignored. -/
def blobBits (g : Geometry) (file : Option Bytes) : Set Nat :=
  Manager.slotBits (restoreFilterFromFile g file)

theorem blobBits_blob (filter : SizedFilter g) :
    blobBits g (some (blobOfBuckets filter.buckets)) = filter.bits := by
  rw [blobBits, restoreFilterFromFile_blob]
  rfl

theorem blobBits_subset_restored (disk : Disk) :
    blobBits g disk.currentBlob ⊆ (restoredWindow g disk).current :=
  le_foldl_insert _ _

/-- Lines appended to a log of accepted items are more items to restore. -/
theorem restored_current_append_lines {disk : Disk} {items : List JsString}
    (hItems : ∀ x ∈ items, Acceptable x)
    (hLog : ∃ items, (∀ x ∈ items, Acceptable x) ∧ disk.temp = encodeLines items) :
    (restoredWindow g { disk with temp := disk.temp ++ encodeLines items }).current =
      (items.map toWellFormed).foldl (SignatureFilter.insert (SizedFilter.signature g))
        (restoredWindow g disk).current := by
  obtain ⟨logged, hLogged, hTemp⟩ := hLog
  have hAll : ∀ x ∈ logged ++ items, Acceptable x := by
    intro x hx
    rcases List.mem_append.mp hx with hx | hx
    · exact hLogged x hx
    · exact hItems x hx
  simp only [restoredWindow, hTemp, ← encodeLines_append, tempItems_encodeLines hAll,
    tempItems_encodeLines hLogged, List.map_append, List.foldl_append]

/-- A line appended to a log of accepted items is one more item to restore. -/
theorem restored_current_append {disk : Disk} {item : JsString} (hItem : Acceptable item)
    (hLog : ∃ items, (∀ x ∈ items, Acceptable x) ∧ disk.temp = encodeLines items) :
    (restoredWindow g { disk with temp := disk.temp ++ encodeLines [item] }).current =
      SignatureFilter.insert (SizedFilter.signature g) (restoredWindow g disk).current
        (toWellFormed item) := by
  have hItems : ∀ x ∈ [item], Acceptable x := by simpa using hItem
  simpa using restored_current_append_lines hItems hLog

namespace Store

/-- The bits of `x` are set. -/
abbrev Bits (g : Geometry) (bits : Set Nat) (x : JsString) : Prop :=
  SignatureFilter.Covers (SizedFilter.signature g) bits x

/-- Whatever the suspended backup still writes has the bits of `x`. Before the bytes are handed
over it has nothing to carry: they are taken from the filter then. -/
def Phase.Carries (x : JsString) (disk : Disk) : Phase g → Prop
  | .opening | .closing (.error _) => True
  | .writing bytes | .syncing bytes | .closing (.ok bytes) | .replacing bytes => Bits g bytes.bits x
  | .truncating | .promoting => Bits g (blobBits g disk.currentBlob) x

/-- `x` is in the current generation, in memory and on disk, and the running backup will not
lose it. All of it is needed: the memory for the next backup, the files for a crash now. -/
structure InCurrent (x : JsString) (s : Store g) : Prop where
  memory : Bits g s.manager.window.current x
  disk : Bits g (restoredWindow g s.disk).current x
  stage : s.rotating ≠ some .swapping
  bytes : ∀ job phase, s.holder = some (job, phase) → Phase.Carries x s.disk phase

/-- The blob with `x` is the previous one already, the filter is not yet. A crash here brings
the item back in the previous filter. -/
structure Promoted (x : JsString) (s : Store g) : Prop where
  memory : Bits g s.manager.window.current x
  disk : Bits g (blobBits g s.disk.previousBlob) x
  stage : s.rotating = some .swapping

/-- `x` is in the previous generation, in memory and on disk. The next rotation drops it from
both, which is as it should be. -/
structure InPrevious (x : JsString) (s : Store g) : Prop where
  memory : Bits g s.manager.window.previous x
  disk : Bits g (blobBits g s.disk.previousBlob) x
  stage : s.rotating = none

variable {s t : Store g} {a : Action g} {x : JsString}

theorem Called.window_le (h : Called s t) (hCurrent : s.manager.current.isSome)
    (hLog : ∃ items, (∀ x ∈ items, Acceptable x) ∧ s.disk.temp = encodeLines items) :
    s.manager.window.current ⊆ t.manager.window.current ∧
      t.manager.window.previous = s.manager.window.previous ∧
      (restoredWindow g s.disk).current ⊆ (restoredWindow g t.disk).current := by
  cases h with
  | refused manager filters eq =>
      subst eq
      rw [filters.window]
      exact ⟨subset_rfl, rfl, subset_rfl⟩
  | entered item manager accepted filters eq =>
      subst eq
      rw [filters.window hCurrent]
      refine ⟨le_insert _ _ _, rfl, ?_⟩
      rw [restored_current_append accepted hLog]
      exact le_insert _ _ _

theorem boot_window (numItems : Nat) (periodic : Bool) (disk : Disk) :
    (boot g numItems periodic disk).manager.window = restoredWindow g disk :=
  Manager.restored_window numItems disk

theorem lookup_current {filter : SizedFilter g} (h : s.lookup s.filter = some filter) :
    s.manager.window.current = filter.bits := by
  rw [lookup, if_pos rfl] at h
  simp only [Manager.window, h, Manager.slotBits]

theorem Phase.Carries.mono {phase : Phase g} {disk disk' : Disk} (h : Phase.Carries x disk phase)
    (hBlob : disk'.currentBlob = disk.currentBlob) : Phase.Carries x disk' phase := by
  cases phase with
  | closing outcome => cases outcome <;> exact h
  | truncating | promoting =>
      simp only [Carries, hBlob] at h ⊢
      exact h
  | opening | writing | syncing | replacing => exact h

/-- The promotion keeps the bits of the current blob, in its new place. -/
theorem blobBits_promoteBlob (disk : Disk) :
    blobBits g disk.currentBlob ⊆ blobBits g (promoteBlob disk).previousBlob := by
  unfold promoteBlob
  split
  · rename_i blob hSome
    rw [hSome]
  · rename_i hNone
    simp [hNone, blobBits, restoreFilterFromFile, Manager.slotBits]

theorem InCurrent.advance (h : InCurrent x s) {job : Job} {phase : Phase g}
    (hCarries : Phase.Carries x s.disk phase) : InCurrent x { s with holder := some (job, phase) } := by
  refine ⟨h.memory, h.disk, h.stage, ?_⟩
  intro _ _ hEq
  cases hEq
  exact hCarries

theorem InCurrent.attempt (h : InCurrent x s) (capture : Capture) (n : Nat) :
    InCurrent x (s.attempt capture n) := by
  unfold Store.attempt
  split_ifs
  · exact ⟨h.memory, h.disk, h.stage, h.bytes⟩
  · exact h

/-- Short of the promotion of its blob, an item stays in the current generation. -/
theorem Effect.inCurrent (effect : Effect s a t) (hOrdered : Ordered s) (h : InCurrent x s) :
    InCurrent x t ∨ Promoted x t := by
  cases effect with
  | called call isCall =>
      obtain ⟨hMemory, -, hDisk⟩ := call.window_le hOrdered.current hOrdered.log
      obtain ⟨-, -, -, -, -, hHolder, hRotating, hBlob, -⟩ := call.frame
      refine Or.inl ⟨h.memory.mono hMemory, h.disk.mono hDisk, hRotating ▸ h.stage, ?_⟩
      intro job phase hPhase
      rw [hHolder] at hPhase
      exact (h.bytes job phase hPhase).mono hBlob
  | requested => exact Or.inl ⟨h.memory, h.disk, h.stage, h.bytes⟩
  | began hFree => exact Or.inl ⟨h.memory, h.disk, by simp, h.bytes⟩
  | ticked capture hInterval => exact Or.inl (h.attempt capture 0)
  | retried capture n rest hRetrying =>
      have hRest : InCurrent x { s with retrying := rest } := ⟨h.memory, h.disk, h.stage, h.bytes⟩
      exact Or.inl (hRest.attempt capture n)
  | skipped capture n rest hFree hQueue => exact Or.inl ⟨h.memory, h.disk, h.stage, h.bytes⟩
  | opened job rest hFree hQueue hFresh =>
      have hRest : InCurrent x { s with queue := rest } := ⟨h.memory, h.disk, h.stage, h.bytes⟩
      exact Or.inl (hRest.advance trivial)
  | handed job filter hHolder hLookup =>
      rw [(hOrdered.holds job _ hHolder).1] at hLookup
      have hMemory := h.memory
      rw [lookup_current hLookup] at hMemory
      exact Or.inl (h.advance hMemory)
  | written job handed live captured hHolder hLookup hFrom hTo =>
      have hHanded : Bits g handed.bits x := h.bytes _ _ hHolder
      exact Or.inl (h.advance (hHanded.mono (BloomFilter.within_spec hFrom).2))
  | synced job bytes hHolder =>
      have hBytes : Bits g bytes.bits x := h.bytes _ _ hHolder
      exact Or.inl (h.advance hBytes)
  | closed job bytes hHolder =>
      have hBytes : Bits g bytes.bits x := h.bytes _ _ hHolder
      exact Or.inl (h.advance hBytes)
  | abandoned job message hHolder => exact absurd rfl ((hOrdered.holds job _ hHolder).2.2.2 message)
  | renamed job bytes hHolder =>
      have hBytes : Bits g bytes.bits x := h.bytes _ _ hHolder
      have hBlob : Bits g (blobBits g (some (blobOfBuckets bytes.buckets))) x := by
        rwa [blobBits_blob]
      refine Or.inl ⟨h.memory, hBlob.mono (blobBits_subset_restored
        { s.disk with currentBlob := some (blobOfBuckets bytes.buckets) }), h.stage, ?_⟩
      intro _ _ hEq
      cases hEq
      exact hBlob
  | cleared job hHolder =>
      have hBlob : Bits g (blobBits g s.disk.currentBlob) x := h.bytes _ _ hHolder
      refine Or.inl ⟨h.memory, hBlob.mono (blobBits_subset_restored { s.disk with temp := [] }),
        h.stage, ?_⟩
      intro job' phase hEq
      simp only at hEq
      split_ifs at hEq
      cases hEq
      exact hBlob
  | promoted job hHolder =>
      have hBlob : Bits g (blobBits g s.disk.currentBlob) x := h.bytes _ _ hHolder
      exact Or.inr ⟨h.memory, hBlob.mono (blobBits_promoteBlob s.disk), rfl⟩
  | swapped hStage => exact absurd hStage h.stage
  | crashed =>
      refine Or.inl ⟨?_, h.disk, by simp [boot], by simp [boot]⟩
      rw [boot_window]
      exact h.disk

/-- Between the promotion of the blob and the swap only calls and a crash matter. -/
theorem Effect.promoted_next_of_idle (effect : Effect s a t) (hCurrent : s.manager.current.isSome)
    (hLog : ∃ items, (∀ x ∈ items, Acceptable x) ∧ s.disk.temp = encodeLines items)
    (hIdle : ∀ job phase, s.holder ≠ some (job, phase)) (h : Promoted x s) :
    Promoted x t ∨ InPrevious x t := by
  cases effect with
  | called call isCall =>
      obtain ⟨hMemory, -, -⟩ := call.window_le hCurrent hLog
      obtain ⟨-, -, -, -, -, -, hRotating, -, hBlob, -⟩ := call.frame
      exact Or.inl ⟨h.memory.mono hMemory, hBlob ▸ h.disk, hRotating.trans h.stage⟩
  | requested => exact Or.inl ⟨h.memory, h.disk, h.stage⟩
  | began hFree => exact absurd (hFree.symm.trans h.stage) (by simp)
  | ticked capture hInterval =>
      unfold Store.attempt
      split_ifs <;> exact Or.inl ⟨h.memory, h.disk, h.stage⟩
  | retried capture n rest hRetrying =>
      unfold Store.attempt
      split_ifs <;> exact Or.inl ⟨h.memory, h.disk, h.stage⟩
  | skipped capture n rest hFree hQueue => exact Or.inl ⟨h.memory, h.disk, h.stage⟩
  | opened job rest hFree hQueue hFresh => exact Or.inl ⟨h.memory, h.disk, h.stage⟩
  | handed job filter hHolder | synced job bytes hHolder | closed job bytes hHolder
  | abandoned job message hHolder | renamed job bytes hHolder | cleared job hHolder
  | promoted job hHolder => exact absurd hHolder (hIdle _ _)
  | written job handed live captured hHolder => exact absurd hHolder (hIdle _ _)
  | swapped hStage =>
      refine Or.inr ⟨?_, h.disk, rfl⟩
      change Bits g s.manager.swap.window.previous x
      rw [Manager.swap_window]
      exact h.memory
  | crashed =>
      refine Or.inr ⟨?_, h.disk, rfl⟩
      rw [boot_window]
      exact h.disk

theorem Effect.promoted_next (effect : Effect s a t) (hOrdered : Ordered s) (h : Promoted x s) :
    Promoted x t ∨ InPrevious x t :=
  effect.promoted_next_of_idle hOrdered.current hOrdered.log
    (fun job phase hHolder => (hOrdered.holds job phase hHolder).2.1 h.stage) h

/-- An item of the previous generation stays there until a rotation begins. -/
theorem Effect.inPrevious (effect : Effect s a t) (hOrdered : Ordered s) (h : InPrevious x s)
    (hAction : ∀ _ : a = .rotate, False) : InPrevious x t := by
  have hNone := hOrdered.no_rotation (by simp [h.stage])
  cases effect with
  | called call isCall =>
      obtain ⟨-, hPrevious, -⟩ := call.window_le hOrdered.current hOrdered.log
      obtain ⟨-, -, -, -, -, -, hRotating, -, hBlob, -⟩ := call.frame
      exact ⟨hPrevious ▸ h.memory, hBlob ▸ h.disk, hRotating.trans h.stage⟩
  | requested => exact ⟨h.memory, h.disk, h.stage⟩
  | began hFree => exact (hAction rfl).elim
  | ticked capture hInterval =>
      unfold Store.attempt
      split_ifs <;> exact ⟨h.memory, h.disk, h.stage⟩
  | retried capture n rest hRetrying =>
      unfold Store.attempt
      split_ifs <;> exact ⟨h.memory, h.disk, h.stage⟩
  | skipped capture n rest hFree hQueue => exact ⟨h.memory, h.disk, h.stage⟩
  | opened job rest hFree hQueue hFresh => exact ⟨h.memory, h.disk, h.stage⟩
  | handed job filter hHolder => exact ⟨h.memory, h.disk, h.stage⟩
  | written job handed live captured hHolder => exact ⟨h.memory, h.disk, h.stage⟩
  | synced job bytes hHolder => exact ⟨h.memory, h.disk, h.stage⟩
  | closed job bytes hHolder => exact ⟨h.memory, h.disk, h.stage⟩
  | abandoned job message hHolder => exact absurd rfl ((hOrdered.holds job _ hHolder).2.2.2 message)
  | renamed job bytes hHolder => exact ⟨h.memory, h.disk, h.stage⟩
  | cleared job hHolder => exact ⟨h.memory, h.disk, h.stage⟩
  | promoted job hHolder =>
      have hJob := (hOrdered.holds job _ hHolder).2.2.1 rfl
      rw [hNone.2 job _ hHolder] at hJob
      cases hJob
  | swapped hStage => exact absurd (hStage.symm.trans h.stage) (by simp)
  | crashed =>
      refine ⟨?_, h.disk, rfl⟩
      rw [boot_window]
      exact h.disk

/-- Where an item may be after `n` rotations have begun since it was added. From the second
rotation on nothing is promised any more. -/
def Held (x : JsString) : Nat → Store g → Prop
  | 0, s => InCurrent x s ∧ s.rotating = none
  | 1, s => InCurrent x s ∨ Promoted x s ∨ InPrevious x s
  | _ + 2, _ => True

/-- A rotation begins: it has the manager's mutex and enters `backupRotate`. -/
def Action.begins : Action g → Bool
  | .rotate => true
  | _ => false

/-- A rotation in progress leaves that state only by its swap or by a crash. -/
theorem Effect.rotating_none (effect : Effect s a t) (hOrdered : Ordered s) (h : s.rotating = none)
    (hAction : a.begins = false) : t.rotating = none := by
  have hNone := hOrdered.no_rotation (by simp [h])
  cases effect with
  | called call isCall => exact call.frame.2.2.2.2.2.2.1.trans h
  | began hFree => cases hAction
  | ticked | retried =>
      unfold Store.attempt
      split_ifs <;> exact h
  | abandoned job message hHolder => exact absurd rfl ((hOrdered.holds job _ hHolder).2.2.2 message)
  | promoted job hHolder =>
      have hJob := (hOrdered.holds job _ hHolder).2.2.1 rfl
      rw [hNone.2 job _ hHolder] at hJob
      cases hJob
  | requested | skipped | opened | handed | written | synced | closed | renamed | cleared => exact h
  | swapped | crashed => rfl

theorem Effect.held (effect : Effect s a t) (hOrdered : Ordered s) {n : Nat} (h : Held x n s) :
    Held x (if a.begins then n + 1 else n) t := by
  match n, h with
  | 0, ⟨hCurrent, hFree⟩ =>
      have hStage : s.rotating ≠ some .backingUp := by simp [hFree]
      rcases effect.inCurrent hOrdered hCurrent with hNext | hNext
      · cases hBegins : a.begins
        · exact ⟨hNext, effect.rotating_none hOrdered hFree hBegins⟩
        · exact Or.inl hNext
      · cases hBegins : a.begins
        · have := effect.rotating_none hOrdered hFree hBegins
          rw [hNext.stage] at this
          cases this
        · exact Or.inr (Or.inl hNext)
  | 1, h =>
      cases hBegins : a.begins
      · rcases h with h | h | h
        · rcases effect.inCurrent hOrdered h with hNext | hNext
          · exact Or.inl hNext
          · exact Or.inr (Or.inl hNext)
        · exact Or.inr (effect.promoted_next hOrdered h)
        · refine Or.inr (Or.inr (effect.inPrevious hOrdered h ?_))
          rintro rfl
          cases hBegins
      · trivial
  | _ + 2, _ => cases a.begins <;> trivial

theorem run_held {as : List (Action g)} (run : Transition.Run (Steps g) s as t) (hOrdered : Ordered s)
    {n : Nat} (h : Held x n s) : Held x (n + as.countP Action.begins) t :=
  (run.counted Action.begins (P := fun n s => Ordered s ∧ Held x n s)
    (fun _ _ _ _ h hStep =>
      have effect := step_effect h.1.sync hStep
      ⟨effect.ordered h.1, effect.held h.1 h.2⟩)
    ⟨hOrdered, h⟩).2

/-- Before the second rotation begins, the files cover the item. -/
theorem Held.restored {n : Nat} (h : Held x n s) (hFew : n < 2) :
    (restoredWindow g s.disk).Covers (SizedFilter.signature g) x := by
  match n, h with
  | 0, h => exact Or.inl h.1.disk
  | 1, .inl h => exact Or.inl h.disk
  | 1, .inr (.inl h) => exact Or.inr h.disk
  | 1, .inr (.inr h) => exact Or.inr h.disk
  | _ + 2, _ => omega

/-- No rotation is in progress, and no backup is past handing its bytes over without having
truncated the log. At such a moment the line in the log is safe: the next truncation comes
behind a blob that has the item. -/
def Quiet (s : Store g) : Prop :=
  s.rotating = none ∧ ∀ job phase, s.holder = some (job, phase) → phase = .opening

/-- An item entered at a quiet moment is in the current generation, in memory and on disk. -/
theorem InCurrent.entered (hOrdered : Ordered s) (hQuiet : s.Quiet) (hWellFormed : IsWellFormed x)
    (hItem : Acceptable x) {manager : Manager g} (hInserted : s.manager.Inserted manager x) :
    InCurrent x { s with
      manager := manager
      disk := { s.disk with temp := s.disk.temp ++ encodeLines [x] } } := by
  refine ⟨?_, ?_, by simp [hQuiet.1], ?_⟩
  · simp only [hInserted.window hOrdered.current, Window.insert]
    exact covers_insert _ _ _
  · simp only [restored_current_append hItem hOrdered.log]
    rw [show toWellFormed x = x from hWellFormed]
    exact covers_insert _ _ _
  · intro job phase hHolder
    rw [hQuiet.2 job phase hHolder]
    trivial

/-- An item added at a quiet moment starts out safe. -/
theorem held_of_add (hOrdered : Ordered s) (hQuiet : s.Quiet) (hWellFormed : IsWellFormed x)
    (hOk : (s.add [] x).2 = .ok ()) : Held x 0 (s.add [] x).1 := by
  obtain ⟨hItem, manager, hInserted, hEq⟩ := add_of_ok hOrdered.sync hOk
  rw [hEq]
  exact ⟨.entered hOrdered hQuiet hWellFormed hItem hInserted, hQuiet.1⟩

/-- Every item whose `add` returned normally where `Safe` held is reported after a
restart on the files of any later state, as long as fewer than two rotations have
begun since. -/
def CrashSafe (g : Geometry) (Safe : Store g → JsString → Prop) : Prop :=
  ∀ numItems periodic before s x s' after t,
    Transition.Run (Steps g) (boot g numItems periodic {}) before s →
    Steps g s (.add x []) s' → (s.add [] x).2 = .ok () → Safe s x →
    Transition.Run (Steps g) s' after t → after.countP Action.begins < 2 →
    ((boot g numItems periodic t.disk).manager.has x).2 = .ok true

/-- The store is crash safe for well-formed items whose bits can be addressed, when they are
added at a quiet moment. No operation on a file fails in these runs, and a crash leaves the
files as the last of them has left them: renames that a power loss takes back are not part of
it. -/
theorem crashSafe_quiet : CrashSafe g fun s x =>
    s.Quiet ∧ IsWellFormed x ∧ BloomFilter.Addressable g.m g.k x := by
  intro numItems periodic before s x s' after t hBefore hStep hOk hSafe hAfter hFew
  obtain ⟨hQuiet, hWellFormed, hAddressable⟩ := hSafe
  have hOrdered : Ordered s := run_ordered hBefore (boot_ordered numItems periodic ⟨[], by simp, rfl⟩)
  have hItem := (add_of_ok hOrdered.sync hOk).1
  have hOrdered' := hStep.ordered hOrdered
  cases hStep.1
  have hHeld := run_held hAfter hOrdered' (held_of_add hOrdered hQuiet hWellFormed hOk)
  have hCovers := hHeld.restored (by omega)
  rw [Manager.has_eq_ok hItem.not_blank, (Manager.covers_iff hAddressable).mpr]
  rw [boot_window]
  exact hCovers

/-- An item added before a periodic backup begins, and read back after a crash
between the truncation of the log and the next step. -/
theorem crashSafe_quiet_one_bucket :
    ∃ s t : Store .oneBucket,
      Transition.exec step (boot .oneBucket 1 true {}) [.add [97] []] = some s ∧
      Transition.exec step s [.tick, .acquire, .settle (.ok ()), .written (.add (.create _) [97]),
        .settle (.ok ()), .settle (.ok ()), .settle (.ok ()), .settle (.ok ())] = some t ∧
      ((boot .oneBucket 1 true t.disk).manager.has [97]).2 = .ok true := by
  refine ⟨_, _, rfl, rfl, ?_⟩
  exact crashSafe_quiet 1 true [] _ [97] _ [.tick, .acquire, .settle (.ok ()),
      .written (.add (.create _) [97]), .settle (.ok ()), .settle (.ok ()), .settle (.ok ()),
      .settle (.ok ())] _ (Transition.Run.nil _)
    ⟨rfl, rfl⟩ (by decide)
    ⟨⟨rfl, by intro _ _ h; cases h⟩, by decide, SizedFilter.addressable (by decide) _⟩
    (Transition.Run.restrict (Transition.run_of_exec rfl) (by simp [Action.NoFault])) (by decide)

/-- An item added while the backup of an empty filter is being written is neither
in its bytes nor, after the truncation, in the log. -/
theorem not_crashSafe : ¬ CrashSafe .oneBucket fun _ _ => True := by
  intro h
  have hHas := h 1 true [.tick, .acquire, .settle (.ok ())] _ [97] _
    [.written (.create _), .settle (.ok ()), .settle (.ok ()), .settle (.ok ()), .settle (.ok ())] _
    (Transition.Run.restrict (Transition.run_of_exec rfl) (by simp [Action.NoFault]))
    ⟨rfl, rfl⟩ (by decide) trivial
    (Transition.Run.restrict (Transition.run_of_exec rfl) (by simp [Action.NoFault])) (by decide)
  exact absurd hHas (by decide)

end Store

end TokenRevoker
