import TokenRevoker.Core.CrashSafety
import TokenRevoker.Core.Reset

/-! Which items a reset keeps. The files have an item once its line has reached the log,
as long as no backup that read its filter before truncates that log afterwards. A backup
of a filter that a reset has replaced is such a backup, since its generation is still the
current one, and an item in the write buffer has no line yet. -/
namespace TokenRevoker

open Text SignatureFilter Store

variable {g : Geometry}

theorem Store.resetAndRestore_window (s : Store g) :
    s.resetAndRestore.manager.window = restoredWindow g s.disk := by
  rw [← Manager.restored_window s.manager.numItems s.disk]
  rfl

/-- In either mode a call leaves alone what the previous generation consists of. -/
theorem Store.Received.frame {s t : Store g} (h : Received s t) (hCurrent : s.manager.current.isSome)
    (hLog : ∃ items, (∀ x ∈ items, Acceptable x) ∧ s.disk.temp = encodeLines items) :
    s.manager.window.current ⊆ t.manager.window.current ∧
      t.manager.window.previous = s.manager.window.previous ∧
      t.disk.previousBlob = s.disk.previousBlob ∧ t.rotating = s.rotating := by
  cases h with
  | called call =>
      obtain ⟨hMemory, hPrevious, -⟩ := call.window_le hCurrent hLog
      obtain ⟨-, -, -, -, -, -, hRotating, -, hBlob, -⟩ := call.frame
      exact ⟨hMemory, hPrevious, hBlob, hRotating⟩
  | buffered item manager accepted filters eq =>
      subst eq
      rw [filters.window hCurrent]
      exact ⟨le_insert _ _ _, rfl, rfl, rfl⟩

namespace ResetStore

/-- The item waits for its line, in the buffer or in an append, and no append of it that
has not settled has reached the log. -/
def Unsaved (x : JsString) (s : ResetStore g) : Prop :=
  (x ∈ s.store.backups.writeBuffer ∨ ∃ append ∈ s.flushing, append.written = false ∧ x ∈ append.items) ∧
    ∀ append ∈ s.flushing, append.written = true → x ∉ append.items

/-- Whatever a backup is writing has the bits of `x`. Where a backup has no bytes yet there is
nothing to say. -/
def Clear (x : JsString) (s : Store g) : Prop :=
  ∀ job phase, s.holder = some (job, phase) → Phase.Carries x s.disk phase

/-- The files of the current generation have `x`, and a backup will not lose it. In the blob or
in the log, but not in the log alone where a truncation is next. -/
def Stored (x : JsString) (s : Store g) : Prop :=
  Bits g (restoredWindow g s.disk).current x ∧ Clear x s

/-- The current filter has an item that waits for its line, and no rotation has promoted
the blob of that filter yet. -/
def AtRisk (x : JsString) (s : ResetStore g) : Prop :=
  Unsaved x s ∧ Bits g s.store.manager.window.current x ∧ s.store.rotating ≠ some .swapping

/-- The add of an item at a moment from which on it can be kept. No rotation is in progress, and
no backup could lose its line; nor, in buffered mode, does an append settle that wrote the same
item before. -/
def Safe (s : ResetStore g) (x : JsString) : Prop :=
  s.store.rotating = none ∧ IsWellFormed x ∧ BloomFilter.Addressable g.m g.k x ∧
    if s.store.backups.bufferEnabled = true then
      (∀ append ∈ s.flushing, append.written = true → x ∉ append.items) ∨ Stored x s.store
    else Clear x s.store

/-- A step that lets go of no line of `x` and of no item before its line. A `resetAndClearData`
never is one. -/
def Careful (x : JsString) (s : ResetStore g) : Action g → Prop
  | .store (.settle _) => ∀ job filter, s.store.holder = some (job, .opening) →
      s.lookup job.filter = some filter → Bits g s.store.manager.window.current x →
      Unsaved x s ∨ Bits g filter.bits x
  | .store .crash | .reset => AtRisk x s → Bits g (restoredWindow g s.store.disk).current x
  | .append index => ∀ append, s.flushing[index]? = some append → x ∈ append.items →
      AtRisk x s → Clear x s.store
  | .settle index _ => AtRisk x s →
      (∃ append ∈ s.flushing.eraseIdx index, x ∈ append.items) ∨ Stored x s.store
  | .resetAndClearData => False
  | _ => True

/-- `x` is in the current generation: the filter has it, and it waits for its line or is
stored. A rotation writes nothing without it. -/
structure InCurrent (x : JsString) (s : ResetStore g) : Prop where
  memory : Bits g s.store.manager.window.current x
  stage : s.store.rotating ≠ some .swapping
  saved : Unsaved x s ∨ Stored x s.store
  rotation : ∀ job phase, s.store.holder = some (job, phase) → job.isRotation = true →
    Phase.Carries x s.store.disk phase

/-- `x` is in the previous generation, in memory and on disk. -/
structure InPrevious (x : JsString) (s : Store g) : Prop where
  memory : Bits g s.manager.window.previous x
  disk : Bits g (blobBits g s.disk.previousBlob) x
  stage : s.rotating ≠ some .swapping

variable {s t : ResetStore g} {a : Action g} {x : JsString}

theorem window_boot (numItems : Nat) (periodic bufferEnabled : Bool) (maxBufferSize : Nat) (disk : Disk) :
    (boot g numItems periodic bufferEnabled maxBufferSize disk).store.manager.window =
      restoredWindow g disk :=
  Manager.restored_window numItems disk

theorem Unsaved.congr (h : Unsaved x s) (hBuffer : t.store.backups.writeBuffer = s.store.backups.writeBuffer)
    (hFlushing : t.flushing = s.flushing) : Unsaved x t := by
  unfold Unsaved
  rw [hBuffer, hFlushing]
  exact h

theorem InCurrent.atRisk (h : InCurrent x s) (hUnsaved : Unsaved x s) : AtRisk x s :=
  ⟨hUnsaved, h.memory, h.stage⟩

/-- What is not only waiting, or is at risk where the step is careful, is on disk. -/
theorem InCurrent.restored (h : InCurrent x s)
    (hCareful : AtRisk x s → Bits g (restoredWindow g s.store.disk).current x) :
    Bits g (restoredWindow g s.store.disk).current x := by
  rcases h.saved with hUnsaved | hStored
  · exact hCareful (h.atRisk hUnsaved)
  · exact hStored.1

/-- The holder of the backup mutex goes on without touching the files. -/
theorem InCurrent.keep (h : InCurrent x s) {store : Store g} (callers : List ManagerCall)
    (hMemory : store.manager.window.current = s.store.manager.window.current)
    (hStage : store.rotating ≠ some .swapping) (hDisk : store.disk = s.store.disk)
    (hBuffer : store.backups.writeBuffer = s.store.backups.writeBuffer)
    (hHolder : ∀ job phase, store.holder = some (job, phase) → phase = .opening ∨
      ∃ before, s.store.holder = some (job, before) ∧
        (Phase.Carries x s.store.disk before → Phase.Carries x s.store.disk phase)) :
    InCurrent x { s with store := store, callers := callers } := by
  refine ⟨by rw [hMemory]; exact h.memory, hStage, ?_, ?_⟩
  · rcases h.saved with hUnsaved | ⟨hRestored, hClear⟩
    · exact Or.inl (hUnsaved.congr hBuffer rfl)
    · refine Or.inr ⟨by rw [hDisk]; exact hRestored, ?_⟩
      intro job phase hEq
      rw [hDisk]
      rcases hHolder job phase hEq with rfl | ⟨before, hBefore, hCarries⟩
      · trivial
      · exact hCarries (hClear job before hBefore)
  · intro job phase hEq hJob
    change Phase.Carries x store.disk phase
    rw [hDisk]
    rcases hHolder job phase hEq with rfl | ⟨before, hBefore, hCarries⟩
    · trivial
    · exact hCarries (h.rotation job before hBefore hJob)

theorem InCurrent.attempt (h : InCurrent x s) (callers : List ManagerCall) {store : Store g}
    (hMemory : store.manager = s.store.manager) (hBuffer : store.backups = s.store.backups)
    (hDisk : store.disk = s.store.disk) (hHolder : store.holder = s.store.holder)
    (hStage : store.rotating = s.store.rotating) (capture : Capture) (n : Nat) :
    InCurrent x { s with store := store.attempt capture n, callers := callers } := by
  obtain ⟨hManager', hBackups', hDisk', hHolder', hRotating'⟩ := store.attempt_frame capture n
  refine h.keep callers (by rw [hManager', hMemory]) ?_ (hDisk'.trans hDisk)
    (by rw [hBackups', hBuffer]) ?_
  · rw [hRotating', hStage]
    exact h.stage
  · intro job phase hEq
    rw [hHolder', hHolder] at hEq
    exact Or.inr ⟨phase, hEq, id⟩

/-- A call enters its item next to what is there. -/
theorem InCurrent.received (h : InCurrent x s) (hOrdered : Ordered s) {store : Store g}
    (call : Received s.store store) : InCurrent x { s with store := store } := by
  cases call with
  | called call =>
      obtain ⟨hMemory, -, hDisk⟩ := call.window_le hOrdered.current hOrdered.log
      obtain ⟨hBackups, -, -, -, -, hHolder, hRotating, hBlob, -⟩ := call.frame
      refine ⟨h.memory.mono hMemory, hRotating ▸ h.stage, ?_, ?_⟩
      · rcases h.saved with hUnsaved | ⟨hRestored, hClear⟩
        · exact Or.inl (hUnsaved.congr (by rw [hBackups]) rfl)
        · refine Or.inr ⟨hRestored.mono hDisk, fun job phase hEq => ?_⟩
          rw [hHolder] at hEq
          exact (hClear job phase hEq).mono hBlob
      · intro job phase hEq hJob
        rw [hHolder] at hEq
        exact (h.rotation job phase hEq hJob).mono hBlob
  | buffered item manager accepted filters eq =>
      subst eq
      refine ⟨?_, h.stage, ?_, h.rotation⟩
      · simp only [filters.window hOrdered.current]
        exact h.memory.mono (le_insert _ _ _)
      · refine h.saved.imp_left fun hUnsaved => ⟨?_, hUnsaved.2⟩
        exact hUnsaved.1.imp_left fun hBuffer => List.mem_append_left _ hBuffer

/-- The object behind the reference to the current filter is the current filter. -/
theorem Ordered.lookup_current (h : Ordered s) {filter : SizedFilter g}
    (hLookup : s.lookup s.store.filter = some filter) : s.store.manager.window.current = filter.bits := by
  have hCurrent : s.store.lookup s.store.filter = some filter := by
    simpa [lookup, h.retired_lookup le_rfl] using hLookup
  exact Store.lookup_current hCurrent

/-- The rotation that holds the backup mutex backs up the current filter. -/
theorem Ordered.rotation_filter (h : Ordered s) {job : Job} {phase : Phase g}
    (hHolder : s.store.holder = some (job, phase)) (hJob : job.isRotation = true) :
    job.filter = s.store.filter := by
  have hRotations := h.inTurn.rotations
  rw [jobs_of_held hHolder, List.filter_cons, if_pos hJob] at hRotations
  split_ifs at hRotations
  rw [(List.cons.inj hRotations).1]
  rfl

/-- A rotation puts the blob of the current filter in the place of the previous one. -/
def Action.promotes : Action g → Bool
  | .store (.promote _) => true
  | _ => false

/-- The bytes that a backup has written become the current blob. -/
theorem InCurrent.renamed (h : InCurrent x s) (callers : List ManagerCall) {job : Job} {bytes : SizedFilter g}
    (hHolder : s.store.holder = some (job, .replacing bytes)) :
    InCurrent x { s with
      store := { s.store with
        disk := { s.store.disk with currentBlob := some (blobOfBuckets bytes.buckets) }
        holder := some (job, .truncating) }
      callers := callers } := by
  have hBlob : Bits g bytes.bits x →
      Bits g (blobBits g (some (blobOfBuckets bytes.buckets))) x := by
    intro hBytes
    rwa [blobBits_blob]
  refine ⟨h.memory, h.stage, ?_, ?_⟩
  · rcases h.saved with hUnsaved | ⟨-, hClear⟩
    · exact Or.inl (hUnsaved.congr rfl rfl)
    · have hNew := hBlob (hClear job _ hHolder)
      refine Or.inr ⟨hNew.mono (blobBits_subset_restored
        { s.store.disk with currentBlob := some (blobOfBuckets bytes.buckets) }), ?_⟩
      intro _ _ hEq
      cases hEq
      exact hNew
  · intro _ _ hEq hJob
    cases hEq
    exact hBlob (h.rotation job _ hHolder hJob)

/-- The log is emptied after the current blob has what it had of `x`. -/
theorem InCurrent.cleared (h : InCurrent x s) (callers : List ManagerCall) {job : Job}
    (hHolder : s.store.holder = some (job, .truncating)) :
    InCurrent x { s with
      store := { s.store with
        disk := { s.store.disk with temp := [] }
        holder := if job.isRotation then some (job, .promoting) else none }
      callers := callers } := by
  refine ⟨h.memory, h.stage, ?_, ?_⟩
  · rcases h.saved with hUnsaved | ⟨-, hClear⟩
    · exact Or.inl (hUnsaved.congr rfl rfl)
    · have hBlob : Bits g (blobBits g s.store.disk.currentBlob) x := hClear job _ hHolder
      refine Or.inr ⟨hBlob.mono (blobBits_subset_restored { s.store.disk with temp := [] }), ?_⟩
      intro _ _ hEq
      simp only at hEq
      split_ifs at hEq
      cases hEq
      exact hBlob
  · intro _ _ hEq hJob
    simp only at hEq
    split_ifs at hEq
    cases hEq
    exact h.rotation job _ hHolder hJob

/-- Steps of the store that read no filter object. -/
theorem InCurrent.stepped (h : InCurrent x s) (hOrdered : Ordered s) {a : Store.Action g} {store : Store g}
    (callers : List ManagerCall) (effect : Store.Effect s.store a store) (hCall : ¬ isCall a)
    (hCrash : a ≠ .crash) (hWritten : ∀ captured, a ≠ .written captured)
    (hOpening : ∀ job, s.store.holder = some (job, .opening) → a ≠ .settle (.ok ())) :
    (Action.store a).promotes = false ∧ InCurrent x { s with store := store, callers := callers } ∨
      (Action.store a).promotes = true ∧ Promoted x store := by
  have hSame : ∀ job phase, s.store.holder = some (job, phase) → phase = .opening ∨
      ∃ before, s.store.holder = some (job, before) ∧
        (Phase.Carries x s.store.disk before → Phase.Carries x s.store.disk phase) :=
    fun job phase hEq => Or.inr ⟨phase, hEq, id⟩
  cases effect with
  | called call hIs => exact absurd hIs hCall
  | requested => exact Or.inl ⟨rfl, h.keep callers rfl h.stage rfl rfl hSame⟩
  | began hFree => exact Or.inl ⟨rfl, h.keep callers rfl (by simp) rfl rfl hSame⟩
  | ticked capture hInterval => exact Or.inl ⟨rfl, h.attempt callers rfl rfl rfl rfl rfl capture 0⟩
  | retried capture n rest hRetrying =>
      have hRest : InCurrent x { s with store := { s.store with retrying := rest } } :=
        h.keep s.callers rfl h.stage rfl rfl hSame
      exact Or.inl ⟨rfl, hRest.attempt callers rfl rfl rfl rfl rfl capture n⟩
  | skipped capture n rest hFree hQueue => exact Or.inl ⟨rfl, h.keep callers rfl h.stage rfl rfl hSame⟩
  | opened job rest hFree hQueue hFresh =>
      refine Or.inl ⟨rfl, h.keep callers rfl h.stage rfl rfl ?_⟩
      intro _ _ hEq
      cases hEq
      exact Or.inl rfl
  | handed job filter hHolder hLookup => exact absurd rfl (hOpening job hHolder)
  | written job handed live captured hHolder hLookup hFrom hTo => exact absurd rfl (hWritten captured)
  | synced job bytes hHolder =>
      refine Or.inl ⟨rfl, h.keep callers rfl h.stage rfl rfl ?_⟩
      intro _ _ hEq
      cases hEq
      exact Or.inr ⟨_, hHolder, id⟩
  | closed job bytes hHolder =>
      refine Or.inl ⟨rfl, h.keep callers rfl h.stage rfl rfl ?_⟩
      intro _ _ hEq
      cases hEq
      exact Or.inr ⟨_, hHolder, id⟩
  | abandoned job message hHolder => exact absurd hHolder (hOrdered.clean job message)
  | renamed job bytes hHolder => exact Or.inl ⟨rfl, h.renamed callers hHolder⟩
  | cleared job hHolder => exact Or.inl ⟨rfl, h.cleared callers hHolder⟩
  | promoted job hHolder =>
      have hJob := (hOrdered.inTurn.holds job _ hHolder).2.2 rfl
      have hBlob : Bits g (blobBits g s.store.disk.currentBlob) x := h.rotation job _ hHolder hJob
      exact Or.inr ⟨rfl, h.memory, hBlob.mono (blobBits_promoteBlob s.store.disk), rfl⟩
  | swapped hStage => exact absurd hStage h.stage
  | crashed => exact absurd rfl hCrash

/-- A filter that has `x`, or the filter of a backup while `x` waits for its line, is
handed to the write. -/
theorem InCurrent.handed (h : InCurrent x s) (hOrdered : Ordered s) {job : Job} {filter : SizedFilter g}
    (hHolder : s.store.holder = some (job, .opening)) (hLookup : s.lookup job.filter = some filter)
    (hCareful : Careful x s (.store (.settle (.ok ())))) :
    InCurrent x { s with store := { s.store with holder := some (job, .writing filter) } } := by
  refine ⟨h.memory, h.stage, ?_, ?_⟩
  · rcases hCareful job filter hHolder hLookup h.memory with hUnsaved | hFilter
    · exact Or.inl (hUnsaved.congr rfl rfl)
    · rcases h.saved with hUnsaved | hStored
      · exact Or.inl (hUnsaved.congr rfl rfl)
      · refine Or.inr ⟨hStored.1, ?_⟩
        intro _ _ hEq
        cases hEq
        exact hFilter
  · intro _ _ hEq hJob
    cases hEq
    rw [hOrdered.rotation_filter hHolder hJob] at hLookup
    have hMemory := h.memory
    rw [hOrdered.lookup_current hLookup] at hMemory
    exact hMemory

/-- The bytes of an append reach the log: its items are stored. -/
theorem InCurrent.appended (h : InCurrent x s) (hOrdered : Ordered s) (hWellFormed : IsWellFormed x)
    {before after : List BufferAppend} {items : List JsString}
    (hFlushing : s.flushing = before ++ ⟨items, false⟩ :: after)
    (hCareful : Careful x s (.append before.length)) :
    InCurrent x { s with
      store := { s.store with disk := { s.store.disk with
        temp := s.store.disk.temp ++ encodeUtf8 (WriteBuffer.flushData items) } }
      flushing := before ++ ⟨items, true⟩ :: after } := by
  have hItems := hOrdered.flushing ⟨items, false⟩ (by simp [hFlushing])
  have hRestored := restored_current_append_lines (g := g) hItems.2 hOrdered.log
  refine ⟨h.memory, h.stage, ?_, ?_⟩
  · simp only [Stored, WriteBuffer.encodeUtf8_flushData hItems.1, hRestored]
    have hClear : Clear x s.store → Clear x { s.store with disk := { s.store.disk with
        temp := s.store.disk.temp ++ encodeLines items } } :=
      fun hClear job phase hEq => (hClear job phase hEq).mono rfl
    rcases h.saved with hUnsaved | hStored
    · by_cases hMem : x ∈ items
      · refine Or.inr ⟨?_, hClear (hCareful ⟨items, false⟩ (by simp [hFlushing]) hMem (h.atRisk hUnsaved))⟩
        refine covers_foldl_insert (List.mem_map.mpr ⟨x, hMem, ?_⟩)
        exact hWellFormed
      · refine Or.inl ⟨hUnsaved.1.imp_right ?_, ?_⟩
        · rintro ⟨append, hAppend, hWritten, hIn⟩
          rw [hFlushing] at hAppend
          refine ⟨append, ?_, hWritten, hIn⟩
          rcases List.mem_append.mp hAppend with hBefore | hAfter
          · exact List.mem_append_left _ hBefore
          · rcases List.mem_cons.mp hAfter with rfl | hAfter
            · exact absurd hIn hMem
            · exact List.mem_append_right _ (List.mem_cons_of_mem _ hAfter)
        · intro append hAppend hWritten
          rcases List.mem_append.mp hAppend with hBefore | hAfter
          · exact hUnsaved.2 append (by simp [hFlushing, hBefore]) hWritten
          · rcases List.mem_cons.mp hAfter with rfl | hAfter
            · exact hMem
            · exact hUnsaved.2 append (by simp [hFlushing, hAfter]) hWritten
    · exact Or.inr ⟨hStored.1.mono (le_foldl_insert _ _), hClear hStored.2⟩
  · intro job phase hEq hJob
    exact (h.rotation job phase hEq hJob).mono rfl

/-- An append settles and empties the buffer. -/
theorem InCurrent.settled (h : InCurrent x s) {before after : List BufferAppend} {items : List JsString}
    (hFlushing : s.flushing = before ++ ⟨items, true⟩ :: after)
    (hCareful : Careful x s (.settle before.length (.ok ()))) :
    InCurrent x { s with
      store := { s.store with backups := { s.store.backups with writeBuffer := [] } }
      flushing := before ++ after } := by
  refine ⟨h.memory, h.stage, ?_, h.rotation⟩
  rcases h.saved with hUnsaved | hStored
  · have hOthers : ∀ append ∈ before ++ after, append ∈ s.flushing := by
      intro append hAppend
      rw [hFlushing]
      rcases List.mem_append.mp hAppend with hBefore | hAfter
      · exact List.mem_append_left _ hBefore
      · exact List.mem_append_right _ (List.mem_cons_of_mem _ hAfter)
    refine (hCareful (h.atRisk hUnsaved)).imp_left fun hOther => ?_
    simp only [hFlushing, List.eraseIdx_append_of_length_le (le_refl _), Nat.sub_self,
      List.eraseIdx_cons_zero] at hOther
    obtain ⟨append, hAppend, hIn⟩ := hOther
    refine ⟨Or.inr ⟨append, hAppend, ?_, hIn⟩, fun other hOther => hUnsaved.2 other (hOthers other hOther)⟩
    cases hWritten : append.written with
    | false => rfl
    | true => exact absurd hIn (hUnsaved.2 append (hOthers append hAppend) hWritten)
  · exact Or.inr hStored

/-- Short of the promotion of its blob, an item stays in the current generation. -/
theorem Effect.inCurrent (effect : Effect s a t) (hOrdered : Ordered s) (hWellFormed : IsWellFormed x)
    (h : InCurrent x s) (hCareful : Careful x s a) :
    a.promotes = false ∧ InCurrent x t ∨ a.promotes = true ∧ Promoted x t.store := by
  cases effect with
  | called call hCall =>
      refine Or.inl ⟨?_, h.received hOrdered call⟩
      rcases hCall with ⟨y, rfl⟩ | ⟨y, rfl⟩ <;> rfl
  | stepped callers effect hCall hCrash hWritten hOpening =>
      exact h.stepped hOrdered callers effect hCall hCrash hWritten hOpening
  | handed job filter hHolder hLookup =>
      exact Or.inl ⟨rfl, h.handed hOrdered hHolder hLookup hCareful⟩
  | written job handed captured hHolder hFrom =>
      refine Or.inl ⟨rfl, h.keep s.callers rfl h.stage rfl rfl ?_⟩
      intro _ _ hEq
      cases hEq
      refine Or.inr ⟨_, hHolder, fun hHanded => ?_⟩
      have hBits : Bits g handed.bits x := hHanded
      exact hBits.mono (BloomFilter.within_spec hFrom).2
  | crashed =>
      have hRestored := h.restored hCareful
      refine Or.inl ⟨rfl, ?_, by simp [boot, Store.boot], Or.inr ⟨hRestored, ?_⟩, ?_⟩
      · rw [window_boot]
        exact hRestored
      · intro _ _ hEq
        cases hEq
      · intro _ _ hEq
        cases hEq
  | asked => exact Or.inl ⟨rfl, h.memory, h.stage, h.saved.imp_left fun hUnsaved => hUnsaved.congr rfl rfl,
      h.rotation⟩
  | deleted => exact hCareful.elim
  | reset callers hFree =>
      have hRestored := h.restored hCareful
      refine Or.inl ⟨rfl, ?_, ?_, ?_, h.rotation⟩
      · rw [resetAndRestore_window]
        exact hRestored
      · simp [Store.resetAndRestore, hFree]
      · exact h.saved.imp (fun hUnsaved => hUnsaved.congr rfl rfl) id
  | idle => exact Or.inl ⟨rfl, h⟩
  | flushed hItems =>
      refine Or.inl ⟨rfl, h.memory, h.stage, h.saved.imp_left fun hUnsaved => ⟨?_, ?_⟩, h.rotation⟩
      · refine hUnsaved.1.imp_right ?_
        rintro ⟨append, hAppend, hIn⟩
        exact ⟨append, List.mem_append_left _ hAppend, hIn⟩
      · intro append hAppend hWritten
        rcases List.mem_append.mp hAppend with hOld | hNew
        · exact hUnsaved.2 append hOld hWritten
        · rw [List.mem_singleton.mp hNew] at hWritten
          cases hWritten
  | appended before after items hFlushing =>
      exact Or.inl ⟨rfl, h.appended hOrdered hWellFormed hFlushing hCareful⟩
  | settled before after items hFlushing => exact Or.inl ⟨rfl, h.settled hFlushing hCareful⟩

/-- Between the promotion of its blob and the swap an item goes on to the previous generation. -/
theorem Effect.promoted_next (effect : Effect s a t) (hOrdered : Ordered s) (hCareful : Careful x s a)
    (h : Promoted x s.store) : Promoted x t.store ∨ InPrevious x t.store := by
  have hIdle : ∀ job phase, s.store.holder ≠ some (job, phase) :=
    fun job phase hHolder => (hOrdered.inTurn.holds job phase hHolder).2.1 h.stage
  cases effect with
  | called call hCall =>
      obtain ⟨hMemory, -, hBlob, hRotating⟩ := call.frame hOrdered.current hOrdered.log
      exact Or.inl ⟨h.memory.mono hMemory, hBlob ▸ h.disk, hRotating.trans h.stage⟩
  | stepped callers effect hCall hCrash hWritten hOpening =>
      refine (effect.promoted_next_of_idle hOrdered.current hOrdered.log hIdle h).imp_right ?_
      intro hNext
      exact ⟨hNext.memory, hNext.disk, by simp [hNext.stage]⟩
  | handed job filter hHolder => exact absurd hHolder (hIdle _ _)
  | written job handed captured hHolder => exact absurd hHolder (hIdle _ _)
  | crashed =>
      refine Or.inr ⟨?_, h.disk, by simp [boot, Store.boot]⟩
      rw [window_boot]
      exact h.disk
  | deleted => exact hCareful.elim
  | reset callers hFree => exact absurd (hFree.symm.trans h.stage) (by simp)
  | asked | idle | flushed | appended | settled => exact Or.inl ⟨h.memory, h.disk, h.stage⟩

/-- An item of the previous generation stays there until the next promotion. -/
theorem Effect.inPrevious (effect : Effect s a t) (hOrdered : Ordered s) (hCareful : Careful x s a)
    (hNot : a.promotes = false) (h : InPrevious x s.store) : InPrevious x t.store := by
  cases effect with
  | called call hCall =>
      obtain ⟨-, hPrevious, hBlob, hRotating⟩ := call.frame hOrdered.current hOrdered.log
      exact ⟨hPrevious ▸ h.memory, hBlob ▸ h.disk, hRotating ▸ h.stage⟩
  | @stepped a store callers effect hCall hCrash hWritten hOpening =>
      cases effect with
      | called call hIs => exact absurd hIs hCall
      | began hFree => exact ⟨h.memory, h.disk, by simp⟩
      | ticked capture hInterval =>
          unfold Store.attempt
          split_ifs <;> exact ⟨h.memory, h.disk, h.stage⟩
      | retried capture n rest hRetrying =>
          unfold Store.attempt
          split_ifs <;> exact ⟨h.memory, h.disk, h.stage⟩
      | abandoned job message hHolder => exact absurd hHolder (hOrdered.clean job message)
      | promoted job hHolder => cases hNot
      | swapped hStage => exact absurd hStage h.stage
      | crashed => exact absurd rfl hCrash
      | requested | skipped | opened | handed | written | synced | closed | renamed | cleared =>
          exact ⟨h.memory, h.disk, h.stage⟩
  | crashed =>
      refine ⟨?_, h.disk, by simp [boot, Store.boot]⟩
      rw [window_boot]
      exact h.disk
  | deleted => exact hCareful.elim
  | reset callers hFree =>
      refine ⟨?_, h.disk, by simp [Store.resetAndRestore, hFree]⟩
      rw [resetAndRestore_window]
      exact h.disk
  | handed | written | asked | idle | flushed | appended | settled => exact ⟨h.memory, h.disk, h.stage⟩

/-- Where an item may be after `n` promotions since it was added. Beyond the second promotion
nothing is promised. -/
def Held (x : JsString) : Nat → ResetStore g → Prop
  | 0, s => InCurrent x s
  | 1, s => Promoted x s.store ∨ InPrevious x s.store
  | _ + 2, _ => True

theorem Effect.held (effect : Effect s a t) (hOrdered : Ordered s) (hWellFormed : IsWellFormed x)
    (hCareful : Careful x s a) {n : Nat} (h : Held x n s) : Held x (if a.promotes then n + 1 else n) t := by
  match n, h with
  | 0, h =>
      rcases effect.inCurrent hOrdered hWellFormed h hCareful with ⟨hNot, hNext⟩ | ⟨hPromotes, hNext⟩
      · rw [if_neg (by simp [hNot])]
        exact hNext
      · rw [if_pos hPromotes]
        exact Or.inl hNext
  | 1, h =>
      cases hPromotes : a.promotes
      · rcases h with h | h
        · exact effect.promoted_next hOrdered hCareful h
        · exact Or.inr (effect.inPrevious hOrdered hCareful hPromotes h)
      · trivial
  | _ + 2, _ => cases a.promotes <;> trivial

/-- Before the second promotion the filters cover the item. -/
theorem Held.covers {n : Nat} (h : Held x n s) (hFew : n < 2) :
    s.store.manager.window.Covers (SizedFilter.signature g) x := by
  match n, h with
  | 0, h => exact Or.inl h.memory
  | 1, .inl h => exact Or.inl h.memory
  | 1, .inr h => exact Or.inr h.memory
  | _ + 2, _ => omega

/-- The steps without failures that are careful about `x`. -/
def CarefulSteps (g : Geometry) (x : JsString) : ResetStore g → Action g → ResetStore g → Prop :=
  Transition.restrict (Steps g) (Careful x)

theorem run_held {as : List (Action g)} (run : Transition.Run (CarefulSteps g x) s as t)
    (hWellFormed : IsWellFormed x) (hOrdered : Ordered s) {n : Nat} (h : Held x n s) :
    Held x (n + as.countP Action.promotes) t :=
  (run.counted Action.promotes (P := fun n s => Ordered s ∧ Held x n s)
    (fun _ _ _ _ h hStep =>
      have effect := step_effect hStep.1
      ⟨effect.ordered h.1, effect.held h.1 hWellFormed hStep.2 h.2⟩)
    ⟨hOrdered, h⟩).2

/-- No job of a rotation runs while no rotation is inside `backupRotate`. -/
theorem Ordered.not_rotation (h : Ordered s) (hStage : s.store.rotating ≠ some .backingUp) {job : Job}
    {phase : Phase g} (hHolder : s.store.holder = some (job, phase)) : job.isRotation = false := by
  have hRotations := h.inTurn.rotations
  rw [if_neg hStage, jobs_of_held hHolder] at hRotations
  cases hJob : job.isRotation with
  | false => rfl
  | true =>
      rw [List.filter_cons, if_pos hJob] at hRotations
      cases hRotations

/-- An item added at a safe moment is in the current generation. -/
theorem inCurrent_of_add (hOrdered : Ordered s) (hSafe : Safe s x) (hOk : (s.store.add [] x).2 = .ok ()) :
    InCurrent x { s with store := (s.store.add [] x).1 } := by
  obtain ⟨hFree, hWellFormed, -, hMode⟩ := hSafe
  have hRotation : ∀ job phase, s.store.holder = some (job, phase) → job.isRotation = true → False := by
    intro job phase hHolder hJob
    rw [hOrdered.not_rotation (by simp [hFree]) hHolder] at hJob
    cases hJob
  cases hBuffered : s.store.backups.bufferEnabled with
  | true =>
      rw [if_pos hBuffered] at hMode
      obtain ⟨-, manager, hInserted, hEq⟩ := add_of_ok_buffered hBuffered hOk
      rw [hEq]
      refine ⟨?_, by simp [hFree], ?_, fun job phase hHolder hJob => (hRotation job phase hHolder hJob).elim⟩
      · simp only [hInserted.window hOrdered.current]
        exact covers_insert _ _ _
      · exact hMode.imp_left fun hFresh => ⟨Or.inl (by simp), hFresh⟩
  | false =>
      rw [if_neg (by simp [hBuffered])] at hMode
      obtain ⟨hItem, manager, hInserted, hEq⟩ := add_of_ok hBuffered hOk
      rw [hEq]
      refine ⟨?_, by simp [hFree], Or.inr ⟨?_, fun job phase hHolder => (hMode job phase hHolder).mono rfl⟩,
        fun job phase hHolder hJob => (hRotation job phase hHolder hJob).elim⟩
      · simp only [hInserted.window hOrdered.current]
        exact covers_insert _ _ _
      · simp only [restored_current_append hItem hOrdered.log]
        rw [show toWellFormed x = x from hWellFormed]
        exact covers_insert _ _ _

/-- A rotation begins: it has the manager's mutex and enters `backupRotate`. -/
def Action.begins : Action g → Bool
  | .store .rotate => true
  | _ => false

/-- A rotation is between its beginning and its promotion. -/
def underWay (s : ResetStore g) : Nat := if s.store.rotating = some .backingUp then 1 else 0

theorem Effect.underWay_le (effect : Effect s a t) (hOrdered : Ordered s) :
    (if a.promotes then 1 else 0) + underWay t ≤ (if a.begins then 1 else 0) + underWay s := by
  have hSame : t.store.rotating = s.store.rotating → a.promotes = false →
      (if a.promotes then 1 else 0) + underWay t ≤ (if a.begins then 1 else 0) + underWay s := by
    intro hRotating hNot
    simp [underWay, hRotating, hNot]
  have hFree : t.store.rotating = none → a.promotes = false →
      (if a.promotes then 1 else 0) + underWay t ≤ (if a.begins then 1 else 0) + underWay s := by
    intro hRotating hNot
    simp [underWay, hRotating, hNot]
  cases effect with
  | called call hCall =>
      refine hSame call.rotating ?_
      rcases hCall with ⟨y, rfl⟩ | ⟨y, rfl⟩ <;> rfl
  | @stepped a store callers effect hCall hCrash hWritten hOpening =>
      cases effect with
      | called call hIs => exact absurd hIs hCall
      | began hNone => simp [underWay, Action.promotes, Action.begins, hNone]
      | ticked capture hInterval => exact hSame (s.store.attempt_frame capture 0).2.2.2.2 rfl
      | retried capture n rest hRetrying =>
          exact hSame (Store.attempt_frame { s.store with retrying := rest } capture n).2.2.2.2 rfl
      | abandoned job message hHolder => exact absurd hHolder (hOrdered.clean job message)
      | promoted job hHolder =>
          have hJob := (hOrdered.inTurn.holds job _ hHolder).2.2 rfl
          have hStage : s.store.rotating = some .backingUp := by
            by_contra hStage
            rw [hOrdered.not_rotation hStage hHolder] at hJob
            cases hJob
          simp [underWay, Action.promotes, Action.begins, hStage]
      | swapped hStage => exact hFree rfl rfl
      | crashed => exact absurd rfl hCrash
      | requested | skipped | opened | handed | written | synced | closed | renamed | cleared =>
          exact hSame rfl rfl
  | crashed => exact hFree rfl rfl
  | reset callers hNone => exact hFree hNone rfl
  | handed | written | asked | deleted | idle | flushed | appended | settled => exact hSame rfl rfl

/-- A blob is promoted by a rotation that has begun before. So a bound on promotions is a bound
on what begins, up to the one that is under way. -/
theorem countP_promotes_le {as : List (Action g)} (run : Transition.Run (Steps g) s as t)
    (hOrdered : Ordered s) (hFree : s.store.rotating = none) :
    as.countP Action.promotes ≤ as.countP Action.begins := by
  have hRun : Ordered t ∧
      as.countP Action.promotes + underWay t ≤ as.countP Action.begins + underWay s := by
    induction run with
    | nil => exact ⟨hOrdered, by simp⟩
    | snoc prior last ih =>
        obtain ⟨hPrior, hCount⟩ := ih
        have hLast := (step_effect last).underWay_le hPrior
        refine ⟨last.ordered hPrior, ?_⟩
        simp only [List.countP_append, List.countP_singleton]
        omega
  have hNone : underWay s = 0 := by simp [underWay, hFree]
  omega

/-- Every item whose `add` returned normally where `Safe` held is reported, as far as the
steps since then were `Careful` about it: right after a reset unless two rotations have
promoted their blobs since the add, and where the add came after a reset, right after
each restart unless two rotations have begun since. -/
def KeepsRevocations (g : Geometry) (Safe : ResetStore g → JsString → Prop)
    (Careful : JsString → ResetStore g → Action g → Prop) : Prop :=
  ∀ numItems periodic bufferEnabled maxBufferSize before s x s' after last t,
    Transition.Run (Steps g) (boot g numItems periodic bufferEnabled maxBufferSize {}) before s →
    Steps g s (.store (.add x [])) s' → (s.store.add [] x).2 = .ok () → Safe s x →
    Transition.Run (Transition.restrict (Steps g) (Careful x)) s' (after ++ [last]) t →
    (last = .reset ∧ after.countP Action.promotes < 2 ∨
      .reset ∈ before ∧ last = .store .crash ∧ after.countP Action.begins < 2) →
    (t.store.manager.has x).2 = .ok true

/-- Careful steps keep what was added at a safe moment, over resets and restarts. No file
operation fails in these runs, and an item that was added in an unsafe moment may be kept as
well. -/
theorem keepsRevocations_careful : KeepsRevocations g Safe Careful := by
  intro numItems periodic bufferEnabled maxBufferSize before s x s' after last t hBefore hStep hOk hSafe
    hAfter
    hLast
  have hOrdered : Ordered s := run_ordered hBefore (boot_ordered _ _ _ _ ⟨[], by simp, rfl⟩)
  have hOrdered' := hStep.ordered hOrdered
  have hAdd : s' = { s with store := (s.store.add [] x).1 } := by
    cases hStep.1
    rfl
  have hStart : InCurrent x s' := hAdd ▸ inCurrent_of_add hOrdered hSafe hOk
  have hFree : s'.store.rotating = none := by
    rw [hAdd]
    exact (add_received s.store x).rotating.trans hSafe.1
  have hFew : (after ++ [last]).countP Action.promotes < 2 := by
    have hLe := countP_promotes_le hAfter.unrestrict hOrdered' hFree
    rcases hLast with ⟨rfl, hFew⟩ | ⟨-, rfl, hFew⟩
    · simpa [List.countP_append, Action.promotes] using hFew
    · have hBegins : (after ++ [Action.store Store.Action.crash]).countP Action.begins =
          after.countP (Action.begins (g := g)) := by simp [List.countP_append, Action.begins]
      omega
  have hHeld : Held x (0 + (after ++ [last]).countP Action.promotes) t :=
    run_held hAfter hSafe.2.1 hOrdered' hStart
  rw [Manager.has_eq_ok (acceptable_of_add hOk).not_blank, (Manager.covers_iff hSafe.2.2.1).mpr]
  exact hHeld.covers (by omega)

/-- In buffered mode an item whose line has reached the log before the reset. -/
theorem keepsRevocations_careful_one_bucket :
    ∃ s t : ResetStore .oneBucket,
      Transition.exec step (boot .oneBucket 1 true true 100 {}) [.store (.add [97] [])] = some s ∧
      Transition.exec step s [.flush, .append 0, .settle 0 (.ok ()), .resetAndRestore, .reset] = some t ∧
      (t.store.manager.has [97]).2 = .ok true := by
  refine ⟨_, _, rfl, rfl, ?_⟩
  refine keepsRevocations_careful 1 true true 100 [] _ [97] _
    [.flush, .append 0, .settle 0 (.ok ()), .resetAndRestore] .reset _ (.nil _) ⟨rfl, rfl⟩ (by decide)
    ⟨rfl, by decide, SizedFilter.addressable (by decide) _, Or.inl ?_⟩ ?_ (Or.inl ⟨rfl, by decide⟩)
  · intro append hAppend
    cases hAppend
  · refine .cons ⟨⟨rfl, trivial⟩, trivial⟩ (.cons ⟨⟨rfl, trivial⟩, ?_⟩ (.cons ⟨⟨rfl, rfl⟩, ?_⟩
      (.cons ⟨⟨rfl, trivial⟩, trivial⟩ (.single ⟨⟨rfl, trivial⟩, ?_⟩))))
    · intro append _ _ _ job phase hHolder
      cases hHolder
    · rintro ⟨⟨-, hNone⟩, -⟩
      exact absurd List.mem_cons_self (hNone ⟨[[97]], true⟩ List.mem_cons_self rfl)
    · rintro ⟨⟨hBuffer | ⟨append, hAppend, -⟩, -⟩, -⟩
      · cases hBuffer
      · cases hAppend

/-- A backup that waits for its file while a reset replaces the filter goes on to write the
replaced one, and empties the log with the item that was added since. -/
theorem not_keepsRevocations :
    ¬ KeepsRevocations .oneBucket (fun _ _ => True) fun _ _ a => a ≠ .resetAndClearData := by
  intro h
  have hHas := h 1 true false 100 [.store .tick, .store .acquire, .resetAndRestore, .reset] _ [97] _
    [.store (.settle (.ok ())), .store (.written (.create _)), .store (.settle (.ok ())),
      .store (.settle (.ok ())), .store (.settle (.ok ())), .store (.settle (.ok ()))] (.store .crash) _
    (Transition.Run.restrict (Transition.run_of_exec rfl) (by simp [Action.NoFault, Store.Action.NoFault]))
    ⟨rfl, rfl⟩ (by decide) trivial
    (Transition.Run.restrict
      (Transition.Run.restrict (Transition.run_of_exec rfl) (by simp [Action.NoFault, Store.Action.NoFault]))
      (by simp)) (Or.inr ⟨by simp, rfl, by decide⟩)
  exact absurd hHas (by decide)

/-- Nor does a reset know the item that is still in the buffer. -/
example : (Transition.exec step (boot .oneBucket 1 true true 100 {})
    [.store (.add [97] []), .resetAndRestore, .reset]).map (fun s => (s.store.manager.has [97]).2) =
      some (.ok false) := by decide +kernel

end ResetStore

end TokenRevoker
