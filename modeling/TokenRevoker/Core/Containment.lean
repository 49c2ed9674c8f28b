import TokenRevoker.Core.ResetSafety

/-! Where the bits of a filter can go. A step of an instance with resets moves bits between
the filter objects, the backup that is under way, the write buffer, the appends and the files.
If the object that a rotation or a tick hands to a backup has only bits of a given set, and so
has every item that is added, no step brings another bit into one of these places. -/
namespace TokenRevoker

open Text SignatureFilter

variable {g : Geometry}

section Files

variable {disk : Disk} {bits : Set Nat}

/-- The bits that a restart brings back come from the blobs and from the lines of the log. -/
theorem restoredWindow_within_iff : (restoredWindow g disk).Within bits ↔
    blobBits g disk.currentBlob ⊆ bits ∧ (∀ x ∈ tempItems disk.temp, SizedFilter.signature g x ⊆ bits) ∧
      blobBits g disk.previousBlob ⊆ bits := by
  rw [← and_assoc]
  exact and_congr_left' foldl_insert_le_iff

theorem blobBits_none : blobBits g none = ∅ := rfl

theorem restoredWindow_empty_within : (restoredWindow g {}).Within bits := by
  rw [restoredWindow_within_iff, tempItems_nil, blobBits_none]
  exact ⟨Set.empty_subset _, by simp, Set.empty_subset _⟩

/-- Lines are appended to the log. -/
theorem restoredWindow_append_within {items : List JsString} (hItems : ∀ x ∈ items, Acceptable x)
    (hLog : ∃ items, (∀ x ∈ items, Acceptable x) ∧ disk.temp = encodeLines items)
    (hBits : ∀ x ∈ items, SizedFilter.signature g (toWellFormed x) ⊆ bits)
    (h : (restoredWindow g disk).Within bits) :
    (restoredWindow g { disk with temp := disk.temp ++ encodeLines items }).Within bits := by
  refine ⟨?_, h.2⟩
  rw [restored_current_append_lines hItems hLog]
  refine foldl_insert_le_iff.mpr ⟨h.1, fun y hy => ?_⟩
  obtain ⟨x, hx, rfl⟩ := List.mem_map.mp hy
  exact hBits x hx

/-- The bytes of a filter become the current blob. -/
theorem restoredWindow_replace_within {bytes : SizedFilter g} (hBytes : bytes.bits ⊆ bits)
    (h : (restoredWindow g disk).Within bits) :
    (restoredWindow g { disk with currentBlob := some (blobOfBuckets bytes.buckets) }).Within bits := by
  rw [restoredWindow_within_iff] at h ⊢
  rw [blobBits_blob]
  exact ⟨hBytes, h.2⟩

theorem restoredWindow_truncate_within (h : (restoredWindow g disk).Within bits) :
    (restoredWindow g { disk with temp := [] }).Within bits := by
  rw [restoredWindow_within_iff] at h ⊢
  rw [tempItems_nil]
  exact ⟨h.1, by simp, h.2.2⟩

/-- The current blob becomes the previous one. -/
theorem restoredWindow_promote_within (h : (restoredWindow g disk).Within bits) :
    (restoredWindow g (Store.promoteBlob disk)).Within bits := by
  rw [restoredWindow_within_iff] at h ⊢
  rw [Store.promoteBlob_temp]
  unfold Store.promoteBlob
  split
  · rename_i blob hSome
    rw [hSome] at h
    exact ⟨Set.empty_subset _, h.2.1, h.1⟩
  · exact h

end Files

namespace ResetStore

/-- The filter object of a number has only these bits. A number that stands for no object
satisfies it. -/
def ObjectWithin (bits : Set Nat) (s : ResetStore g) (filter : Nat) : Prop :=
  ∀ object, s.lookup filter = some object → object.bits ⊆ bits

/-- What a backup in this phase still renames into place has only these bits. What it has
written to the file already is no longer its business. -/
def PhaseWithin (bits : Set Nat) (s : ResetStore g) (job : Job) : Phase g → Prop
  | .opening | .writing _ => s.ObjectWithin bits job.filter
  | .syncing bytes | .closing (.ok bytes) | .replacing bytes => bytes.bits ⊆ bits
  | .closing (.error _) | .truncating | .promoting => True

/-- A rotation has begun since the backup was scheduled, which makes it stop at the mutex. -/
def Skipped (s : ResetStore g) : Job → Prop
  | .periodic capture _ => capture.generation ≠ s.store.backups.generation
  | .rotation _ => False

/-- Whatever is still to be written to a file has only these bits. With no bits at all it says
that nothing that is under way can bring any back. -/
structure WritersWithin (bits : Set Nat) (s : ResetStore g) : Prop where
  holder : ∀ job phase, s.store.holder = some (job, phase) → s.PhaseWithin bits job phase
  queue : ∀ job ∈ s.store.queue, s.Skipped job ∨ s.ObjectWithin bits job.filter
  buffer : ∀ x ∈ s.store.backups.writeBuffer, SizedFilter.signature g (toWellFormed x) ⊆ bits
  flushing : ∀ append ∈ s.flushing, append.written = false →
    ∀ x ∈ append.items, SizedFilter.signature g (toWellFormed x) ⊆ bits

/-- The item of a call that returns normally. -/
def added (s : ResetStore g) : Action g → List JsString
  | .store (.add item failures) => if (s.store.add failures item).2.isOk then [item] else []
  | .store (.applyEntry item failures) => if (s.store.applyEntry failures item).2.isOk then [item] else []
  | _ => []

variable {s t : ResetStore g} {bits more : Set Nat} {item : JsString}

theorem ObjectWithin.mono {filter : Nat} (h : s.ObjectWithin bits filter) (hLe : bits ⊆ more) :
    s.ObjectWithin more filter :=
  fun object hLookup => (h object hLookup).trans hLe

theorem PhaseWithin.mono {job : Job} {phase : Phase g} (h : s.PhaseWithin bits job phase) (hLe : bits ⊆ more) :
    s.PhaseWithin more job phase := by
  cases phase with
  | opening | writing => exact ObjectWithin.mono h hLe
  | closing outcome =>
      cases outcome with
      | error => trivial
      | ok => exact Set.Subset.trans h hLe
  | syncing | replacing => exact Set.Subset.trans h hLe
  | truncating | promoting => trivial

theorem WritersWithin.mono (h : s.WritersWithin bits) (hLe : bits ⊆ more) : s.WritersWithin more where
  holder job phase hHolder := (h.holder job phase hHolder).mono hLe
  queue job hJob := (h.queue job hJob).imp_right fun hObject => hObject.mono hLe
  buffer x hx := (h.buffer x hx).trans hLe
  flushing append hAppend hWritten x hx := (h.flushing append hAppend hWritten x hx).trans hLe

/-- What a step does to the filter objects, as far as it concerns these bits. Objects are
compared by their numbers, since a job keeps the one it was scheduled with. -/
structure Moves (bits : Set Nat) (s t : ResetStore g) : Prop where
  objects : ∀ filter, s.ObjectWithin bits filter → t.ObjectWithin bits filter
  filter : t.store.filter = s.store.filter ∧ (s.store.rotating.isSome → t.store.rotating.isSome) ∨
    t.ObjectWithin bits t.store.filter
  previous : s.ObjectWithin bits s.store.filter → Manager.slotBits s.store.manager.previous ⊆ bits →
    Manager.slotBits t.store.manager.previous ⊆ bits
  interval : ∀ capture, t.store.interval = some capture →
    s.store.interval = some capture ∨ t.ObjectWithin bits capture.filter

/-- Objects that no reset has replaced are those of the store. -/
theorem ObjectWithin.of_store (hRetired : t.retired = s.retired) {filter : Nat}
    (hStore : (∀ object, s.store.lookup filter = some object → object.bits ⊆ bits) →
      ∀ object, t.store.lookup filter = some object → object.bits ⊆ bits)
    (h : s.ObjectWithin bits filter) : t.ObjectWithin bits filter := by
  unfold ObjectWithin lookup at h ⊢
  rw [hRetired]
  cases hOld : s.retired.lookup filter with
  | some object =>
      rw [hOld] at h
      exact h
  | none =>
      rw [hOld] at h
      exact hStore h

theorem Ordered.objectWithin_current (h : Ordered s) :
    s.ObjectWithin bits s.store.filter ↔ s.store.manager.window.current ⊆ bits := by
  obtain ⟨current, hCurrent⟩ := Option.isSome_iff_exists.mp h.current
  have hLookup : s.lookup s.store.filter = some current := by
    rw [lookup, h.retired_lookup le_rfl, Store.lookup, if_pos rfl, hCurrent]
    rfl
  rw [Manager.window, hCurrent]
  exact ⟨fun hObject => hObject current hLookup, fun hBits object hObject => by
    rw [hLookup] at hObject
    cases hObject
    exact hBits⟩

/-- A step that replaces no object. -/
theorem Moves.same (hRetired : t.retired = s.retired) (hFilter : t.store.filter = s.store.filter)
    (hCurrent : t.store.manager.current = s.store.manager.current)
    (hPrevious : t.store.manager.previous = s.store.manager.previous)
    (hInterval : t.store.interval = s.store.interval)
    (hRotating : s.store.rotating.isSome → t.store.rotating.isSome) : Moves bits s t := by
  refine ⟨fun filter h => h.of_store hRetired ?_, Or.inl ⟨hFilter, hRotating⟩, ?_, ?_⟩
  · simp only [Store.lookup, hFilter, hCurrent, hPrevious, imp_self]
  · rw [hPrevious]
    exact fun _ h => h
  · rw [hInterval]
    exact fun capture h => Or.inl h

/-- A call enters an item that has only these bits. -/
theorem Moves.inserted {store : Store g} (hFilter : store.filter = s.store.filter)
    (hInserted : s.store.manager.Inserted store.manager item) (hInterval : store.interval = s.store.interval)
    (hRotating : store.rotating = s.store.rotating) (hItem : SizedFilter.signature g item ⊆ bits) :
    Moves bits s { s with store := store } := by
  refine ⟨fun filter h => h.of_store (by rfl) ?_, Or.inl ⟨hFilter, fun h => hRotating ▸ h⟩, ?_, ?_⟩
  · intro hOld object hObject
    simp only [Store.lookup, hFilter, hInserted.current, hInserted.previous] at hOld hObject
    split_ifs at hOld hObject with hCurrent hPrevious
    · obtain ⟨current, hSome, rfl⟩ := Option.map_eq_some_iff.mp hObject
      rw [SizedFilter.bits_add]
      exact Set.union_subset (hOld current hSome) hItem
    · exact hOld object hObject
  · rw [hInserted.previous]
    exact fun _ h => h
  · rw [hInterval]
    exact fun capture h => Or.inl h

/-- A rotation swaps: the current filter becomes the previous one, behind an empty one. -/
theorem Moves.swapped (hOrdered : Ordered s) (callers : List ManagerCall) : Moves bits s { s with
    store := { s.store with
      manager := s.store.manager.swap
      filter := s.store.filter + 1
      interval := s.store.interval.map fun _ => ⟨s.store.filter + 1, s.store.backups.generation⟩
      rotating := none }
    callers := callers } := by
  have hNew : ∀ object, some (SizedFilter.create g) = some object → object.bits ⊆ bits := by
    intro object hObject
    cases hObject
    rw [SizedFilter.bits_create]
    exact Set.empty_subset _
  have hCurrent : ResetStore.ObjectWithin bits { s with
      store := { s.store with
        manager := s.store.manager.swap
        filter := s.store.filter + 1
        interval := s.store.interval.map fun _ => ⟨s.store.filter + 1, s.store.backups.generation⟩
        rotating := none }
      callers := callers } (s.store.filter + 1) := by
    unfold ObjectWithin lookup
    rw [hOrdered.retired_lookup (Nat.le_succ _)]
    simpa [Store.lookup, Manager.swap] using hNew
  refine ⟨fun filter h => h.of_store (by rfl) ?_, Or.inr hCurrent, fun hObject _ => ?_, ?_⟩
  · intro hOld object hObject
    simp only [Store.lookup, Manager.swap] at hOld hObject
    split_ifs at hObject with hFirst hSecond
    · exact hNew object hObject
    · rw [if_pos (Nat.succ_injective hSecond)] at hOld
      exact hOld object hObject
  · exact (hOrdered.objectWithin_current).mp hObject
  · intro capture hCapture
    obtain ⟨-, -, rfl⟩ := Option.map_eq_some_iff.mp hCapture
    exact Or.inr hCurrent

/-- A reset that has got the mutex. -/
def restored (s : ResetStore g) (callers : List ManagerCall) : ResetStore g :=
  { s with
    store := s.store.resetAndRestore
    retired := (s.store.manager.current.map fun filter => (s.store.filter, filter)).toList ++ s.retired
    callers := callers }

/-- The restored object is the only one that was not there before. -/
theorem Ordered.lookup_restored (h : Ordered s) {callers : List ManagerCall} {filter : Nat}
    {object : SizedFilter g} (hLookup : (s.restored callers).lookup filter = some object) :
    s.lookup filter = some object ∨
      filter = s.store.filter + 1 ∧ s.store.resetAndRestore.manager.current = some object := by
  obtain ⟨current, hCurrent⟩ := Option.isSome_iff_exists.mp h.current
  simp only [lookup, restored, hCurrent, Option.map_some, Option.toList_some, List.singleton_append,
    List.lookup_cons] at hLookup ⊢
  rcases eq_or_ne filter s.store.filter with rfl | hOther
  · rw [beq_self_eq_true] at hLookup
    rw [h.retired_lookup le_rfl, Store.lookup, if_pos rfl, hCurrent]
    exact Or.inl hLookup
  · rw [beq_false_of_ne hOther] at hLookup
    cases hOld : s.retired.lookup filter with
    | some old =>
        rw [hOld] at hLookup
        exact Or.inl hLookup
    | none =>
        rw [hOld] at hLookup
        have hFilter : s.store.resetAndRestore.filter = s.store.filter + 1 := rfl
        have hNew : s.store.resetAndRestore.lookup filter = some object := hLookup
        rw [Store.lookup, hFilter] at hNew
        rcases eq_or_ne filter (s.store.filter + 1) with rfl | hNext
        · rw [if_pos rfl] at hNew
          exact Or.inr ⟨rfl, hNew⟩
        · rw [if_neg hNext, if_neg fun hEq => hOther (Nat.succ_injective hEq)] at hNew
          cases hNew

theorem Ordered.restored_objectWithin (h : Ordered s) (hFiles : (restoredWindow g s.store.disk).Within bits)
    (callers : List ManagerCall) {filter : Nat}
    (hObject : s.ObjectWithin bits filter ∨ filter = s.store.filter + 1) :
    (s.restored callers).ObjectWithin bits filter := by
  intro object hLookup
  rcases h.lookup_restored hLookup with hOld | ⟨-, hNew⟩
  · rcases hObject with hObject | rfl
    · exact hObject object hOld
    · rw [lookup, h.retired_lookup (Nat.le_succ _), Store.lookup, if_neg (Nat.succ_ne_self _),
        if_neg (by omega)] at hOld
      cases hOld
  · have hWindow := hFiles.1
    rw [← Store.resetAndRestore_window, Manager.window, hNew] at hWindow
    exact hWindow

/-- Both filters and whatever the interval backs up have only these bits. It holds behind a
reset that restores them from such files. -/
structure Fresh (bits : Set Nat) (s : ResetStore g) : Prop where
  current : s.ObjectWithin bits s.store.filter
  previous : Manager.slotBits s.store.manager.previous ⊆ bits
  interval : ∀ capture, s.store.interval = some capture → s.ObjectWithin bits capture.filter

theorem Fresh.mono (h : Fresh bits s) (hLe : bits ⊆ more) : Fresh more s :=
  ⟨h.current.mono hLe, h.previous.trans hLe, fun capture hCapture => (h.interval capture hCapture).mono hLe⟩

theorem Fresh.moved (h : Fresh bits s) (moves : Moves bits s t) : Fresh bits t where
  current := by
    rcases moves.filter with ⟨hFilter, -⟩ | hNew
    · rw [hFilter]
      exact moves.objects _ h.current
    · exact hNew
  previous := moves.previous h.current h.previous
  interval capture hCapture := by
    rcases moves.interval capture hCapture with hOld | hNew
    · exact moves.objects _ (h.interval capture hOld)
    · exact hNew

/-- A reset takes the current filter away and restores what the files have. -/
theorem Ordered.fresh_restored (h : Ordered s) (hFiles : (restoredWindow g s.store.disk).Within bits)
    (callers : List ManagerCall) : Fresh bits (s.restored callers) where
  current := h.restored_objectWithin hFiles callers (Or.inr rfl)
  previous := by
    have hWindow := hFiles.2
    rwa [← Store.resetAndRestore_window] at hWindow
  interval capture hCapture := by
    obtain ⟨-, -, rfl⟩ := Option.map_eq_some_iff.mp hCapture
    exact h.restored_objectWithin hFiles callers (Or.inr rfl)

theorem Moves.reset (hOrdered : Ordered s) (hFiles : (restoredWindow g s.store.disk).Within bits)
    (callers : List ManagerCall) : Moves bits s (s.restored callers) :=
  have fresh := hOrdered.fresh_restored hFiles callers
  ⟨fun _ h => hOrdered.restored_objectWithin hFiles callers (Or.inl h), Or.inr fresh.current,
    fun _ _ => fresh.previous, fun capture hCapture => Or.inr (fresh.interval capture hCapture)⟩

/-- A new process knows nothing but the files. -/
theorem boot_objectWithin {disk : Disk} (hFiles : (restoredWindow g disk).Within bits) (numItems : Nat)
    (periodic bufferEnabled : Bool) (maxBufferSize filter : Nat) :
    (boot g numItems periodic bufferEnabled maxBufferSize disk).ObjectWithin bits filter := by
  intro object hLookup
  have hStore : (Store.boot g numItems periodic disk).lookup filter = some object := hLookup
  have hWindow : (Manager.restored g numItems disk).window.current ⊆ bits := by
    rw [Manager.restored_window]
    exact hFiles.1
  rw [Store.lookup] at hStore
  split_ifs at hStore with hCurrent hPrevious
  · rw [Manager.window, show (Manager.restored g numItems disk).current = some object from hStore] at hWindow
    exact hWindow
  · cases hPrevious

theorem fresh_boot {disk : Disk} (hFiles : (restoredWindow g disk).Within bits) (numItems : Nat)
    (periodic bufferEnabled : Bool) (maxBufferSize : Nat) :
    Fresh bits (boot g numItems periodic bufferEnabled maxBufferSize disk) where
  current := boot_objectWithin hFiles _ _ _ _ _
  previous := by
    have hWindow := hFiles.2
    rwa [← Manager.restored_window numItems disk] at hWindow
  interval _ _ := boot_objectWithin hFiles _ _ _ _ _

/-- An item that may be added: neither it nor its line has another bit. -/
def ItemWithin (g : Geometry) (bits : Set Nat) (x : JsString) : Prop :=
  SizedFilter.signature g x ⊆ bits ∧ SizedFilter.signature g (toWellFormed x) ⊆ bits

/-- A call that has returned or has been refused. -/
theorem Moves.took {r : Store g × Except RevokerError Unit} (took : Store.Took s.store item r)
    (hItem : r.2.isOk = true → ItemWithin g bits item) : Moves bits s { s with store := r.1 } := by
  cases took with
  | refused manager error filters => exact .same rfl rfl filters.current filters.previous rfl id
  | logged manager _ _ filters | buffered manager _ _ filters => exact .inserted rfl filters rfl rfl (hItem rfl).1

/-- Steps of the store that are no calls. -/
theorem Moves.stepped {a : Store.Action g} {store : Store g} (hOrdered : Ordered s) (callers : List ManagerCall)
    (effect : Store.Effect s.store a store) (hCall : ¬ isCall a) (hCrash : a ≠ .crash) :
    Moves bits s { s with store := store, callers := callers } := by
  cases effect with
  | called call hIs => exact absurd hIs hCall
  | crashed => exact absurd rfl hCrash
  | swapped hStage => exact .swapped hOrdered callers
  | ticked | retried =>
      unfold Store.attempt
      split_ifs <;> exact .same rfl rfl rfl rfl rfl id
  | abandoned job message hHolder => exact absurd hHolder (hOrdered.clean job message)
  | began | promoted => exact .same rfl rfl rfl rfl rfl fun _ => rfl
  | _ => exact .same rfl rfl rfl rfl rfl id

theorem Steps.moves {a : Action g} (hStep : Steps g s a t) (hOrdered : Ordered s)
    (hFiles : (restoredWindow g s.store.disk).Within bits) (hItems : ∀ x ∈ s.added a, ItemWithin g bits x)
    (hCrash : a ≠ .store .crash) : Moves bits s t := by
  have effect := step_effect hStep
  cases effect with
  | called call hCall =>
      rcases hCall with ⟨x, rfl⟩ | ⟨x, rfl⟩
      · cases hStep.1
        exact .took (Store.add_took s.store x) fun hOk => hItems x (by simp [added, hOk])
      · cases hStep.1
        exact .took (Store.applyEntry_took s.store x) fun hOk => hItems x (by simp [added, hOk])
  | stepped callers effect hCall hNotCrash => exact .stepped hOrdered callers effect hCall hNotCrash
  | crashed => exact absurd rfl hCrash
  | reset callers hFree => exact .reset hOrdered hFiles callers
  | handed | written | asked | deleted | idle | flushed | appended | settled =>
      exact .same rfl rfl rfl rfl rfl id

/-- Everything outside the filters has only these bits, and no periodic backup waits for another
attempt. It is the invariant of all that is proved of resets: every step that adds nothing else
keeps it. -/
structure Contained (bits : Set Nat) (s : ResetStore g) : Prop where
  ordered : Ordered s
  retrying : s.store.retrying = []
  writers : s.WritersWithin bits
  files : (restoredWindow g s.store.disk).Within bits

theorem Contained.mono (h : Contained bits s) (hLe : bits ⊆ more) : Contained more s :=
  ⟨h.ordered, h.retrying, h.writers.mono hLe, h.files.mono hLe⟩

/-- Without failures no backup is tried again. -/
theorem Effect.retrying {a : Action g} (effect : Effect s a t) (hOrdered : Ordered s)
    (h : s.store.retrying = []) : t.store.retrying = [] := by
  cases effect with
  | called call hCall =>
      cases call with
      | called call => rw [call.frame.2.2.2.1, h]
      | buffered item manager accepted filters eq => rw [eq, h]
  | stepped callers effect hCall hCrash =>
      cases effect with
      | called call hIs => exact absurd hIs hCall
      | crashed => exact absurd rfl hCrash
      | ticked capture hInterval =>
          unfold Store.attempt
          split_ifs <;> exact h
      | retried capture n rest hRetrying =>
          rw [h] at hRetrying
          cases hRetrying
      | abandoned job message hHolder => exact absurd hHolder (hOrdered.clean job message)
      | _ => exact h
  | crashed => rfl
  | _ => exact h

theorem Skipped.congr {job : Job} (h : s.Skipped job)
    (hGeneration : t.store.backups.generation = s.store.backups.generation) : t.Skipped job := by
  cases job with
  | periodic capture n =>
      rw [Skipped, hGeneration]
      exact h
  | rotation filter => exact h

theorem PhaseWithin.moved {job : Job} {phase : Phase g} (h : s.PhaseWithin bits job phase)
    (moves : Moves bits s t) : t.PhaseWithin bits job phase := by
  cases phase with
  | opening | writing => exact moves.objects _ h
  | closing outcome => cases outcome <;> exact h
  | syncing | replacing | truncating | promoting => exact h

/-- A step that brings in no bit to write. -/
theorem WritersWithin.keep (h : s.WritersWithin bits) (moves : Moves bits s t)
    (hSkipped : ∀ job ∈ s.store.queue, s.Skipped job → t.Skipped job)
    (hHolder : ∀ job phase, t.store.holder = some (job, phase) →
      s.store.holder = some (job, phase) ∨ t.PhaseWithin bits job phase)
    (hQueue : ∀ job ∈ t.store.queue, job ∈ s.store.queue ∨ t.ObjectWithin bits job.filter)
    (hBuffer : ∀ x ∈ t.store.backups.writeBuffer,
      x ∈ s.store.backups.writeBuffer ∨ SizedFilter.signature g (toWellFormed x) ⊆ bits)
    (hFlushing : ∀ append ∈ t.flushing, append.written = false → append ∈ s.flushing ∨
      ∀ x ∈ append.items, SizedFilter.signature g (toWellFormed x) ⊆ bits) : t.WritersWithin bits where
  holder job phase hEq := by
    rcases hHolder job phase hEq with hOld | hNew
    · exact (h.holder job phase hOld).moved moves
    · exact hNew
  queue job hJob := by
    rcases hQueue job hJob with hOld | hNew
    · exact (h.queue job hOld).imp (hSkipped job hOld) (moves.objects _)
    · exact Or.inr hNew
  buffer x hx := (hBuffer x hx).elim (h.buffer x) id
  flushing append hAppend hWritten := by
    rcases hFlushing append hAppend hWritten with hOld | hNew
    · exact h.flushing append hOld hWritten
    · exact hNew

/-- A step of the holder of the mutex, or none of its steps. -/
theorem WritersWithin.advance (h : s.WritersWithin bits) (moves : Moves bits s t)
    (hHolder : ∀ job phase, t.store.holder = some (job, phase) →
      s.store.holder = some (job, phase) ∨ t.PhaseWithin bits job phase)
    (hBackups : t.store.backups = s.store.backups) (hQueue : t.store.queue ⊆ s.store.queue)
    (hFlushing : t.flushing = s.flushing) : t.WritersWithin bits :=
  h.keep moves (fun _ _ hSkipped => hSkipped.congr (by rw [hBackups])) hHolder
    (fun _ hJob => Or.inl (hQueue hJob)) (fun _ hx => Or.inl (hBackups ▸ hx))
    fun _ hAppend _ => Or.inl (hFlushing ▸ hAppend)

/-- A rotation that begins backs up the current filter. The backups that were scheduled before
it are skipped from then on. -/
theorem Contained.began (h : Contained bits s) (hCurrent : s.ObjectWithin bits s.store.filter)
    (callers : List ManagerCall) (hFree : s.store.rotating = none) : WritersWithin bits { s with
      store := { s.store with
        waiting := s.store.waiting - 1
        manager := { s.store.manager with hasRotated := true }
        backups := { s.store.backups with generation := s.store.backups.generation + 1 }
        queue := s.store.queue ++ [.rotation s.store.filter]
        rotating := some .backingUp }
      callers := callers } := by
  have moves : Moves bits s _ := .stepped h.ordered callers (.began hFree) (by simp [isCall]) (by simp)
  refine h.writers.keep moves ?_ (fun _ _ => Or.inl) ?_ (fun _ => Or.inl) (fun _ hAppend _ => Or.inl hAppend)
  · intro job hJob hSkipped
    cases job with
    | periodic capture n =>
        have hJobs : Job.periodic capture n ∈ s.store.jobs := by
          unfold Store.jobs
          cases s.store.holder with
          | none => exact hJob
          | some held => exact List.mem_cons_of_mem _ hJob
        have hLe := (h.ordered.inTurn.captured capture (Or.inr (Or.inr ⟨n, hJobs⟩))).1
        exact Nat.ne_of_lt (Nat.lt_succ_of_le hLe)
    | rotation filter => exact hSkipped
  · intro job hJob
    rcases List.mem_append.mp hJob with hOld | hNew
    · exact Or.inl hOld
    · rw [List.mem_singleton.mp hNew]
      exact Or.inr (moves.objects _ hCurrent)

/-- A tick schedules a backup of the filter that the interval captured. -/
theorem Contained.attempt (h : Contained bits s) {capture : Capture} (hInterval : s.store.interval = some capture)
    (hCapture : capture.generation = s.store.backups.generation → s.ObjectWithin bits capture.filter)
    (callers : List ManagerCall) :
    WritersWithin bits { s with store := s.store.attempt capture 0, callers := callers } := by
  have moves : Moves bits s _ :=
    .stepped h.ordered callers (.ticked capture hInterval) (by simp [isCall]) (by simp)
  revert moves
  unfold Store.attempt
  split_ifs with hFresh
  · intro moves
    refine h.writers.keep moves (fun _ _ hSkipped => hSkipped.congr rfl) (fun _ _ => Or.inl) ?_
      (fun _ => Or.inl) (fun _ hAppend _ => Or.inl hAppend)
    intro job hJob
    rcases List.mem_append.mp hJob with hOld | hNew
    · exact Or.inl hOld
    · rw [List.mem_singleton.mp hNew]
      exact Or.inr (moves.objects _ (hCapture hFresh))
  · intro moves
    exact h.writers.advance moves (fun _ _ => Or.inl) rfl (List.Subset.refl _) rfl

/-- A job that gets the mutex and is not skipped writes an object with only these bits. -/
theorem Contained.opened (h : Contained bits s) {job : Job} {rest : List Job}
    (hQueue : s.store.queue = job :: rest)
    (hFresh : ∀ capture n, job = .periodic capture n → capture.generation = s.store.backups.generation) :
    s.ObjectWithin bits job.filter := by
  refine (h.writers.queue job (by simp [hQueue])).resolve_left fun hSkipped => ?_
  cases job with
  | periodic capture n => exact hSkipped (hFresh capture n rfl)
  | rotation filter => exact hSkipped

/-- Steps of the store that are no calls. -/
theorem Contained.stepped (h : Contained bits s) {a : Store.Action g} {store : Store g}
    (callers : List ManagerCall) (effect : Store.Effect s.store a store) (hCall : ¬ isCall a)
    (hCrash : a ≠ .crash) (hWritten : ∀ captured, a ≠ .written captured)
    (hOpening : ∀ job, s.store.holder = some (job, .opening) → a ≠ .settle (.ok ()))
    (hRotate : a = .rotate → s.ObjectWithin bits s.store.filter)
    (hTick : a = .tick → ∀ capture, s.store.interval = some capture →
      capture.generation = s.store.backups.generation → s.ObjectWithin bits capture.filter) :
    WritersWithin bits { s with store := store, callers := callers } ∧
      (restoredWindow g store.disk).Within bits := by
  have moves : Moves bits s { s with store := store, callers := callers } :=
    .stepped h.ordered callers effect hCall hCrash
  have hQueue := List.Subset.refl s.store.queue
  cases effect with
  | called call hIs => exact absurd hIs hCall
  | crashed => exact absurd rfl hCrash
  | handed job filter hHolder hLookup => exact absurd rfl (hOpening job hHolder)
  | written job handed live captured hHolder hLookup hFrom hTo => exact absurd rfl (hWritten captured)
  | abandoned job message hHolder => exact absurd hHolder (h.ordered.clean job message)
  | requested => exact ⟨h.writers.advance moves (fun _ _ => Or.inl) rfl hQueue rfl, h.files⟩
  | swapped hStage => exact ⟨h.writers.advance moves (fun _ _ => Or.inl) rfl hQueue rfl, h.files⟩
  | began hFree => exact ⟨h.began (hRotate rfl) callers hFree, h.files⟩
  | ticked capture hInterval =>
      refine ⟨h.attempt hInterval (hTick rfl capture hInterval) callers, ?_⟩
      rw [(s.store.attempt_frame capture 0).2.2.1]
      exact h.files
  | retried capture n rest hRetrying =>
      rw [h.retrying] at hRetrying
      cases hRetrying
  | skipped capture n rest hFree hFirst =>
      refine ⟨h.writers.advance moves (fun _ _ => Or.inl) rfl ?_ rfl, h.files⟩
      rw [hFirst]
      exact List.subset_cons_self _ _
  | opened job rest hFree hFirst hFresh =>
      refine ⟨h.writers.advance moves ?_ rfl ?_ rfl, h.files⟩
      · intro _ _ hEq
        cases hEq
        exact Or.inr (moves.objects _ (h.opened hFirst hFresh))
      · rw [hFirst]
        exact List.subset_cons_self _ _
  | synced job bytes hHolder | closed job bytes hHolder =>
      have hBytes : bytes.bits ⊆ bits := h.writers.holder job _ hHolder
      refine ⟨h.writers.advance moves ?_ rfl hQueue rfl, h.files⟩
      intro _ _ hEq
      cases hEq
      exact Or.inr hBytes
  | renamed job bytes hHolder =>
      have hBytes : bytes.bits ⊆ bits := h.writers.holder job _ hHolder
      refine ⟨h.writers.advance moves ?_ rfl hQueue rfl, restoredWindow_replace_within hBytes h.files⟩
      intro _ _ hEq
      cases hEq
      exact Or.inr trivial
  | cleared job hHolder =>
      refine ⟨h.writers.advance moves ?_ rfl hQueue rfl, restoredWindow_truncate_within h.files⟩
      intro _ _ hEq
      simp only at hEq
      split_ifs at hEq
      cases hEq
      exact Or.inr trivial
  | promoted job hHolder =>
      exact ⟨h.writers.advance moves (by simp) rfl hQueue rfl, restoredWindow_promote_within h.files⟩

/-- The bytes of a write lie below the object that it reads. -/
theorem written_within {captured : SizedFilter g} (h : s.stepStore (.written captured) = some t) :
    ∃ job handed live, s.store.holder = some (job, .writing handed) ∧ s.lookup job.filter = some live ∧
      captured.bits ⊆ live.bits ∧
      t = { s with store := { s.store with holder := some (job, .syncing captured) } } := by
  simp only [stepStore] at h
  split at h
  · rename_i job handed hHolder
    obtain ⟨live, hLookup, hWithin⟩ := Option.bind_eq_some_iff.mp h
    simp only [Option.ite_none_right_eq_some, Bool.and_eq_true] at hWithin
    obtain ⟨⟨-, hTo⟩, hEq⟩ := hWithin
    cases hEq
    exact ⟨job, handed, live, hHolder, hLookup, (BloomFilter.within_spec hTo).2, rfl⟩
  · cases h

/-- A call puts its item in the log or in the buffer. -/
theorem Contained.took (h : Contained bits s) {r : Store g × Except RevokerError Unit}
    (took : Store.Took s.store item r) (hItem : r.2.isOk = true → ItemWithin g bits item) :
    WritersWithin bits { s with store := r.1 } ∧ (restoredWindow g r.1.disk).Within bits := by
  have moves := Moves.took took hItem
  cases took with
  | refused manager error filters =>
      exact ⟨h.writers.advance moves (fun _ _ => Or.inl) rfl (List.Subset.refl _) rfl, h.files⟩
  | logged manager _ accepted filters =>
      refine ⟨h.writers.advance moves (fun _ _ => Or.inl) rfl (List.Subset.refl _) rfl, ?_⟩
      refine restoredWindow_append_within (by simpa using accepted) h.ordered.log ?_ h.files
      simpa using (hItem rfl).2
  | buffered manager _ accepted filters =>
      refine ⟨h.writers.keep moves (fun _ _ hSkipped => hSkipped.congr rfl) (fun _ _ => Or.inl)
        (fun _ => Or.inl) ?_ (fun _ hAppend _ => Or.inl hAppend), h.files⟩
      intro x hx
      rcases List.mem_append.mp hx with hOld | hNew
      · exact Or.inl hOld
      · rw [List.mem_singleton.mp hNew]
        exact Or.inr (hItem rfl).2

/-- The bytes of an append reach the log. -/
theorem Contained.appended (h : Contained bits s) {before after : List BufferAppend} {items : List JsString}
    (hFlushing : s.flushing = before ++ ⟨items, false⟩ :: after) :
    (∀ append ∈ before ++ ⟨items, true⟩ :: after, append.written = false → append ∈ s.flushing) ∧
      (restoredWindow g { s.store.disk with
        temp := s.store.disk.temp ++ encodeUtf8 (WriteBuffer.flushData items) }).Within bits := by
  have hMem : (⟨items, false⟩ : BufferAppend) ∈ s.flushing := by simp [hFlushing]
  have hItems := h.ordered.flushing _ hMem
  refine ⟨?_, ?_⟩
  · intro append hAppend hWritten
    rw [hFlushing]
    rcases List.mem_append.mp hAppend with hBefore | hAfter
    · exact List.mem_append_left _ hBefore
    · rcases List.mem_cons.mp hAfter with rfl | hAfter
      · cases hWritten
      · exact List.mem_append_right _ (List.mem_cons_of_mem _ hAfter)
  · rw [WriteBuffer.encodeUtf8_flushData hItems.1]
    exact restoredWindow_append_within hItems.2 h.ordered.log (h.writers.flushing _ hMem rfl) h.files

/-- What every step keeps, as long as nothing else is added or scheduled. -/
theorem Contained.step (h : Contained bits s) {a : Action g} (hStep : Steps g s a t)
    (hItems : ∀ x ∈ s.added a, ItemWithin g bits x)
    (hRotate : a = .store .rotate → s.ObjectWithin bits s.store.filter)
    (hTick : a = .store .tick → ∀ capture, s.store.interval = some capture →
      capture.generation = s.store.backups.generation → s.ObjectWithin bits capture.filter) :
    Contained bits t := by
  have effect := step_effect hStep
  have moves := fun hCrash => hStep.moves h.ordered h.files hItems hCrash
  suffices hKeep : t.WritersWithin bits ∧ (restoredWindow g t.store.disk).Within bits from
    ⟨hStep.ordered h.ordered, effect.retrying h.ordered h.retrying, hKeep.1, hKeep.2⟩
  have hQueue := List.Subset.refl s.store.queue
  cases effect with
  | called call hCall =>
      rcases hCall with ⟨x, rfl⟩ | ⟨x, rfl⟩
      · cases hStep.1
        exact h.took (Store.add_took s.store x) fun hOk => hItems x (by simp [added, hOk])
      · cases hStep.1
        exact h.took (Store.applyEntry_took s.store x) fun hOk => hItems x (by simp [added, hOk])
  | stepped callers effect hCall hCrash hWritten hOpening =>
      exact h.stepped callers effect hCall hCrash hWritten hOpening (fun hEq => hRotate (by rw [hEq]))
        fun hEq => hTick (by rw [hEq])
  | handed job filter hHolder hLookup =>
      have hObject : s.ObjectWithin bits job.filter := h.writers.holder job _ hHolder
      refine ⟨h.writers.advance (moves (by simp)) ?_ rfl hQueue rfl, h.files⟩
      intro _ _ hEq
      cases hEq
      exact Or.inr ((moves (by simp)).objects _ hObject)
  | written job handed captured hHolder hFrom =>
      obtain ⟨job', handed', live, hHolder', hLookup, hTo, -⟩ := written_within hStep.1
      have hObject : s.ObjectWithin bits job'.filter := h.writers.holder job' _ hHolder'
      refine ⟨h.writers.advance (moves (by simp)) ?_ rfl hQueue rfl, h.files⟩
      intro _ _ hEq
      cases hEq
      exact Or.inr (hTo.trans (hObject live hLookup))
  | crashed =>
      exact ⟨⟨by simp [boot, Store.boot], by simp [boot, Store.boot], by simp [boot], by simp [boot]⟩,
        h.files⟩
  | deleted =>
      exact ⟨h.writers.advance (moves (by simp)) (fun _ _ => Or.inl) rfl hQueue rfl, restoredWindow_empty_within⟩
  | asked | reset =>
      exact ⟨h.writers.advance (moves (by simp)) (fun _ _ => Or.inl) rfl hQueue rfl, h.files⟩
  | idle => exact ⟨h.writers, h.files⟩
  | flushed hSome =>
      refine ⟨h.writers.keep (moves (by simp)) (fun _ _ hSkipped => hSkipped.congr rfl) (fun _ _ => Or.inl)
        (fun _ => Or.inl) (fun _ => Or.inl) ?_, h.files⟩
      intro append hAppend hWritten
      rcases List.mem_append.mp hAppend with hOld | hNew
      · exact Or.inl hOld
      · rw [List.mem_singleton.mp hNew]
        exact Or.inr h.writers.buffer
  | appended before after items hFlushing =>
      obtain ⟨hOthers, hFiles⟩ := h.appended hFlushing
      exact ⟨h.writers.keep (moves (by simp)) (fun _ _ hSkipped => hSkipped.congr rfl) (fun _ _ => Or.inl)
        (fun _ => Or.inl) (fun _ => Or.inl) fun append hAppend hWritten =>
          Or.inl (hOthers append hAppend hWritten), hFiles⟩
  | settled before after items hFlushing =>
      refine ⟨h.writers.keep (moves (by simp)) (fun _ _ hSkipped => hSkipped.congr rfl) (fun _ _ => Or.inl)
        (fun _ => Or.inl) (by simp) ?_, h.files⟩
      intro append hAppend hWritten
      rw [hFlushing]
      refine Or.inl ?_
      rcases List.mem_append.mp hAppend with hBefore | hAfter
      · exact List.mem_append_left _ hBefore
      · exact List.mem_append_right _ (List.mem_cons_of_mem _ hAfter)

end ResetStore

end TokenRevoker
