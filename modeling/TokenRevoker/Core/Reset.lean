import TokenRevoker.Core.JobOrder
import TokenRevoker.Core.WriteBuffer

/-! `resetAndRestore` and `resetAndClearData` over one instance with its files. A reset
replaces both filters by what the files hold, under the mutex of the manager only: a
backup that has begun goes on with the object that it was given, and the write buffer
stays as it is. Buffered mode is part of the model, with each flush cut where its bytes
reach the log and where it empties the buffer. -/
namespace TokenRevoker

open Text

variable {g : Geometry}

/-- A call that waits for the manager's mutex. They get it in the order in which they came. -/
inductive ManagerCall where
  | rotation
  | reset
  deriving DecidableEq

/-- An `appendFile` of `#flushWriteBuffer` that has not settled. It keeps its items, also once
its bytes are in the file. -/
structure BufferAppend where
  items : List JsString
  /-- The bytes have reached the log. -/
  written : Bool
  deriving DecidableEq

/-- What `resetAndRestore` does to the manager: both slots as in a constructor, whose
`#restoreBackup` it calls, and nothing counted. -/
def Manager.resetAndRestore (manager : Manager g) (disk : Disk) : Manager g :=
  let restored := Manager.restored g manager.numItems disk
  { manager with
    previous := restored.previous
    current := restored.current
    currentInsertions := 0
    counters := {} }

/-- The critical section of `resetAndRestore`. The interval captures the new filter with
the generation as it is. -/
def Store.resetAndRestore (s : Store g) : Store g :=
  { s with
    manager := s.manager.resetAndRestore s.disk
    filter := s.filter + 1
    interval := s.interval.map fun _ => ⟨s.filter + 1, s.backups.generation⟩ }

structure ResetStore (g : Geometry) where
  store : Store g
  /-- The filter objects that a reset has replaced. -/
  retired : List (Nat × SizedFilter g) := []
  /-- Who waits for the manager's mutex, in order. -/
  callers : List ManagerCall := []
  flushing : List BufferAppend := []
  deriving DecidableEq

namespace Store

/-- What a call of `add` or `applyEntry` can do in either mode while no write fails. -/
inductive Received (s t : Store g) : Prop where
  | called (call : Called s t)
  | buffered (item : JsString) (manager : Manager g) (accepted : Acceptable item)
      (filters : s.manager.Inserted manager item)
      (eq : t = { s with
        manager := manager
        backups := { s.backups with writeBuffer := s.backups.writeBuffer ++ [item] } })

theorem Took.received {s : Store g} {item : JsString} {r : Store g × Except RevokerError Unit}
    (h : Took s item r) : Received s r.1 := by
  cases h with
  | refused manager error filters => exact .called (.refused manager filters rfl)
  | logged manager _ accepted filters => exact .called (.entered item manager accepted filters rfl)
  | buffered manager _ accepted filters => exact .buffered item manager accepted filters rfl

theorem add_received (s : Store g) (item : JsString) : Received s (s.add [] item).1 :=
  (add_took s item).received

theorem applyEntry_received (s : Store g) (item : JsString) : Received s (s.applyEntry [] item).1 :=
  (applyEntry_took s item).received

/-- In buffered mode an `add` that returns normally has pushed its item. -/
theorem add_of_ok_buffered {s : Store g} (hBuffered : s.backups.bufferEnabled = true) {item : JsString}
    (h : (s.add [] item).2 = .ok ()) :
    Acceptable item ∧ ∃ manager, s.manager.Inserted manager item ∧
      (s.add [] item).1 = { s with
        manager := manager
        backups := { s.backups with writeBuffer := s.backups.writeBuffer ++ [item] } } := by
  have hTook := add_took s item
  generalize s.add [] item = r at h hTook ⊢
  cases hTook with
  | refused => cases h
  | logged manager hSync => rw [hBuffered] at hSync; cases hSync
  | buffered manager _ accepted filters => exact ⟨accepted, manager, filters, rfl⟩

/-- In either mode an item whose `add` returns normally is one that `add` accepts. -/
theorem acceptable_of_add {s : Store g} {item : JsString} (h : (s.add [] item).2 = .ok ()) :
    Acceptable item := by
  have hTook := add_took s item
  generalize s.add [] item = r at h hTook
  cases hTook with
  | refused => cases h
  | logged _ _ accepted | buffered _ _ accepted => exact accepted

theorem Received.rotating {s t : Store g} (h : Received s t) : t.rotating = s.rotating := by
  cases h with
  | called call => exact call.frame.2.2.2.2.2.2.1
  | buffered item manager accepted filters eq => rw [eq]

end Store

namespace ResetStore

inductive Action (g : Geometry) where
  | store (a : Store.Action g)
  | resetAndRestore
  | resetAndClearData
  | reset
  | flush
  | append (index : Nat)
  | settle (index : Nat) (outcome : Except String Unit)

/-- A new instance on existing files. -/
def boot (g : Geometry) (numItems : Nat) (periodic bufferEnabled : Bool) (maxBufferSize : Nat)
    (disk : Disk) : ResetStore g where
  store := { Store.boot g numItems periodic disk with
    backups := { bufferEnabled := bufferEnabled, maxBufferSize := maxBufferSize } }

/-- The filter object behind a reference, whether or not a reset has replaced it. -/
def lookup (s : ResetStore g) (filter : Nat) : Option (SizedFilter g) :=
  s.retired.lookup filter <|> s.store.lookup filter

/-- The steps of the store, with the manager's mutex shared between rotations and resets
and with every object that a backup may still hold. -/
def stepStore (s : ResetStore g) : Store.Action g → Option (ResetStore g)
  | .requestRotation => (s.store.step .requestRotation).map fun store =>
      { s with store := store, callers := s.callers ++ [.rotation] }
  | .rotate =>
      match s.callers with
      | .rotation :: rest => (s.store.step .rotate).map fun store =>
          { s with store := store, callers := rest }
      | _ => none
  | .settle outcome =>
      match s.store.holder, outcome with
      | some (job, .opening), .ok () => (s.lookup job.filter).map fun filter =>
          { s with store := { s.store with holder := some (job, .writing filter) } }
      | _, _ => (s.store.step (.settle outcome)).map fun store => { s with store := store }
  | .written captured =>
      match s.store.holder with
      | some (job, .writing handed) =>
        (s.lookup job.filter).bind fun live =>
          if BloomFilter.within handed.buckets captured.buckets &&
              BloomFilter.within captured.buckets live.buckets then
            some { s with store := { s.store with holder := some (job, .syncing captured) } }
          else none
      | _ => none
  | .crash => some (boot g s.store.manager.numItems s.store.interval.isSome
      s.store.backups.bufferEnabled s.store.backups.maxBufferSize s.store.disk)
  | a => (s.store.step a).map fun store => { s with store := store }

/-- One synchronous stretch of the program, `none` where it cannot run now. An append
succeeds or fails as a whole. -/
def step (s : ResetStore g) : Action g → Option (ResetStore g)
  | .store a => s.stepStore a
  | .resetAndRestore => some { s with callers := s.callers ++ [.reset] }
  | .resetAndClearData =>
      -- the files are deleted before the call waits for the mutex
      some { s with
        store := { s.store with
          disk := {}
          manager := { s.store.manager with hasRotated := false, currentInsertions := 0 } }
        callers := s.callers ++ [.reset] }
  | .reset =>
      match s.store.rotating, s.callers with
      | none, .reset :: rest => some { s with
          store := s.store.resetAndRestore
          retired := (s.store.manager.current.map fun filter => (s.store.filter, filter)).toList ++ s.retired
          callers := rest }
      | _, _ => none
  | .flush =>
      if s.store.backups.writeBuffer.isEmpty then some s
      else some { s with flushing := s.flushing ++ [⟨s.store.backups.writeBuffer, false⟩] }
  | .append index =>
      match s.flushing[index]? with
      | some ⟨items, false⟩ => some { s with
          store := { s.store with disk := { s.store.disk with
            temp := s.store.disk.temp ++ encodeUtf8 (WriteBuffer.flushData items) } }
          flushing := s.flushing.set index ⟨items, true⟩ }
      | _ => none
  | .settle index outcome =>
      match s.flushing[index]?, outcome with
      | some ⟨_, true⟩, .ok () => some { s with
          store := { s.store with backups := { s.store.backups with writeBuffer := [] } }
          flushing := s.flushing.eraseIdx index }
      | some ⟨_, false⟩, .error _ => some { s with flushing := s.flushing.eraseIdx index }
      | _, _ => none

/-- No operation on a file fails. -/
def Action.NoFault : Action g → Prop
  | .store a => a.NoFault
  | .settle _ outcome => outcome = .ok ()
  | _ => True

/-- The steps while no operation on a file fails. -/
def Steps (g : Geometry) : ResetStore g → Action g → ResetStore g → Prop :=
  Transition.restrict (Transition.ofStep step) fun _ a => a.NoFault

/-- A call of `add` or `applyEntry`, on which no write fails. -/
def isCall (a : Store.Action g) : Prop := (∃ x, a = .add x []) ∨ ∃ x, a = .applyEntry x []

/-- What one step can do while no operation on a file fails. A reset is one step: nothing is
awaited between its restore and its release. -/
inductive Effect (s : ResetStore g) : Action g → ResetStore g → Prop where
  | called {a : Store.Action g} {store : Store g} (call : Store.Received s.store store)
      (hCall : isCall a) : Effect s (.store a) { s with store := store }
  /-- A step of the store that asks for no filter object. -/
  | stepped {a : Store.Action g} {store : Store g} (callers : List ManagerCall)
      (effect : Store.Effect s.store a store) (hCall : ¬ isCall a) (hCrash : a ≠ .crash)
      (hWritten : ∀ captured, a ≠ .written captured)
      (hOpening : ∀ job, s.store.holder = some (job, .opening) → a ≠ .settle (.ok ())) :
      Effect s (.store a) { s with store := store, callers := callers }
  | handed (job : Job) (filter : SizedFilter g) (hHolder : s.store.holder = some (job, .opening))
      (hLookup : s.lookup job.filter = some filter) : Effect s (.store (.settle (.ok ()))) { s with
        store := { s.store with holder := some (job, .writing filter) } }
  | written (job : Job) (handed captured : SizedFilter g)
      (hHolder : s.store.holder = some (job, .writing handed))
      (hFrom : BloomFilter.within handed.buckets captured.buckets = true) :
      Effect s (.store (.written captured)) { s with
        store := { s.store with holder := some (job, .syncing captured) } }
  | crashed : Effect s (.store .crash) (boot g s.store.manager.numItems s.store.interval.isSome
      s.store.backups.bufferEnabled s.store.backups.maxBufferSize s.store.disk)
  | asked : Effect s .resetAndRestore { s with callers := s.callers ++ [.reset] }
  | deleted : Effect s .resetAndClearData { s with
      store := { s.store with
        disk := {}
        manager := { s.store.manager with hasRotated := false, currentInsertions := 0 } }
      callers := s.callers ++ [.reset] }
  | reset (callers : List ManagerCall) (hFree : s.store.rotating = none) : Effect s .reset { s with
      store := s.store.resetAndRestore
      retired := (s.store.manager.current.map fun filter => (s.store.filter, filter)).toList ++ s.retired
      callers := callers }
  | idle : Effect s .flush s
  | flushed (hItems : s.store.backups.writeBuffer ≠ []) : Effect s .flush { s with
      flushing := s.flushing ++ [⟨s.store.backups.writeBuffer, false⟩] }
  | appended (before after : List BufferAppend) (items : List JsString)
      (hFlushing : s.flushing = before ++ ⟨items, false⟩ :: after) :
      Effect s (.append before.length) { s with
        store := { s.store with disk := { s.store.disk with
          temp := s.store.disk.temp ++ encodeUtf8 (WriteBuffer.flushData items) } }
        flushing := before ++ ⟨items, true⟩ :: after }
  | settled (before after : List BufferAppend) (items : List JsString)
      (hFlushing : s.flushing = before ++ ⟨items, true⟩ :: after) :
      Effect s (.settle before.length (.ok ())) { s with
        store := { s.store with backups := { s.store.backups with writeBuffer := [] } }
        flushing := before ++ after }

variable {s t : ResetStore g}

theorem eq_append_of_getElem? {appends : List BufferAppend} {index : Nat} {append : BufferAppend}
    (h : appends[index]? = some append) :
    ∃ before after, appends = before ++ append :: after ∧ before.length = index := by
  obtain ⟨hLt, rfl⟩ := List.getElem?_eq_some_iff.mp h
  refine ⟨appends.take index, appends.drop (index + 1), ?_, by simp; omega⟩
  rw [List.getElem_cons_drop, List.take_append_drop]

theorem stepStore_effect {a : Store.Action g} (h : s.stepStore a = some t) (hFault : a.NoFault) :
    Effect s (.store a) t := by
  cases a with
  | add item failures =>
      obtain rfl : failures = [] := hFault
      cases h
      exact .called (Store.add_received _ item) (Or.inl ⟨item, rfl⟩)
  | applyEntry item failures =>
      obtain rfl : failures = [] := hFault
      cases h
      exact .called (Store.applyEntry_received _ item) (Or.inr ⟨item, rfl⟩)
  | requestRotation =>
      cases h
      exact .stepped _ .requested (by simp [isCall]) (by simp) (by simp) (by simp)
  | rotate =>
      simp only [stepStore] at h
      split at h
      · obtain ⟨store, hStore, rfl⟩ := Option.map_eq_some_iff.mp h
        exact .stepped _ (Store.step_effect_of_not_call (by simp) (by simp) ⟨hStore, trivial⟩)
          (by simp [isCall]) (by simp) (by simp) (by simp)
      · cases h
  | settle outcome =>
      obtain rfl : outcome = .ok () := hFault
      simp only [stepStore] at h
      split at h
      · rename_i job hHolder _
        obtain ⟨filter, hLookup, rfl⟩ := Option.map_eq_some_iff.mp h
        exact .handed job filter hHolder hLookup
      · rename_i hNot
        obtain ⟨store, hStore, rfl⟩ := Option.map_eq_some_iff.mp h
        refine .stepped _ (Store.step_effect_of_not_call (by simp) (by simp) ⟨hStore, rfl⟩)
          (by simp [isCall]) (by simp) (by simp) ?_
        intro job hHolder _
        exact hNot job hHolder rfl
  | written captured =>
      simp only [stepStore] at h
      split at h
      · rename_i job handed hHolder
        obtain ⟨live, -, hWithin⟩ := Option.bind_eq_some_iff.mp h
        simp only [Option.ite_none_right_eq_some, Bool.and_eq_true] at hWithin
        obtain ⟨⟨hFrom, -⟩, hEq⟩ := hWithin
        cases hEq
        exact .written job handed captured hHolder hFrom
      · cases h
  | crash =>
      cases h
      exact .crashed
  | tick | retry | acquire | promote | swap =>
      obtain ⟨store, hStore, rfl⟩ := Option.map_eq_some_iff.mp h
      exact .stepped _ (Store.step_effect_of_not_call (by simp) (by simp) ⟨hStore, hFault⟩)
        (by simp [isCall]) (by simp) (by simp) (by simp)

theorem step_effect {a : Action g} (h : Steps g s a t) : Effect s a t := by
  obtain ⟨h, hFault⟩ := h
  simp only [Transition.ofStep] at h
  cases a with
  | store a => exact stepStore_effect h hFault
  | resetAndRestore =>
      cases h
      exact .asked
  | resetAndClearData =>
      cases h
      exact .deleted
  | reset =>
      simp only [step] at h
      split at h
      · rename_i rest hFree hCallers
        cases h
        exact .reset rest hFree
      · cases h
  | flush =>
      simp only [step] at h
      split_ifs at h with hEmpty
      · cases h
        exact .idle
      · cases h
        exact .flushed (by simpa using hEmpty)
  | append index =>
      simp only [step] at h
      split at h
      · rename_i items hAppend
        obtain ⟨before, after, hFlushing, rfl⟩ := eq_append_of_getElem? hAppend
        cases h
        simp only [hFlushing, List.set_append_right _ _ (le_refl _), Nat.sub_self, List.set_cons_zero]
        exact .appended before after items hFlushing
      · cases h
  | settle index outcome =>
      obtain rfl : outcome = .ok () := hFault
      simp only [step] at h
      split at h
      · rename_i items hAppend _
        obtain ⟨before, after, hFlushing, rfl⟩ := eq_append_of_getElem? hAppend
        cases h
        simp only [hFlushing, List.eraseIdx_append_of_length_le (le_refl _), Nat.sub_self,
          List.eraseIdx_cons_zero]
        exact .settled before after items hFlushing
      · rename_i hOutcome
        cases hOutcome
      · cases h

/-- What holds in every state of a run without failures. The filters that resets have replaced
have lower numbers than the current one. -/
structure Ordered (s : ResetStore g) : Prop where
  /-- The filter of a backup that may still run may be one that a reset has replaced. -/
  inTurn : Store.InTurn (fun _ _ => True) s.store
  clean : ∀ job message, s.store.holder ≠ some (job, .closing (.error message))
  current : s.store.manager.current.isSome
  /-- Every line of the log is an accepted item. -/
  log : ∃ items, (∀ x ∈ items, Acceptable x) ∧ s.store.disk.temp = encodeLines items
  buffer : ∀ x ∈ s.store.backups.writeBuffer, Acceptable x
  flushing : ∀ append ∈ s.flushing, append.items ≠ [] ∧ ∀ x ∈ append.items, Acceptable x
  retired : ∀ entry ∈ s.retired, entry.1 < s.store.filter

theorem boot_ordered (numItems : Nat) (periodic bufferEnabled : Bool) (maxBufferSize : Nat) {disk : Disk}
    (hLog : ∃ items, (∀ x ∈ items, Acceptable x) ∧ disk.temp = encodeLines items) :
    Ordered (boot g numItems periodic bufferEnabled maxBufferSize disk) where
  inTurn := (Store.boot_inTurn (fun _ => trivial) numItems periodic disk).congr rfl rfl rfl rfl rfl rfl rfl
  clean := by simp [boot, Store.boot]
  current := Manager.restored_current numItems disk
  log := hLog
  buffer := by simp [boot]
  flushing := by simp [boot]
  retired := by simp [boot]

/-- What a step of the store leaves alone, calls and crashes apart. -/
theorem frame_of_stepped {s t : Store g} {a : Store.Action g} (effect : Store.Effect s a t)
    (hCall : ¬ isCall a) (hCrash : a ≠ .crash) :
    t.backups.writeBuffer = s.backups.writeBuffer ∧ s.filter ≤ t.filter ∧
      (t.disk.temp = s.disk.temp ∨ t.disk.temp = []) ∧
      (s.manager.current.isSome → t.manager.current.isSome) := by
  cases effect with
  | called call hIs => exact absurd hIs hCall
  | crashed => exact absurd rfl hCrash
  | ticked | retried =>
      unfold Store.attempt
      split_ifs <;> exact ⟨rfl, le_rfl, Or.inl rfl, id⟩
  | abandoned job message hHolder => cases job <;> exact ⟨rfl, le_rfl, Or.inl rfl, id⟩
  | cleared job hHolder => exact ⟨rfl, le_rfl, Or.inr rfl, id⟩
  | promoted job hHolder => exact ⟨rfl, le_rfl, Or.inl (Store.promoteBlob_temp s.disk), id⟩
  | swapped hStage => exact ⟨rfl, Nat.le_succ _, Or.inl rfl, fun _ => rfl⟩
  | _ => exact ⟨rfl, le_rfl, Or.inl rfl, id⟩

/-- Without failures no backup closes its file after an error. -/
theorem clean_of_stepped {s t : Store g} {a : Store.Action g} (effect : Store.Effect s a t)
    (hClean : ∀ job message, s.holder ≠ some (job, .closing (.error message))) :
    ∀ job message, t.holder ≠ some (job, .closing (.error message)) := by
  cases effect with
  | called call isCall => rwa [call.frame.2.2.2.2.2.1]
  | ticked | retried =>
      unfold Store.attempt
      split_ifs <;> exact hClean
  | abandoned job message hHolder => simp [Store.fail_holder]
  | cleared job hHolder =>
      intro _ _
      dsimp only
      split_ifs <;> simp
  | requested | began | skipped | swapped => exact hClean
  | _ => simp [Store.boot]

variable {a : Action g}

theorem Ordered.received (h : Ordered s) {store : Store g} (call : Store.Received s.store store) :
    Ordered { s with store := store } := by
  cases call with
  | called call =>
      obtain ⟨hBackups, hFilter, hInterval, hRetrying, hQueue, hHolder, hRotating, -⟩ := call.frame
      refine ⟨h.inTurn.congr (congrArg _ hBackups) hFilter hInterval hRetrying hQueue hHolder hRotating,
        ?_, call.current h.current, call.log h.log, ?_, h.flushing, ?_⟩
      · rw [hHolder]
        exact h.clean
      · rw [hBackups]
        exact h.buffer
      · rw [hFilter]
        exact h.retired
  | buffered item manager accepted filters eq =>
      subst eq
      refine ⟨h.inTurn.congr rfl rfl rfl rfl rfl rfl rfl, h.clean, ?_, h.log, ?_, h.flushing, h.retired⟩
      · simpa [filters.current] using h.current
      · intro x hx
        rcases List.mem_append.mp hx with hx | hx
        · exact h.buffer x hx
        · rwa [List.mem_singleton.mp hx]

/-- Every step without failures keeps the order. -/
theorem Effect.ordered (effect : Effect s a t) (h : Ordered s) : Ordered t := by
  cases effect with
  | called call hCall => exact h.received call
  | stepped callers effect hCall hCrash hWritten hOpening =>
      obtain ⟨hBuffer, hFilter, hTemp, hCurrent⟩ := frame_of_stepped effect hCall hCrash
      refine ⟨effect.inTurn (fun _ => trivial) h.inTurn, clean_of_stepped effect h.clean,
        hCurrent h.current, ?_, ?_, h.flushing, fun entry hEntry => (h.retired entry hEntry).trans_le hFilter⟩
      · rcases hTemp with hTemp | hTemp
        · rw [hTemp]
          exact h.log
        · exact ⟨[], by simp, hTemp⟩
      · rw [hBuffer]
        exact h.buffer
  | handed job filter hHolder hLookup =>
      exact ⟨h.inTurn.advance s.store.disk hHolder (by simp), by simp, h.current, h.log, h.buffer,
        h.flushing, h.retired⟩
  | written job handed captured hHolder hFrom =>
      exact ⟨h.inTurn.advance s.store.disk hHolder (by simp), by simp, h.current, h.log, h.buffer,
        h.flushing, h.retired⟩
  | crashed => exact boot_ordered _ _ _ _ h.log
  | asked => exact ⟨h.inTurn, h.clean, h.current, h.log, h.buffer, h.flushing, h.retired⟩
  | deleted =>
      exact ⟨h.inTurn.congr rfl rfl rfl rfl rfl rfl rfl, h.clean, h.current, ⟨[], by simp, rfl⟩, h.buffer,
        h.flushing, h.retired⟩
  | reset callers hFree =>
      have hNone := h.inTurn.rotations
      rw [if_neg (by simp [hFree])] at hNone
      refine ⟨⟨?_, ?_, ?_⟩, h.clean, Manager.restored_current _ _, h.log, h.buffer, h.flushing, ?_⟩
      · rintro capture (hInterval | hOld)
        · obtain ⟨old, -, rfl⟩ := Option.map_eq_some_iff.mp hInterval
          exact ⟨le_rfl, fun _ => ⟨hFree, trivial⟩⟩
        · exact h.inTurn.captured capture (Or.inr hOld)
      · rw [if_neg (by simp [Store.resetAndRestore, hFree])]
        exact hNone
      · exact h.inTurn.holds
      · intro entry hEntry
        rcases List.mem_append.mp hEntry with hNew | hOld
        · obtain ⟨filter, -, rfl⟩ := Option.map_eq_some_iff.mp (Option.mem_toList.mp hNew)
          exact Nat.lt_succ_self _
        · exact (h.retired entry hOld).trans (Nat.lt_succ_self _)
  | idle => exact h
  | flushed hItems =>
      refine ⟨h.inTurn, h.clean, h.current, h.log, h.buffer, ?_, h.retired⟩
      intro append hAppend
      rcases List.mem_append.mp hAppend with hOld | hNew
      · exact h.flushing append hOld
      · rw [List.mem_singleton.mp hNew]
        exact ⟨hItems, h.buffer⟩
  | appended before after items hFlushing =>
      have hOwn := h.flushing ⟨items, false⟩ (by simp [hFlushing])
      refine ⟨h.inTurn.congr rfl rfl rfl rfl rfl rfl rfl, h.clean, h.current, ?_, h.buffer, ?_, h.retired⟩
      · obtain ⟨logged, hLogged, hTemp⟩ := h.log
        refine ⟨logged ++ items, ?_, ?_⟩
        · intro x hx
          rcases List.mem_append.mp hx with hx | hx
          · exact hLogged x hx
          · exact hOwn.2 x hx
        · simp only [hTemp, WriteBuffer.encodeUtf8_flushData hOwn.1, encodeLines_append]
      · intro append hAppend
        rcases List.mem_append.mp hAppend with hBefore | hAfter
        · exact h.flushing append (by simp [hFlushing, hBefore])
        · rcases List.mem_cons.mp hAfter with rfl | hAfter
          · exact hOwn
          · exact h.flushing append (by simp [hFlushing, hAfter])
  | settled before after items hFlushing =>
      refine ⟨h.inTurn.congr rfl rfl rfl rfl rfl rfl rfl, h.clean, h.current, h.log, by simp, ?_, h.retired⟩
      intro append hAppend
      rcases List.mem_append.mp hAppend with hBefore | hAfter
      · exact h.flushing append (by simp [hFlushing, hBefore])
      · exact h.flushing append (by simp [hFlushing, hAfter])

/-- The numbers from the current filter on are none of a replaced object. -/
theorem Ordered.retired_lookup (h : Ordered s) {filter : Nat} (hLe : s.store.filter ≤ filter) :
    s.retired.lookup filter = none := by
  rw [List.lookup_eq_none_iff]
  intro entry hEntry
  simpa using ((h.retired entry hEntry).trans_le hLe).ne'

theorem Steps.ordered (hStep : Steps g s a t) (h : Ordered s) : Ordered t :=
  (step_effect hStep).ordered h

theorem run_ordered {as : List (Action g)} (run : Transition.Run (Steps g) s as t) (h : Ordered s) :
    Ordered t :=
  run.invariant (fun _ _ _ h hStep => Steps.ordered hStep h) h

end ResetStore

end TokenRevoker
