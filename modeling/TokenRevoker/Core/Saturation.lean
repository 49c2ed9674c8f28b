import TokenRevoker.Core.FailedBackup
import TokenRevoker.Core.Reset
import TokenRevoker.Library.DoubleRounding

/-! How many items went into a filter, against what the guard of `add` and the health check
take for it. The counter of insertions lives in memory and starts at zero with a process and
with a reset, while the filter that both then hold may come from the files. -/
namespace TokenRevoker

open Text Transition

variable {g : Geometry}

/-- One of the `checks`. -/
structure CheckStatus where
  healthy : Bool
  error : Option String := none
  deriving DecidableEq

structure HealthStatus where
  healthy : Bool
  storage : CheckStatus
  filter : CheckStatus
  rotation : CheckStatus
  deriving DecidableEq

/-- `toFixed(1)` of a number that is not negative. -/
def toFixedOne (x : ℚ) : String :=
  let tenths := ⌊x * 10 + 1 / 2⌋.toNat
  s!"{tenths / 10}.{tenths % 10}"

namespace Manager

/-- The quotient of two numbers, as a double. Below one its rounding does not matter: it is only
compared with 2 and with 10. -/
def insertionRatio (manager : Manager g) : ℚ :=
  DoubleRounding.round (manager.currentInsertions / manager.numItems)

def filterStatus (manager : Manager g) : CheckStatus :=
  let insertions := manager.currentInsertions
  let capacity := toFixedOne manager.insertionRatio
  match manager.current with
  | none => ⟨false, some "Current filter is null"⟩
  | some _ =>
    if maxSaturationRatio < manager.insertionRatio then
      ⟨false, some (s!"Filter critically saturated: {insertions} insertions " ++ s!"({capacity}x capacity). " ++
        "FPR severely degraded, add() is blocked.")⟩
    else if 2 < manager.insertionRatio then
      ⟨true, some (s!"Filter moderately saturated: {insertions} insertions " ++ s!"({capacity}x capacity). " ++
        "FPR may be elevated — rotation may be failing.")⟩
    else ⟨true, none⟩

/-- `healthCheck`; `storage` is what the backup manager answers, and the rotation interval is
running or not. -/
def healthCheck (manager : Manager g) (storage : CheckStatus) (rotationRunning : Bool) : HealthStatus :=
  let filter := manager.filterStatus
  let rotation : CheckStatus :=
    if rotationRunning then ⟨true, none⟩ else ⟨false, some "Rotation interval is not running"⟩
  { healthy := storage.healthy && filter.healthy && rotation.healthy
    storage := storage
    filter := filter
    rotation := rotation }

/-- The quotient is not rounded back to the limit: it lies above it by more than a unit in the
last place. -/
theorem lt_insertionRatio {manager : Manager g} (hItems : 0 < manager.numItems)
    (hMax : manager.numItems ≤ 10 ^ 8) (h : manager.saturated = true) :
    maxSaturationRatio < manager.insertionRatio := by
  rw [saturated, decide_eq_true_eq, maxSaturationRatio] at h
  have hPos : (0 : ℚ) < manager.numItems := by exact_mod_cast hItems
  have hAbove : (10 : ℚ) + 1 / 10 ^ 8 ≤ (manager.currentInsertions : ℚ) / manager.numItems := by
    have hNext : (manager.numItems : ℚ) * 10 + 1 ≤ manager.currentInsertions := by exact_mod_cast h
    have hBound : (manager.numItems : ℚ) ≤ 10 ^ 8 := by exact_mod_cast hMax
    rw [le_div_iff₀ hPos]
    linarith
  rw [insertionRatio]
  generalize (manager.currentInsertions : ℚ) / manager.numItems = x at hAbove
  have hOne : 1 ≤ x := by linarith
  have hRound := (abs_le.mp (DoubleRounding.abs_round_sub (x := x) (by linarith))).1
  have hUlp : DoubleRounding.ulp x ≤ x / 2 ^ 52 := by
    rw [DoubleRounding.ulp]
    exact div_le_div_of_nonneg_right (DoubleRounding.two_pow_exponent_le hOne) (by positivity)
  rw [maxSaturationRatio]
  push_cast
  linarith

theorem healthCheck_of_saturated {manager : Manager g} (hItems : 0 < manager.numItems)
    (hMax : manager.numItems ≤ 10 ^ 8) (h : manager.saturated = true) (storage : CheckStatus)
    (rotationRunning : Bool) :
    (manager.healthCheck storage rotationRunning).filter.healthy = false ∧
      (manager.healthCheck storage rotationRunning).healthy = false := by
  have hFilter : manager.filterStatus.healthy = false := by
    rw [filterStatus]
    cases manager.current with
    | none => rfl
    | some filter =>
        dsimp only
        rw [if_pos (lt_insertionRatio hItems hMax h)]
  refine ⟨hFilter, ?_⟩
  rw [healthCheck]
  dsimp only
  rw [hFilter, Bool.and_false, Bool.false_and]

/-- A saturated filter takes no item. -/
theorem add_of_saturated {manager : Manager g} (h : manager.saturated = true) (backupItem : Except String Unit)
    (item : JsString) : ∃ error, (manager.add backupItem item).2 = .error error := by
  cases hResult : (manager.add backupItem item).2 with
  | error error => exact ⟨error, rfl⟩
  | ok =>
      have hNot := (add_eq_ok_iff.mp hResult).2.2.1
      rw [h] at hNot
      cases hNot

end Manager

/-- A refused `add` writes nothing. -/
theorem Store.add_of_saturated {s : Store g} (h : s.manager.saturated = true) (failures : List AppendFailure)
    (item : JsString) : ∃ error manager, s.add failures item = ({ s with manager := manager }, .error error) ∧
      s.manager.SameFilters manager := by
  obtain ⟨error, hError⟩ := Manager.add_of_saturated h (.ok ()) item
  have hSame := Manager.add_of_error hError
  rcases hAdd : s.manager.add (.ok ()) item with ⟨manager, result⟩
  rw [hAdd] at hError hSame
  obtain rfl : result = .error error := hError
  refine ⟨error, manager, ?_, hSame⟩
  rw [Store.add, hAdd]

/-- Which insertions went where, each under the number of those before it. An insertion is a
call of `add` or `applyEntry` that returns normally. -/
structure Tally where
  made : Nat := 0
  /-- Those that went into the filter object of a number. -/
  object : Nat → List Nat := fun _ => []
  /-- Those that were in the object when the holder of the backup mutex had written it. -/
  written : List Nat := []
  blob : List Nat := []
  log : List Nat := []
  buffer : List Nat := []
  flushing : List (List Nat) := []

namespace Tally

def insert (tally : Tally) (filter : Nat) (buffered : Bool) : Tally :=
  { tally with
    made := tally.made + 1
    object := Function.update tally.object filter (tally.object filter ++ [tally.made])
    log := if buffered then tally.log else tally.log ++ [tally.made]
    buffer := if buffered then tally.buffer ++ [tally.made] else tally.buffer }

/-- A call that returned with this result. -/
def called (tally : Tally) (s : Store g) : Except RevokerError Unit → Tally
  | .ok () => tally.insert s.filter s.backups.bufferEnabled
  | .error _ => tally

/-- Those that a restore brings back into the current filter, through its blob or the log. An
insertion that is in both counts once. -/
def broughtBack (tally : Tally) (g : Geometry) (disk : Disk) : List Nat :=
  ((if (restoreFilterFromFile g disk.currentBlob).isSome then tally.blob else []) ++ tally.log).dedup

/-- What a step does to the insertions. -/
def step (tally : Tally) (s : ResetStore g) : ResetStore.Action g → Tally
  | .store (.add item failures) => tally.called s.store (s.store.add failures item).2
  | .store (.applyEntry item failures) => tally.called s.store (s.store.applyEntry failures item).2
  | .store (.written _) =>
      match s.store.holder with
      | some (job, _) => { tally with written := tally.object job.filter }
      | none => tally
  | .store (.settle (.ok ())) =>
      match s.store.holder with
      | some (_, .replacing _) => { tally with blob := tally.written }
      | some (_, .truncating) => { tally with log := [] }
      | _ => tally
  | .store (.promote (.ok ())) => { tally with blob := [] }
  | .store .swap => { tally with object := Function.update tally.object (s.store.filter + 1) [] }
  | .store .crash =>
      { tally with
        object := fun filter => if filter = 0 then tally.broughtBack g s.store.disk else []
        written := []
        buffer := []
        flushing := [] }
  | .store _ => tally
  | .resetAndRestore => tally
  | .resetAndClearData => { tally with blob := [], log := [] }
  | .reset =>
      { tally with
        object := Function.update tally.object (s.store.filter + 1) (tally.broughtBack g s.store.disk) }
  | .flush => if s.store.backups.writeBuffer.isEmpty then tally
      else { tally with flushing := tally.flushing ++ [tally.buffer] }
  | .append index => { tally with log := tally.log ++ tally.flushing.getD index [] }
  | .settle index (.ok ()) => { tally with buffer := [], flushing := tally.flushing.eraseIdx index }
  | .settle index (.error _) => { tally with flushing := tally.flushing.eraseIdx index }

end Tally

/-- One instance with its files, and the tally of its insertions. The tally is what the counter
should be. -/
structure TalliedStore (g : Geometry) where
  state : ResetStore g
  tally : Tally := {}

namespace TalliedStore

def step (t : TalliedStore g) (a : ResetStore.Action g) : Option (TalliedStore g) :=
  (t.state.step a).map fun state => ⟨state, t.tally.step t.state a⟩

/-- A process in an empty directory. -/
def start (g : Geometry) (numItems : Nat) (periodic bufferEnabled : Bool) (maxBufferSize : Nat) :
    TalliedStore g where
  state := .boot g numItems periodic bufferEnabled maxBufferSize {}

/-- How many insertions went into the filter that is now current. Those before a rotation or a
reset count only as far as a restore brings them back. -/
def insertions (t : TalliedStore g) : Nat := (t.tally.object t.state.store.filter).length

/-- Everything but `resetAndClearData`. -/
def Listed : ResetStore.Action g → Bool
  | .resetAndClearData => false
  | _ => true

/-- A process starts, or a reset restores, where the files bring no insertion back. Other steps
are free. -/
def RestoresNone (t : TalliedStore g) : ResetStore.Action g → Bool
  | .store .crash | .reset => (t.tally.broughtBack g t.state.store.disk).isEmpty
  | _ => true

/-- If too many insertions went into the current filter, `add` throws, without changing the log,
the write buffer or a filter, and the health check reports the filter. Below the limit it says
nothing: whether `add` succeeds there depends on the item and the disk. -/
def Guarded (t : TalliedStore g) : Prop :=
  t.state.store.manager.numItems * Manager.maxSaturationRatio < t.insertions →
    (∀ failures item, ∃ error manager,
      t.state.store.add failures item = ({ t.state.store with manager := manager }, .error error) ∧
        t.state.store.manager.SameFilters manager) ∧
      ∀ storage rotationRunning,
        (t.state.store.manager.healthCheck storage rotationRunning).filter.healthy = false ∧
          (t.state.store.manager.healthCheck storage rotationRunning).healthy = false

/-- The counter is the number of insertions. A restart breaks it, wherever the files have
something to bring back. -/
structure Counts (numItems : Nat) (t : TalliedStore g) : Prop where
  insertions : t.state.store.manager.currentInsertions = t.insertions
  numItems : t.state.store.manager.numItems = numItems

variable {t u : TalliedStore g} {numItems : Nat} {s s' : ResetStore g}

/-- What neither a filter nor the counter is touched by. -/
structure Untouched (s s' : Store g) : Prop where
  filter : s'.filter = s.filter
  insertions : s'.manager.currentInsertions = s.manager.currentInsertions
  numItems : s'.manager.numItems = s.manager.numItems

/-- A call inserts one item and returns normally, or changes no counter. -/
inductive CallCounts (s s' : Store g) (result : Except RevokerError Unit) : Prop where
  | inserted (hOk : result = .ok ()) (filter : s'.filter = s.filter)
      (insertions : s'.manager.currentInsertions = s.manager.currentInsertions + 1)
      (numItems : s'.manager.numItems = s.manager.numItems)
  | refused (error : RevokerError) (hError : result = .error error) (untouched : Untouched s s')

theorem enter_callCounts {s : Store g} {item : JsString}
    {call : Except String Unit → Manager g × Except RevokerError Unit} (hCall : s.manager.Inserts item call)
    (failures : List AppendFailure) :
    CallCounts s (s.enter call failures item).1 (s.enter call failures item).2 := by
  unfold Store.enter
  rcases hFirst : call (.ok ()) with ⟨manager, error | _⟩
  · have hSame := hCall.error (congrArg Prod.snd hFirst)
    rw [hFirst] at hSame
    exact .refused error rfl ⟨rfl, hSame.insertions, hSame.numItems⟩
  · rcases hItem : s.backups.backupItem s.disk failures item with ⟨backups, disk, outcome⟩
    rcases hOutcome : call outcome with ⟨manager, error | _⟩
    · have hSame := hCall.error (congrArg Prod.snd hOutcome)
      rw [hOutcome] at hSame
      simp only [hOutcome]
      exact .refused error rfl ⟨rfl, hSame.insertions, hSame.numItems⟩
    · have hInserted := (hCall.ok (congrArg Prod.snd hOutcome)).2.2
      rw [hOutcome] at hInserted
      simp only [hOutcome]
      exact .inserted rfl rfl hInserted.insertions hInserted.numItems

theorem add_callCounts (s : Store g) (failures : List AppendFailure) (item : JsString) :
    CallCounts s (s.add failures item).1 (s.add failures item).2 := by
  rw [Store.add_eq_enter]
  exact enter_callCounts (s.manager.add_inserts item) failures

theorem applyEntry_callCounts (s : Store g) (failures : List AppendFailure) (item : JsString) :
    CallCounts s (s.applyEntry failures item).1 (s.applyEntry failures item).2 := by
  rw [Store.applyEntry_eq_enter]
  exact enter_callCounts (s.manager.applyEntry_inserts item) failures

/-- Only calls, swaps and restarts touch the counter of a store. -/
theorem untouched_of_step {s s' : Store g} {a : Store.Action g}
    (hAdd : ∀ item failures, a ≠ .add item failures) (hApply : ∀ item failures, a ≠ .applyEntry item failures)
    (hSwap : a ≠ .swap) (hCrash : a ≠ .crash) (hStep : s.step a = some s') : Untouched s s' := by
  rcases Store.step_cases_of_not_call hAdd hApply hStep with effect | fault
  · cases effect with
    | called call hIs =>
        rcases hIs with ⟨x, rfl⟩ | ⟨x, rfl⟩
        · exact absurd rfl (hAdd x [])
        · exact absurd rfl (hApply x [])
    | swapped => exact absurd rfl hSwap
    | crashed => exact absurd rfl hCrash
    | ticked | retried =>
        unfold Store.attempt
        split_ifs <;> exact ⟨rfl, rfl, rfl⟩
    | abandoned job message hHolder => cases job <;> exact ⟨rfl, rfl, rfl⟩
    | _ => exact ⟨rfl, rfl, rfl⟩
  · cases fault with
    | closing | unpromoted => exact ⟨rfl, rfl, rfl⟩
    | failed job => cases job <;> exact ⟨rfl, rfl, rfl⟩

/-- The same with the mutex shared between rotations and resets. -/
theorem untouched_of_stepStore {s s' : ResetStore g} {a : Store.Action g}
    (hAdd : ∀ item failures, a ≠ .add item failures) (hApply : ∀ item failures, a ≠ .applyEntry item failures)
    (hSwap : a ≠ .swap) (hCrash : a ≠ .crash) (hStep : s.stepStore a = some s') : Untouched s.store s'.store := by
  have hStore : ∀ {store : Store g}, s.store.step a = some store → Untouched s.store store :=
    fun h => untouched_of_step hAdd hApply hSwap hCrash h
  cases a with
  | add item failures => exact absurd rfl (hAdd item failures)
  | applyEntry item failures => exact absurd rfl (hApply item failures)
  | swap => exact absurd rfl hSwap
  | crash => exact absurd rfl hCrash
  | rotate =>
      simp only [ResetStore.stepStore] at hStep
      split at hStep
      · obtain ⟨store, h, rfl⟩ := Option.map_eq_some_iff.mp hStep
        exact hStore h
      · cases hStep
  | settle outcome =>
      simp only [ResetStore.stepStore] at hStep
      split at hStep
      · obtain ⟨filter, -, rfl⟩ := Option.map_eq_some_iff.mp hStep
        exact ⟨rfl, rfl, rfl⟩
      · obtain ⟨store, h, rfl⟩ := Option.map_eq_some_iff.mp hStep
        exact hStore h
  | written captured =>
      simp only [ResetStore.stepStore] at hStep
      split at hStep
      · obtain ⟨live, -, hEq⟩ := Option.bind_eq_some_iff.mp hStep
        split_ifs at hEq
        cases hEq
        exact ⟨rfl, rfl, rfl⟩
      · cases hStep
  | requestRotation =>
      cases hStep
      exact ⟨rfl, rfl, rfl⟩
  | tick | retry | acquire | promote =>
      obtain ⟨store, h, rfl⟩ := Option.map_eq_some_iff.mp hStep
      exact hStore h

/-- The tally of an object is that of the same object afterwards. -/
theorem Counts.keep (h : Counts numItems t) {state : ResetStore g} {tally : Tally}
    (hUntouched : Untouched t.state.store state.store) (hObject : tally.object = t.tally.object) :
    Counts numItems ⟨state, tally⟩ where
  insertions := by
    show state.store.manager.currentInsertions = (tally.object state.store.filter).length
    rw [hUntouched.insertions, hUntouched.filter, hObject]
    exact h.insertions
  numItems := hUntouched.numItems.trans h.numItems

theorem Counts.call (h : Counts numItems t) {store : Store g} {result : Except RevokerError Unit}
    (call : CallCounts t.state.store store result) :
    Counts numItems ⟨{ t.state with store := store }, t.tally.called t.state.store result⟩ := by
  cases call with
  | inserted hOk filter insertions items =>
      subst hOk
      refine ⟨?_, items.trans h.numItems⟩
      show store.manager.currentInsertions = (Function.update t.tally.object t.state.store.filter
        (t.tally.object t.state.store.filter ++ [t.tally.made]) store.filter).length
      rw [filter, Function.update_self, List.length_append, List.length_singleton, insertions, h.insertions]
      rfl
  | refused error hError untouched =>
      subst hError
      exact h.keep untouched rfl

/-- A filter that nothing was inserted into is current, and nothing is counted. -/
theorem counts_nil {state : ResetStore g} {tally : Tally}
    (hInsertions : state.store.manager.currentInsertions = 0)
    (hItems : state.store.manager.numItems = numItems) (hObject : tally.object state.store.filter = []) :
    Counts numItems ⟨state, tally⟩ := by
  refine ⟨?_, hItems⟩
  show state.store.manager.currentInsertions = (tally.object state.store.filter).length
  rw [hInsertions, hObject, List.length_nil]

theorem numItems_restored (numItems : Nat) (disk : Disk) :
    (Manager.restored g numItems disk).numItems = numItems ∧
      (Manager.restored g numItems disk).currentInsertions = 0 := by
  unfold Manager.restored
  split_ifs <;> exact ⟨rfl, rfl⟩

theorem Counts.stepStore (h : Counts numItems t) {a : Store.Action g} {state : ResetStore g}
    (hNone : t.RestoresNone (.store a) = true) (hStep : t.state.stepStore a = some state) :
    Counts numItems ⟨state, t.tally.step t.state (.store a)⟩ := by
  cases a with
  | add item failures =>
      cases hStep
      exact h.call (add_callCounts t.state.store failures item)
  | applyEntry item failures =>
      cases hStep
      exact h.call (applyEntry_callCounts t.state.store failures item)
  | swap =>
      obtain ⟨store, hSwap, rfl⟩ := Option.map_eq_some_iff.mp hStep
      simp only [Store.step] at hSwap
      split_ifs at hSwap
      cases hSwap
      exact counts_nil rfl h.numItems (Function.update_self _ _ _)
  | crash =>
      cases hStep
      have hBack : t.tally.broughtBack g t.state.store.disk = [] := List.isEmpty_iff.mp hNone
      exact counts_nil (numItems_restored _ _).2 ((numItems_restored _ _).1.trans h.numItems) hBack
  | settle outcome =>
      refine h.keep (untouched_of_stepStore (by simp) (by simp) (by simp) (by simp) hStep) ?_
      cases outcome with
      | error message => rfl
      | ok =>
          simp only [Tally.step]
          split <;> rfl
  | written captured =>
      refine h.keep (untouched_of_stepStore (by simp) (by simp) (by simp) (by simp) hStep) ?_
      simp only [Tally.step]
      split <;> rfl
  | promote outcome =>
      refine h.keep (untouched_of_stepStore (by simp) (by simp) (by simp) (by simp) hStep) ?_
      cases outcome <;> rfl
  | requestRotation | rotate | tick | retry | acquire =>
      exact h.keep (untouched_of_stepStore (by simp) (by simp) (by simp) (by simp) hStep) rfl

theorem Counts.step (h : Counts numItems t) {a : ResetStore.Action g} (hListed : Listed a = true)
    (hNone : t.RestoresNone a = true) (hStep : t.step a = some u) : Counts numItems u := by
  obtain ⟨state, hState, rfl⟩ := Option.map_eq_some_iff.mp hStep
  cases a with
  | store a => exact h.stepStore hNone hState
  | resetAndRestore =>
      cases hState
      exact h.keep ⟨rfl, rfl, rfl⟩ rfl
  | resetAndClearData => cases hListed
  | reset =>
      simp only [ResetStore.step] at hState
      split at hState
      · cases hState
        have hBack : t.tally.broughtBack g t.state.store.disk = [] := List.isEmpty_iff.mp hNone
        exact counts_nil rfl h.numItems ((Function.update_self _ _ _).trans hBack)
      · cases hState
  | flush =>
      simp only [ResetStore.step] at hState
      simp only [Tally.step]
      split_ifs at hState ⊢ with hEmpty
      all_goals
        cases hState
        exact h.keep ⟨rfl, rfl, rfl⟩ rfl
  | append index =>
      simp only [ResetStore.step] at hState
      split at hState
      · cases hState
        exact h.keep ⟨rfl, rfl, rfl⟩ rfl
      · cases hState
  | settle index outcome =>
      simp only [ResetStore.step] at hState
      split at hState
      · cases hState
        exact h.keep ⟨rfl, rfl, rfl⟩ rfl
      · cases hState
        exact h.keep ⟨rfl, rfl, rfl⟩ rfl
      · cases hState

/-- Where the counter is right, the guard follows the filter. -/
theorem Counts.guarded (h : Counts numItems t) (hItems : 0 < numItems) (hMax : numItems ≤ 10 ^ 8) : t.Guarded := by
  intro hMany
  have hSaturated : t.state.store.manager.saturated = true := by
    rw [Manager.saturated, h.insertions, decide_eq_true_eq]
    exact hMany
  rw [← h.numItems] at hItems hMax
  exact ⟨Store.add_of_saturated hSaturated, Manager.healthCheck_of_saturated hItems hMax hSaturated⟩

/-- The steps of the calls that add or reset, of the timers and of new processes. -/
def Steps (g : Geometry) : TalliedStore g → ResetStore.Action g → TalliedStore g → Prop :=
  restrict (ofStep step) fun _ a => Listed a = true

/-- As long as no process starts and no reset restores where the files bring insertions back,
the guard follows the filter in every state. It counts insertions, not bits: an item that is
added again counts again. The bound on `numItems` is that of the schema. -/
theorem guarded_of_restoresNone (periodic bufferEnabled : Bool) (maxBufferSize : Nat) (hItems : 0 < numItems)
    (hMax : numItems ≤ 10 ^ 8) {actions : List (ResetStore.Action g)}
    (run : Run (restrict (Steps g) fun t a => t.RestoresNone a = true)
      (start g numItems periodic bufferEnabled maxBufferSize) actions t) : t.Guarded := by
  have hStart : Counts numItems (start g numItems periodic bufferEnabled maxBufferSize) :=
    counts_nil (numItems_restored _ _).2 (numItems_restored _ _).1 rfl
  have hCounts : Counts numItems t :=
    run.invariant (fun _ _ _ h hStep => h.step hStep.1.2 hStep.2 hStep.1.1) hStart
  exact hCounts.guarded hItems hMax

/-- A process that starts on empty files and a filter of one item that takes eleven. -/
theorem guarded_after_start : ∃ t : TalliedStore .oneBucket, t.insertions = 11 ∧
    t.state.store.manager.numItems = 1 ∧ t.Guarded := by
  have hEnd : (exec (guarded (fun t a => Listed a && t.RestoresNone a) step) (start .oneBucket 1 true false 100)
      (.store .crash :: List.replicate 11 (.store (.applyEntry [0x61] [])))).map
        (fun t => (t.insertions, t.state.store.manager.numItems)) = some (11, 1) := by decide +kernel
  obtain ⟨t, hRun, hEq⟩ := Option.map_eq_some_iff.mp hEnd
  obtain ⟨hInsertions, hNumItems⟩ := Prod.mk.inj hEq
  have hAllowed : Run (restrict (ofStep step) fun t a => (Listed a && t.RestoresNone a) = true)
      (start .oneBucket 1 true false 100) _ t := (run_of_exec hRun).of_guarded fun _ _ h => h
  have hSteps : Run (restrict (Steps .oneBucket) fun t a => t.RestoresNone a = true)
      (start .oneBucket 1 true false 100) _ t :=
    hAllowed.mono fun _ _ _ hStep =>
      ⟨⟨hStep.1, (Bool.and_eq_true_iff.mp hStep.2).1⟩, (Bool.and_eq_true_iff.mp hStep.2).2⟩
  exact ⟨t, hInsertions, hNumItems, guarded_of_restoresNone true false 100 (by decide) (by decide) hSteps⟩

/-- The log brings eleven insertions back, and `add` takes another one. -/
theorem not_guarded :
    ¬ ∀ (numItems : Nat) (periodic bufferEnabled : Bool) (maxBufferSize : Nat), 0 < numItems →
      numItems ≤ 10 ^ 8 → ∀ (actions : List (ResetStore.Action .oneBucket)) (t : TalliedStore .oneBucket),
        Run (Steps .oneBucket) (start .oneBucket numItems periodic bufferEnabled maxBufferSize) actions t →
          t.Guarded := by
  intro h
  have hEnd : (exec (guarded (fun _ a => Listed a) step) (start .oneBucket 1 false false 100)
      (List.replicate 11 (.store (.add [0x61] [])) ++ [.store .crash])).map
        (fun t => (t.insertions, t.state.store.manager.numItems, (t.state.store.add [] [0x62]).2)) =
      some (11, 1, .ok ()) := by decide +kernel
  obtain ⟨t, hRun, hEq⟩ := Option.map_eq_some_iff.mp hEnd
  obtain ⟨hInsertions, hRest⟩ := Prod.mk.inj hEq
  obtain ⟨hNumItems, hAdd⟩ := Prod.mk.inj hRest
  have hGuarded := h 1 false false 100 (by decide) (by decide) _ t ((run_of_exec hRun).of_guarded fun _ _ h => h)
  obtain ⟨hAdds, -⟩ := hGuarded (by rw [hInsertions, hNumItems]; decide)
  obtain ⟨error, manager, hRefused, -⟩ := hAdds [] [0x62]
  rw [hRefused] at hAdd
  cases hAdd

end TalliedStore

end TokenRevoker
