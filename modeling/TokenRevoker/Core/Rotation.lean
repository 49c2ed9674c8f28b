import TokenRevoker.Core.Manager
import TokenRevoker.Library.Transition

/-! Rotations of one manager. Timer ticks and `rotateOnDemand` queue on the mutex;
the rotation that holds it waits for `backupRotate` while `add`, `applyEntry` and
`has` go on, and swaps the filters when that call settles, failed or not. -/
namespace TokenRevoker

open Text SignatureFilter

structure Rotations (g : Geometry) where
  manager : Manager g
  /-- A backup manager is configured. -/
  backup : Bool
  /-- Calls of `#rotate` that wait for the mutex. -/
  waiting : Nat
  /-- The mutex is held by a rotation that awaits `backupRotate`. -/
  suspended : Bool
  deriving DecidableEq

namespace Rotations

inductive Action where
  | add (filterItem : JsString) (backupItem : Except String Unit)
  | applyEntry (filterItem : JsString) (backupItem : Except String Unit)
  | has (value : JsString)
  | timer
  | rotateOnDemand
  | acquire
  | resume (backupRotate : Except String Unit)

variable {g : Geometry}

/-- A manager after its constructor. -/
def start (g : Geometry) (numItems : Nat) (backup : Bool)
    (restoredCurrent restoredPrevious : Option (SizedFilter g)) : Rotations g :=
  ⟨Manager.init g numItems restoredCurrent restoredPrevious, backup, 0, false⟩

/-- What `this.backupManager?.backupItem(item)` does. With backups off it does nothing and
succeeds. -/
def persist (s : Rotations g) (backupItem : Except String Unit) : Except String Unit :=
  if s.backup then backupItem else .ok ()

/-- The filters are swapped and the mutex is released. -/
def complete (s : Rotations g) : Rotations g :=
  { s with manager := s.manager.swap, suspended := false }

/-- One synchronous stretch of the program, `none` where it cannot run now. -/
def step (s : Rotations g) : Action → Option (Rotations g)
  | .add filterItem backupItem =>
      some { s with manager := (s.manager.add (s.persist backupItem) filterItem).1 }
  | .applyEntry filterItem backupItem =>
      some { s with manager := (s.manager.applyEntry (s.persist backupItem) filterItem).1 }
  | .has value => some { s with manager := (s.manager.has value).1 }
  | .timer => some { s with waiting := s.waiting + 1 }
  | .rotateOnDemand =>
      -- `rotateOnDemand` throws once the manager is shutting down
      if s.manager.shuttingDown then some s else some { s with waiting := s.waiting + 1 }
  | .acquire =>
      if s.suspended || s.waiting == 0 then none
      else
        let entered : Rotations g :=
          { s with
            waiting := s.waiting - 1
            manager := { s.manager with hasRotated := true } }
        if s.backup && s.manager.current.isSome then some { entered with suspended := true }
        else some entered.complete
  | .resume _ => if s.suspended then some s.complete else none

/-- The call made by this action inserted `x` and returned normally. Where it throws behind the
insertion, nothing is promised of the item. -/
def Inserts (s : Rotations g) (x : JsString) : Action → Prop
  | .add filterItem backupItem =>
      filterItem = x ∧ (s.manager.add (s.persist backupItem) filterItem).2 = .ok ()
  | .applyEntry filterItem backupItem =>
      filterItem = x ∧ (s.manager.applyEntry (s.persist backupItem) filterItem).2 = .ok ()
  | _ => False

/-- How many rotations have completed. -/
def completed (s : Rotations g) : Nat := s.manager.counters.rotations

/-- The step in which a call of `#rotate` releases the mutex: `backupRotate` has settled, or
there was none to wait for. -/
def Ends (s : Rotations g) : Action → Prop
  | .acquire => s.backup = false
  | .resume _ => True
  | _ => False

/-- What one step can do to the filters and to the count of completed rotations. Every property
of runs here is proved by these cases. -/
inductive Effect (s t : Rotations g) : Prop where
  | inserted (item : JsString) (filters : s.manager.Inserted t.manager item)
      (count : t.completed = s.completed)
  | kept (filters : s.manager.SameFilters t.manager) (count : t.completed = s.completed)
  | rotated (previous : t.manager.previous = s.manager.current)
      (current : t.manager.current = some (SizedFilter.create g))
      (insertions : t.manager.currentInsertions = 0) (count : t.completed = s.completed + 1)

theorem add_rotations (manager : Manager g) (backupItem : Except String Unit) (item : JsString) :
    (manager.add backupItem item).1.counters.rotations = manager.counters.rotations := by
  unfold Manager.add
  rcases checkFilterItem item with invalid | _
  · rfl
  · simp only
    split_ifs
    · rfl
    · rfl
    · rcases backupItem with message | _ <;> rfl

theorem applyEntry_rotations (manager : Manager g) (backupItem : Except String Unit)
    (item : JsString) :
    (manager.applyEntry backupItem item).1.counters.rotations = manager.counters.rotations := by
  unfold Manager.applyEntry
  rcases checkFilterItem item with invalid | _
  · rfl
  · simp only
    split_ifs
    · rfl
    · rcases backupItem with message | _ <;> rfl

theorem has_rotations (manager : Manager g) (value : JsString) :
    (manager.has value).1.counters.rotations = manager.counters.rotations := by
  unfold Manager.has
  split_ifs <;> rfl

theorem step_effect {s t : Rotations g} {a : Action} (h : step s a = some t) : Effect s t := by
  cases a with
  | add item backupItem =>
      cases h
      rcases hResult : (s.manager.add (s.persist backupItem) item).2 with error | _
      · exact .kept (Manager.add_of_error hResult) (add_rotations _ _ _)
      · exact .inserted item (Manager.add_of_ok hResult) (add_rotations _ _ _)
  | applyEntry item backupItem =>
      cases h
      rcases hResult : (s.manager.applyEntry (s.persist backupItem) item).2 with error | _
      · exact .kept (Manager.applyEntry_of_error hResult) (applyEntry_rotations _ _ _)
      · exact .inserted item (Manager.applyEntry_of_ok hResult) (applyEntry_rotations _ _ _)
  | has value =>
      cases h
      exact .kept (Manager.has_sameFilters _ _) (has_rotations _ _)
  | timer =>
      cases h
      exact .kept (Manager.SameFilters.refl _) rfl
  | rotateOnDemand =>
      simp only [step] at h
      split_ifs at h <;> cases h <;> exact .kept (Manager.SameFilters.refl _) rfl
  | acquire =>
      simp only [step] at h
      split_ifs at h
      · cases h
        exact .kept ⟨rfl, rfl, rfl, rfl, rfl⟩ rfl
      · cases h
        exact .rotated rfl rfl rfl rfl
  | resume backupRotate =>
      simp only [step] at h
      split_ifs at h
      cases h
      exact .rotated rfl rfl rfl rfl

/-- A call of `add`, `applyEntry` or `has`. -/
def Action.IsCall : Action → Prop
  | .add .. | .applyEntry .. | .has .. => True
  | _ => False

/-- Such a call leaves the rotations alone. -/
theorem step_call {s t : Rotations g} {a : Action} (h : step s a = some t) (hCall : a.IsCall) :
    t.backup = s.backup ∧ t.waiting = s.waiting ∧ t.suspended = s.suspended ∧
      t.completed = s.completed := by
  cases a with
  | add item backupItem =>
      cases h
      exact ⟨rfl, rfl, rfl, add_rotations _ _ _⟩
  | applyEntry item backupItem =>
      cases h
      exact ⟨rfl, rfl, rfl, applyEntry_rotations _ _ _⟩
  | has value =>
      cases h
      exact ⟨rfl, rfl, rfl, has_rotations _ _⟩
  | timer | rotateOnDemand | acquire | resume => exact hCall.elim

theorem step_acquire {s t : Rotations g} (h : step s .acquire = some t) (hBackup : s.backup = true)
    (hCurrent : s.manager.current.isSome) :
    s.suspended = false ∧ 0 < s.waiting ∧
      t = { s with
        waiting := s.waiting - 1
        manager := { s.manager with hasRotated := true }
        suspended := true } := by
  simp only [step, hBackup, hCurrent, Bool.and_self, if_true, Option.ite_none_left_eq_some,
    Bool.or_eq_true, beq_iff_eq, not_or, Bool.not_eq_true] at h
  obtain ⟨⟨hFree, hWaiting⟩, hEq⟩ := h
  refine ⟨hFree, by omega, ?_⟩
  rw [hBackup]
  exact (Option.some.inj hEq).symm

theorem step_resume {s t : Rotations g} {backupRotate : Except String Unit}
    (h : step s (.resume backupRotate) = some t) : s.suspended = true ∧ t = s.complete := by
  simp only [step, Option.ite_none_right_eq_some] at h
  exact ⟨h.1, (Option.some.inj h.2).symm⟩

/-- The current filter is never missing. -/
theorem step_current {s t : Rotations g} {a : Action} (h : step s a = some t)
    (hCurrent : s.manager.current.isSome) : t.manager.current.isSome := by
  cases step_effect h with
  | inserted item filters count => simpa [filters.current] using hCurrent
  | kept filters count => rwa [filters.current]
  | rotated previous current insertions count => simp [current]

theorem start_current (numItems : Nat) (backup : Bool)
    (restoredCurrent restoredPrevious : Option (SizedFilter g)) :
    (start g numItems backup restoredCurrent restoredPrevious).manager.current.isSome := by
  cases restoredCurrent <;> rfl

/-- A step is an insertion into the window, a rotation of it, or neither. The window is the
abstract filter pair, on which rotations and insertions are functions. -/
theorem step_window {s t : Rotations g} {a : Action} (h : step s a = some t)
    (hCurrent : s.manager.current.isSome) :
    (t.completed = s.completed ∧ ((∃ item, t.manager.window =
        s.manager.window.insert (SizedFilter.signature g) item) ∨
        t.manager.window = s.manager.window)) ∨
      t.completed = s.completed + 1 ∧ t.manager.window = s.manager.window.rotate := by
  cases step_effect h with
  | inserted item filters count => exact Or.inl ⟨count, Or.inl ⟨item, filters.window hCurrent⟩⟩
  | kept filters count => exact Or.inl ⟨count, Or.inr filters.window⟩
  | rotated previous current insertions count =>
      refine Or.inr ⟨count, ?_⟩
      rw [← Manager.swap_window]
      simp only [Manager.window, previous, current, Manager.swap]

/-- `x` is where an item inserted after `since` completed rotations may be. After two
completions it may be anywhere. -/
def Holds (since : Nat) (x : JsString) (s : Rotations g) : Prop :=
  s.manager.current.isSome ∧ since ≤ s.completed ∧
    s.manager.window.Held (SizedFilter.signature g) (s.completed - since) x

theorem step_holds {since : Nat} {x : JsString} {s t : Rotations g} {a : Action}
    (hHolds : Holds since x s) (h : step s a = some t) : Holds since x t := by
  obtain ⟨hCurrent, hSince, hHeld⟩ := hHolds
  refine ⟨step_current h hCurrent, ?_⟩
  rcases step_window h hCurrent with ⟨hCount, ⟨item, hWindow⟩ | hWindow⟩ | ⟨hCount, hWindow⟩
  · rw [hCount, hWindow]
    exact ⟨hSince, hHeld.insert item⟩
  · rw [hCount, hWindow]
    exact ⟨hSince, hHeld⟩
  · rw [hCount, hWindow, Nat.sub_add_comm hSince]
    exact ⟨by omega, hHeld.rotate⟩

theorem inserts_accepted {s : Rotations g} {x : JsString} {a : Action} (h : s.Inserts x a) :
    Acceptable x := by
  cases a with
  | add item backupItem =>
      obtain ⟨rfl, hOk⟩ := h
      exact (Manager.add_eq_ok_iff.mp hOk).1
  | applyEntry item backupItem =>
      obtain ⟨rfl, hOk⟩ := h
      exact (Manager.applyEntry_eq_ok_iff.mp hOk).1
  | has | timer | rotateOnDemand | acquire | resume => exact h.elim

theorem inserts_holds {s t : Rotations g} {x : JsString} {a : Action} (h : step s a = some t)
    (hInserts : s.Inserts x a) (hCurrent : s.manager.current.isSome) : Holds t.completed x t := by
  refine ⟨step_current h hCurrent, le_rfl, ?_⟩
  rw [Nat.sub_self]
  cases a with
  | add item backupItem =>
      obtain ⟨rfl, hOk⟩ := hInserts
      cases h
      rw [(Manager.add_of_ok hOk).window hCurrent]
      exact Window.held_insert _ _
  | applyEntry item backupItem =>
      obtain ⟨rfl, hOk⟩ := hInserts
      cases h
      rw [(Manager.applyEntry_of_ok hOk).window hCurrent]
      exact Window.held_insert _ _
  | has | timer | rotateOnDemand | acquire | resume => exact hInserts.elim

theorem run_current {s t : Rotations g} {as : List Action}
    (run : Transition.Run (Transition.ofStep step) s as t) (hCurrent : s.manager.current.isSome) :
    t.manager.current.isSome :=
  run.invariant (P := fun s => s.manager.current.isSome)
    (fun _ _ _ hCurrent hStep => step_current hStep hCurrent) hCurrent

theorem run_holds {since : Nat} {x : JsString} {s t : Rotations g} {as : List Action}
    (run : Transition.Run (Transition.ofStep step) s as t) (hHolds : Holds since x s) :
    Holds since x t :=
  run.invariant (fun _ _ _ hHolds hStep => step_holds hHolds hStep) hHolds

/-- A call of `#rotate` ends with the swap, and nothing else swaps. -/
theorem step_ends {s t : Rotations g} {a : Action} (h : step s a = some t) (hCurrent : s.manager.current.isSome) :
    (s.Ends a → t = s.complete ∨ t.manager = { s.manager with hasRotated := true }.swap ∧ t.suspended = false) ∧
      (¬ s.Ends a → t.completed = s.completed) := by
  cases a with
  | add item backupItem => exact ⟨False.elim, fun _ => (step_call h trivial).2.2.2⟩
  | applyEntry item backupItem => exact ⟨False.elim, fun _ => (step_call h trivial).2.2.2⟩
  | has value => exact ⟨False.elim, fun _ => (step_call h trivial).2.2.2⟩
  | timer =>
      cases h
      exact ⟨False.elim, fun _ => rfl⟩
  | rotateOnDemand =>
      refine ⟨False.elim, fun _ => ?_⟩
      simp only [step] at h
      split_ifs at h <;> cases h <;> rfl
  | acquire =>
      refine ⟨fun hEnds => Or.inr ?_, fun hEnds => ?_⟩
      · have hBackup : s.backup = false := hEnds
        simp only [step, hBackup, Bool.false_and, Bool.false_eq_true, if_false, Option.ite_none_left_eq_some] at h
        obtain ⟨-, hEq⟩ := h
        cases hEq
        exact ⟨rfl, rfl⟩
      · obtain ⟨-, -, rfl⟩ := step_acquire h (Bool.eq_true_of_not_eq_false hEnds) hCurrent
        rfl
  | resume backupRotate => exact ⟨fun _ => Or.inl (step_resume h).2, fun hEnds => absurd trivial hEnds⟩

open Transition in
/-- Two-window invariant. An item whose `add` or `applyEntry` returned normally is
reported in every state before the second rotation that completes after that
call. Each rotation promotes the current filter and starts an empty one by the step in which
it releases the mutex, and no other step counts as a completion. It says nothing about which
call is next to get the mutex. -/
theorem has_before_second_rotation (hLe : g.m ≤ 2 ^ 31) (numItems : Nat) (backup : Bool)
    (restoredCurrent restoredPrevious : Option (SizedFilter g)) :
    (∀ before s a x s' after t,
      Run (ofStep step) (start g numItems backup restoredCurrent restoredPrevious) before s →
      step s a = some s' → s.Inserts x a → Run (ofStep step) s' after t →
      t.completed < s'.completed + 2 → (t.manager.has x).2 = .ok true) ∧
    (∀ before s a s',
      Run (ofStep step) (start g numItems backup restoredCurrent restoredPrevious) before s →
      step s a = some s' →
      (s.Ends a → s'.suspended = false ∧ s'.completed = s.completed + 1 ∧
        s'.manager.previous = s.manager.current ∧
        s'.manager.current = some (SizedFilter.create g) ∧ (SizedFilter.create g).bits = ∅) ∧
      (¬ s.Ends a → s'.completed = s.completed)) := by
  constructor
  · intro before s a x s' after t hBefore hStep hInserts hAfter hFew
    have hCurrent : s.manager.current.isSome :=
      run_current hBefore (start_current numItems backup restoredCurrent restoredPrevious)
    obtain ⟨-, -, hHeld⟩ := run_holds hAfter (inserts_holds hStep hInserts hCurrent)
    rw [Manager.has_eq_ok (inserts_accepted hInserts).not_blank,
      (Manager.covers_iff (SizedFilter.addressable hLe x)).mpr (hHeld.covers (by omega))]
  · intro before s a s' hBefore hStep
    have hCurrent : s.manager.current.isSome :=
      run_current hBefore (start_current numItems backup restoredCurrent restoredPrevious)
    obtain ⟨hEnds, hOther⟩ := step_ends hStep hCurrent
    refine ⟨fun hEnd => ?_, hOther⟩
    rcases hEnds hEnd with rfl | ⟨hManager, hSuspended⟩
    · exact ⟨rfl, rfl, rfl, rfl, SizedFilter.bits_create g⟩
    · refine ⟨hSuspended, ?_, ?_, ?_, SizedFilter.bits_create g⟩
      · rw [completed, hManager]
        rfl
      · rw [hManager]
        rfl
      · rw [hManager]
        rfl

open Transition in
/-- The one-bucket filter, with one rotation that completes after the insertion of
`a` and an insertion of `b` while it is suspended. -/
theorem has_before_second_rotation_one_bucket :
    ∃ t : Rotations .oneBucket,
      exec step (start .oneBucket 1 true none none)
        [.add [97] (.ok ()), .timer, .acquire, .add [98] (.ok ()), .resume (.ok ())] = some t ∧
      (t.manager.has [97]).2 = .ok true := by
  refine ⟨_, rfl, ?_⟩
  exact (has_before_second_rotation (by decide) 1 true none none).1 [] _ (.add [97] (.ok ())) [97] _
    [.timer, .acquire, .add [98] (.ok ()), .resume (.ok ())] _ (Run.nil _) rfl
    ⟨rfl, by decide⟩ (run_of_exec rfl) (by decide)

end Rotations

end TokenRevoker
