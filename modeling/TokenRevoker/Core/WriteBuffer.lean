import TokenRevoker.Core.BackupManager
import TokenRevoker.Library.Transition

/-! The buffered mode of the backup manager. `#flushWriteBuffer` joins a copy of the
buffer, waits for the append, and then empties the buffer as it is by then. Flushes are
started by a timer and by the shutdown, so several may wait at the same time. -/
namespace TokenRevoker

open Text

/-- A backup manager in buffered mode, with what it has accepted so far. -/
structure WriteBuffer where
  backups : BackupManager
  disk : Disk
  /-- The items of each append that has not settled, in the order of the flushes. -/
  inFlight : List (List JsString) := []
  /-- The items of the appends that have succeeded. -/
  appended : List JsString := []
  accepted : List JsString := []

namespace WriteBuffer

inductive Action where
  | backupItem (filterItem : JsString)
  | flush
  | settle (append : Nat) (outcome : Except String Unit)

def start (maxBufferSize : Nat) (disk : Disk) : WriteBuffer where
  backups := { bufferEnabled := true, maxBufferSize := maxBufferSize }
  disk := disk

/-- What a flush appends to the temp file: the items joined by line breaks, and one more. An
item with a line break cannot be among them. -/
def flushData (items : List JsString) : JsString := [newline].intercalate items ++ [newline]

/-- A flush writes what its items would have written one by one. -/
theorem encodeUtf8_flushData {items : List JsString} (hItems : items ≠ []) :
    encodeUtf8 (flushData items) = encodeLines items := by
  induction items with
  | nil => exact absurd rfl hItems
  | cons x items ih =>
      cases items with
      | nil => simp [flushData, encodeLines]
      | cons y items =>
          have hJoin : flushData (x :: y :: items) = x ++ newline :: flushData (y :: items) := by
            simp [flushData, List.intercalate]
          rw [hJoin, encodeUtf8_append_newline, ih (by simp)]
          rfl

/-- One synchronous stretch of the program. A flush is cut at its `await`; an append
succeeds or fails as a whole. -/
def step (s : WriteBuffer) : Action → Option WriteBuffer
  | .backupItem filterItem =>
      match s.backups.backupItem s.disk [] filterItem with
      | (backups, disk, .ok ()) =>
        some { s with backups := backups, disk := disk, accepted := s.accepted ++ [filterItem] }
      | (backups, disk, .error _) => some { s with backups := backups, disk := disk }
  | .flush =>
      if s.backups.writeBuffer.isEmpty then some s
      else some { s with inFlight := s.inFlight ++ [s.backups.writeBuffer] }
  | .settle append outcome =>
      match s.inFlight[append]? with
      | none => none
      | some items =>
        let settled : WriteBuffer := { s with inFlight := s.inFlight.eraseIdx append }
        match outcome with
        | .ok () => some { settled with
            disk := { s.disk with temp := s.disk.temp ++ encodeUtf8 (flushData items) }
            backups := { s.backups with writeBuffer := [] }
            appended := s.appended ++ items }
        | .error _ => some settled

/-- The item is in an append that succeeded, or in one of these that have not settled. Whether
the second kind succeeds is open. -/
def Taken (s : WriteBuffer) (appends : List (List JsString)) (x : JsString) : Prop :=
  x ∈ s.appended ∨ ∃ items ∈ appends, x ∈ items

/-- Every accepted item is in the buffer, appended, or in an append that may still succeed. An
append that fails leaves this as it is only if something else has its items. -/
def Safe (s : WriteBuffer) : Prop :=
  ∀ x ∈ s.accepted, x ∈ s.backups.writeBuffer ∨ s.Taken s.inFlight x

/-- The append that settles lets go of nothing that is nowhere else: if it succeeds, the
buffer that it empties holds only its own items and items that other appends have; if
it fails, its items are still in the buffer or in other appends. -/
def Covered (s : WriteBuffer) : Action → Prop
  | .settle append outcome => ∀ items, s.inFlight[append]? = some items →
      match outcome with
      | .ok () => ∀ x ∈ s.backups.writeBuffer, x ∈ items ∨ s.Taken (s.inFlight.eraseIdx append) x
      | .error _ => ∀ x ∈ items, x ∈ s.backups.writeBuffer ∨ s.Taken (s.inFlight.eraseIdx append) x
  | _ => True

/-- Nothing is in the buffer or in an append that was not accepted. -/
structure Bounded (s : WriteBuffer) : Prop where
  buffered : s.backups.bufferEnabled = true
  buffer : ∀ x ∈ s.backups.writeBuffer, x ∈ s.accepted
  inFlight : ∀ items ∈ s.inFlight, ∀ x ∈ items, x ∈ s.accepted

variable {s t : WriteBuffer} {a : Action} {x : JsString}

/-- What one step can do in buffered mode. A refused item has not been accepted, and so is not
lost. -/
inductive Effect (s : WriteBuffer) : Action → WriteBuffer → Prop where
  | pushed (x : JsString) : Effect s (.backupItem x) { s with
      backups := { s.backups with writeBuffer := s.backups.writeBuffer ++ [x] }
      accepted := s.accepted ++ [x] }
  | refused (x : JsString) : Effect s (.backupItem x) s
  | idle : Effect s .flush s
  | started : Effect s .flush { s with inFlight := s.inFlight ++ [s.backups.writeBuffer] }
  | succeeded (append : Nat) (items : List JsString) (hAppend : s.inFlight[append]? = some items) :
      Effect s (.settle append (.ok ())) { s with
        inFlight := s.inFlight.eraseIdx append
        disk := { s.disk with temp := s.disk.temp ++ encodeUtf8 (flushData items) }
        backups := { s.backups with writeBuffer := [] }
        appended := s.appended ++ items }
  | failed (append : Nat) (items : List JsString) (message : String)
      (hAppend : s.inFlight[append]? = some items) :
      Effect s (.settle append (.error message)) { s with inFlight := s.inFlight.eraseIdx append }

theorem step_effect (hBuffered : s.backups.bufferEnabled = true) (h : step s a = some t) : Effect s a t := by
  cases a with
  | backupItem x =>
      rw [step, BackupManager.backupItem, if_pos hBuffered] at h
      split_ifs at h
      · cases h
        exact .refused x
      · cases h
        exact .pushed x
  | flush =>
      simp only [step] at h
      split_ifs at h
      · cases h
        exact .idle
      · cases h
        exact .started
  | settle append outcome =>
      simp only [step] at h
      split at h
      · cases h
      · rename_i items hAppend
        cases outcome with
        | ok =>
            cases h
            exact .succeeded append items hAppend
        | error message =>
            cases h
            exact .failed append items message hAppend

theorem bounded_start (maxBufferSize : Nat) (disk : Disk) : (start maxBufferSize disk).Bounded where
  buffered := rfl
  buffer := by simp [start]
  inFlight := by simp [start]

theorem Bounded.step (h : s.Bounded) (hStep : WriteBuffer.step s a = some t) : t.Bounded := by
  cases step_effect h.buffered hStep with
  | pushed x =>
      refine ⟨h.buffered, ?_, fun items hItems y hy => List.mem_append_left _ (h.inFlight items hItems y hy)⟩
      intro y hy
      rcases List.mem_append.mp hy with hOld | hNew
      · exact List.mem_append_left _ (h.buffer y hOld)
      · exact List.mem_append_right _ hNew
  | refused | idle => exact h
  | started =>
      refine ⟨h.buffered, h.buffer, ?_⟩
      intro items hItems y hy
      rcases List.mem_append.mp hItems with hOld | hNew
      · exact h.inFlight items hOld y hy
      · rw [List.mem_singleton.mp hNew] at hy
        exact h.buffer y hy
  | succeeded append items hAppend =>
      exact ⟨h.buffered, by simp, fun other hOther => h.inFlight other (List.mem_of_mem_eraseIdx hOther)⟩
  | failed append items message hAppend =>
      exact ⟨h.buffered, h.buffer, fun other hOther => h.inFlight other (List.mem_of_mem_eraseIdx hOther)⟩

/-- An append is the one that settles or one of the others. -/
theorem mem_inFlight_iff {append : Nat} {items : List JsString} (hAppend : s.inFlight[append]? = some items)
    (other : List JsString) :
    other ∈ s.inFlight ↔ other = items ∨ other ∈ s.inFlight.eraseIdx append := by
  obtain ⟨hLt, rfl⟩ := List.getElem?_eq_some_iff.mp hAppend
  exact ((List.getElem_cons_eraseIdx_perm hLt).mem_iff.symm).trans List.mem_cons

theorem taken_iff {append : Nat} {items : List JsString} (hAppend : s.inFlight[append]? = some items) :
    s.Taken s.inFlight x ↔ x ∈ items ∨ s.Taken (s.inFlight.eraseIdx append) x := by
  simp only [Taken, mem_inFlight_iff hAppend, or_and_right, exists_or, exists_eq_left]
  exact or_left_comm

/-- From a safe state, a step leads to a safe state exactly if it lets go of nothing. -/
theorem Safe.step_iff (hSafe : s.Safe) (hBounded : s.Bounded) (hStep : WriteBuffer.step s a = some t) :
    t.Safe ↔ s.Covered a := by
  cases step_effect hBounded.buffered hStep with
  | pushed y =>
      refine iff_of_true (fun x hx => ?_) trivial
      rcases List.mem_append.mp hx with hOld | hNew
      · exact (hSafe x hOld).imp_left (List.mem_append_left _)
      · exact Or.inl (List.mem_append_right _ hNew)
  | refused | idle => exact iff_of_true hSafe trivial
  | started =>
      refine iff_of_true (fun x hx => (hSafe x hx).imp_right ?_) trivial
      rintro (hAppended | ⟨items, hItems, hMem⟩)
      · exact Or.inl hAppended
      · exact Or.inr ⟨items, List.mem_append_left _ hItems, hMem⟩
  | succeeded append items hAppend =>
      have hAfter : ∀ y, (y ∈ s.appended ++ items ∨ ∃ other ∈ s.inFlight.eraseIdx append, y ∈ other) ↔
          y ∈ items ∨ s.Taken (s.inFlight.eraseIdx append) y := by
        intro y
        rw [List.mem_append, or_right_comm, or_comm]
        exact Iff.rfl
      constructor
      · intro hAfterSafe other hOther y hy
        obtain rfl := Option.some.inj (hAppend.symm.trans hOther)
        exact (hAfter y).mp ((hAfterSafe y (hBounded.buffer y hy)).resolve_left List.not_mem_nil)
      · intro hCovered y hy
        refine Or.inr ((hAfter y).mpr ?_)
        rcases hSafe y hy with hBuffer | hTaken
        · exact hCovered items hAppend y hBuffer
        · exact (taken_iff hAppend).mp hTaken
  | failed append items message hAppend =>
      constructor
      · intro hAfterSafe other hOther y hy
        obtain rfl := Option.some.inj (hAppend.symm.trans hOther)
        exact hAfterSafe y (hBounded.inFlight items (List.mem_of_getElem? hAppend) y hy)
      · intro hCovered y hy
        rcases hSafe y hy with hBuffer | hTaken
        · exact Or.inl hBuffer
        · rcases (taken_iff hAppend).mp hTaken with hItems | hOthers
          · exact hCovered items hAppend y hItems
          · exact Or.inr hOthers

theorem exec_bounded {maxBufferSize : Nat} {disk : Disk} {actions : List Action}
    (h : Transition.exec step (start maxBufferSize disk) actions = some s) : s.Bounded :=
  (Transition.run_of_exec h).invariant (fun _ _ _ hBounded hStep => hBounded.step hStep)
    (bounded_start maxBufferSize disk)

theorem safe_start (maxBufferSize : Nat) (disk : Disk) : (start maxBufferSize disk).Safe := by
  intro x hx
  cases hx

/-- Every append that has not settled has a copy of the buffer as it still is, or has
items that another append has written, the buffer being empty. -/
def Alike (s : WriteBuffer) : Prop :=
  ∀ items ∈ s.inFlight,
    items = s.backups.writeBuffer ∨ s.backups.writeBuffer = [] ∧ ∀ x ∈ items, x ∈ s.appended

theorem Alike.covered (h : s.Alike) (a : Action) : s.Covered a := by
  cases a with
  | backupItem | flush => trivial
  | settle append outcome =>
      intro items hItems
      have hCopy := h items (List.mem_of_getElem? hItems)
      cases outcome with
      | ok =>
          intro x hx
          rcases hCopy with rfl | ⟨hEmpty, -⟩
          · exact Or.inl hx
          · rw [hEmpty] at hx
            exact absurd hx List.not_mem_nil
      | error message =>
          intro x hx
          rcases hCopy with rfl | ⟨-, hAppended⟩
          · exact Or.inl hx
          · exact Or.inr (Or.inl (hAppended x hx))

theorem Alike.step (h : s.Alike) (hBounded : s.Bounded) (hStep : WriteBuffer.step s a = some t)
    (hAlone : s.inFlight = [] ∨ t.accepted = s.accepted) : t.Alike := by
  cases step_effect hBounded.buffered hStep with
  | pushed x =>
      rcases hAlone with hNone | hSame
      · intro items hItems
        exact absurd (hNone ▸ hItems) List.not_mem_nil
      · exact absurd hSame (by simp)
  | refused | idle => exact h
  | started =>
      intro items hItems
      rcases List.mem_append.mp hItems with hOld | hNew
      · exact h items hOld
      · exact Or.inl (List.mem_singleton.mp hNew)
  | succeeded append items hAppend =>
      have hCopy := h items (List.mem_of_getElem? hAppend)
      intro other hOther
      refine Or.inr ⟨rfl, fun x hx => ?_⟩
      rcases h other (List.mem_of_mem_eraseIdx hOther) with rfl | ⟨-, hAppended⟩
      · rcases hCopy with rfl | ⟨hEmpty, -⟩
        · exact List.mem_append_right _ hx
        · rw [hEmpty] at hx
          exact absurd hx List.not_mem_nil
      · exact List.mem_append_left _ (hAppended x hx)
  | failed append items message hAppend =>
      exact fun other hOther => h other (List.mem_of_mem_eraseIdx hOther)

/-- Where no item is accepted while an append waits, no append lets go of one, however many
flushes overlap. Items may still be accepted between a failed append and the next flush. -/
theorem covered_of_alone {maxBufferSize : Nat} {disk : Disk} {actions : List Action}
    (hAlone : ∀ before a, before ++ [a] <+: actions → ∀ s t,
      Transition.exec step (start maxBufferSize disk) before = some s → step s a = some t →
        s.inFlight = [] ∨ t.accepted = s.accepted) :
    ∀ before a, before ++ [a] <+: actions → ∀ s,
      Transition.exec step (start maxBufferSize disk) before = some s → s.Covered a := by
  have hAlike : ∀ before, before <+: actions → ∀ s,
      Transition.exec step (start maxBufferSize disk) before = some s → s.Alike := by
    intro before
    induction before using List.reverseRecOn with
    | nil =>
        intro _ s hExec
        cases hExec
        exact fun items hItems => absurd hItems List.not_mem_nil
    | append_singleton before a ih =>
        intro hPrefix s hExec
        rw [Transition.exec_append] at hExec
        obtain ⟨middle, hMiddle, hLast⟩ := Option.bind_eq_some_iff.mp hExec
        obtain ⟨t, hStep, hEq⟩ := Option.bind_eq_some_iff.mp hLast
        cases hEq
        have hBefore := ih ((List.prefix_append before [a]).trans hPrefix) middle hMiddle
        exact hBefore.step (exec_bounded hMiddle) hStep (hAlone before a hPrefix middle s hMiddle hStep)
  intro before a hPrefix s hExec
  exact (hAlike before ((List.prefix_append before [a]).trans hPrefix) s hExec).covered a

/-- A run of pushes and flushes, however they overlap and settle, loses no accepted item in any
of its states exactly if none of its appends lets go of one when it settles. An append writes
all of its items or fails and writes none; a crash is no part of these runs. -/
theorem safe_iff_covered (maxBufferSize : Nat) (disk : Disk) (actions : List Action) :
    (∀ before, before <+: actions → ∀ s,
      Transition.exec step (start maxBufferSize disk) before = some s → s.Safe) ↔
      ∀ before a, before ++ [a] <+: actions → ∀ s,
        Transition.exec step (start maxBufferSize disk) before = some s → s.Covered a := by
  constructor
  · intro hSafe before a hPrefix s hExec
    have hBefore := hSafe before ((List.prefix_append before [a]).trans hPrefix) s hExec
    cases hStep : step s a with
    | some t =>
        refine (hBefore.step_iff (exec_bounded hExec) hStep).mp (hSafe _ hPrefix t ?_)
        rw [Transition.exec_append, hExec, Option.bind_some, Transition.exec, hStep]
        rfl
    | none =>
        cases a with
        | backupItem | flush => trivial
        | settle append outcome =>
            intro items hItems
            simp only [step, hItems] at hStep
            cases outcome <;> cases hStep
  · intro hCovered before
    induction before using List.reverseRecOn with
    | nil =>
        intro _ s hExec
        cases hExec
        exact safe_start maxBufferSize disk
    | append_singleton before a ih =>
        intro hPrefix s hExec
        rw [Transition.exec_append] at hExec
        obtain ⟨middle, hMiddle, hStep⟩ := Option.bind_eq_some_iff.mp hExec
        obtain ⟨t, hStep, hEq⟩ := Option.bind_eq_some_iff.mp hStep
        cases hEq
        have hBefore := ih ((List.prefix_append before [a]).trans hPrefix) middle hMiddle
        exact (hBefore.step_iff (exec_bounded hMiddle) hStep).mpr (hCovered before a hPrefix middle hMiddle)

/-- An item that is accepted while an append waits is dropped when the append succeeds. -/
theorem not_safe_push_while_flushing :
    ¬ ∀ (maxBufferSize : Nat) (disk : Disk) (actions : List Action) (s : WriteBuffer),
      Transition.exec step (start maxBufferSize disk) actions = some s → s.Safe := by
  intro h
  have hSafe := h 100 {} [.backupItem [0x61], .flush, .backupItem [0x62], .settle 0 (.ok ())] _ rfl [0x62]
    (by decide)
  rcases hSafe with hBuffer | hAppended | ⟨items, hItems, -⟩
  · exact absurd hBuffer (by decide)
  · exact absurd hAppended (by decide)
  · exact absurd hItems List.not_mem_nil

end WriteBuffer

end TokenRevoker
