import TokenRevoker.Core.Store
import TokenRevoker.Library.TornLines

/-! What a restart replays of the write-ahead log in synchronous mode. The log is text, so
a lone surrogate comes back as U+FFFD; and a line that is appended behind the fragment of
another comes back as the end of that one. -/
namespace TokenRevoker

open Text

variable {g : Geometry}

/-- Several calls of `add` in turn, up to the first that throws. -/
def Store.addAll (s : Store g) : List JsString → Except RevokerError (Store g)
  | [] => .ok s
  | filterItem :: rest =>
      match s.add [] filterItem with
      | (_, .error error) => .error error
      | (t, .ok ()) => t.addAll rest

namespace Store

variable {s t : Store g} {values : List JsString}

theorem addAll_temp (hSync : s.backups.bufferEnabled = false) (h : s.addAll values = .ok t) :
    (∀ x ∈ values, Acceptable x) ∧ t.disk.temp = s.disk.temp ++ encodeLines values := by
  induction values generalizing s with
  | nil =>
      cases h
      simp [encodeLines]
  | cons x rest ih =>
      rw [addAll] at h
      split at h
      · cases h
      · rename_i middle hAdd
        have hOk : (s.add [] x).2 = .ok () := by rw [hAdd]
        obtain ⟨hItem, manager, -, hEq⟩ := add_of_ok hSync hOk
        rw [hAdd] at hEq
        dsimp only at hEq
        obtain ⟨hRest, hTemp⟩ := ih (s := middle) (by rw [hEq]; exact hSync) h
        refine ⟨List.forall_mem_cons.mpr ⟨hItem, hRest⟩, ?_⟩
        rw [hTemp, hEq, List.append_assoc, ← encodeLines_append]
        rfl

/-- Strings that were all accepted come back from an empty log as they are, in order, exactly if
none of them has a lone surrogate, which is read back as the replacement character. -/
theorem addAll_replayed_iff (hSync : s.backups.bufferEnabled = false) (hTemp : s.disk.temp = [])
    (h : s.addAll values = .ok t) : tempItems t.disk.temp = values ↔ ∀ x ∈ values, IsWellFormed x := by
  obtain ⟨hItems, hLog⟩ := addAll_temp hSync h
  rw [hLog, hTemp, List.nil_append, tempItems_encodeLines hItems]
  nth_rewrite 2 [← List.map_id values]
  exact List.map_inj_left

/-- One accepted item is replayed as it is. -/
theorem addAll_replayed_iff_one : ∃ t, (boot .oneBucket 1 false {}).addAll [[97]] = .ok t ∧
    (tempItems t.disk.temp = [[97]] ↔ ∀ x ∈ [[97]], IsWellFormed x) :=
  ⟨_, rfl, addAll_replayed_iff (s := boot .oneBucket 1 false {}) rfl rfl rfl⟩

/-- A lone surrogate is accepted, and replayed as U+FFFD. -/
theorem not_replayed_lone_surrogate : ∃ t, (boot Geometry.oneBucket 1 false {}).addAll [[0xD800]] = .ok t ∧
    tempItems t.disk.temp = [[0xFFFD]] :=
  ⟨_, rfl, by decide +kernel⟩

end Store

/-- `appendWithRetries` meets a failure on each of its attempts, or one succeeds; what the
failed attempts left of the line stays in the file either way. -/
def fragments (line : Bytes) (failures : List AppendFailure) : Bytes :=
  failures.flatMap fun failure => line.take failure.persisted

theorem appendWithRetries_of_le (line : Bytes) {retries : Nat} {failures : List AppendFailure}
    (h : failures.length ≤ retries) (temp : Bytes) :
    appendWithRetries line retries failures temp = (temp ++ fragments line failures ++ line, .ok ()) := by
  induction failures generalizing retries temp with
  | nil => simp [appendWithRetries, fragments]
  | cons failure rest ih =>
      cases retries with
      | zero => simp at h
      | succ retries =>
          rw [appendWithRetries, ih (by simpa using h)]
          simp [fragments]

theorem appendWithRetries_of_lt (line : Bytes) {retries : Nat} {failures : List AppendFailure}
    (h : retries < failures.length) (temp : Bytes) :
    ∃ message, appendWithRetries line retries failures temp =
      (temp ++ fragments line (failures.take (retries + 1)), .error message) := by
  induction failures generalizing retries temp with
  | nil => simp at h
  | cons failure rest ih =>
      cases retries with
      | zero => exact ⟨failure.message, by simp [appendWithRetries, fragments]⟩
      | succ retries =>
          obtain ⟨message, hRest⟩ := ih (by simpa using h) (temp ++ line.take failure.persisted)
          exact ⟨message, by rw [appendWithRetries, hRest]; simp [fragments]⟩

/-- The line that `backupItem` appends. -/
def lineOf (filterItem : JsString) : Bytes := encodeUtf8 (filterItem ++ [newline])

namespace Store

/-- The guards of `add` let the item pass, and one of the three attempts succeeds. -/
def Returns (s : Store g) (filterItem : JsString) (failures : List AppendFailure) : Prop :=
  Acceptable filterItem ∧ s.manager.shuttingDown = false ∧ s.manager.saturated = false ∧
    failures.length ≤ 2

instance (s : Store g) (filterItem : JsString) (failures : List AppendFailure) :
    Decidable (s.Returns filterItem failures) :=
  inferInstanceAs (Decidable (_ ∧ _ ∧ _ ∧ _))

/-- What a call of `add` does to the log, and whether it returns normally. -/
theorem add_log {s : Store g} (hSync : s.backups.bufferEnabled = false) (filterItem : JsString)
    (failures : List AppendFailure) :
    (s.add failures filterItem).1.backups = s.backups ∧
    ((s.add failures filterItem).2 = .ok () ↔ s.Returns filterItem failures) ∧
    (s.Returns filterItem failures → (s.add failures filterItem).1.disk.temp =
      s.disk.temp ++ fragments (lineOf filterItem) failures ++ lineOf filterItem) ∧
    s.disk.temp <+: (s.add failures filterItem).1.disk.temp := by
  unfold add
  rcases hAdd : s.manager.add (.ok ()) filterItem with ⟨manager, error | _⟩
  · have hNot : ¬ s.Returns filterItem failures := fun h => by
      have hOk := Manager.add_eq_ok_iff.mpr ⟨h.1, h.2.1, h.2.2.1, rfl⟩
      rw [hAdd] at hOk
      cases hOk
    simp [hNot]
  · obtain ⟨hItem, hShut, hSat, -⟩ := Manager.add_eq_ok_iff.mp (by rw [hAdd])
    simp only [BackupManager.backupItem, hSync, Bool.false_eq_true, if_false]
    rcases Nat.lt_or_ge 2 failures.length with hMany | hFew
    · obtain ⟨message, hFail⟩ := appendWithRetries_of_lt (lineOf filterItem) hMany s.disk.temp
      have hNot : ¬ s.Returns filterItem failures := fun h => absurd h.2.2.2 (by omega)
      have hError : (s.manager.add (.error message) filterItem).2 ≠ .ok () := fun h => by
        have := (Manager.add_eq_ok_iff.mp h).2.2.2
        cases this
      rw [lineOf] at hFail
      simp [hFail, hNot, hError]
    · have hRetry := appendWithRetries_of_le (lineOf filterItem) hFew s.disk.temp
      have hReturns : s.Returns filterItem failures := ⟨hItem, hShut, hSat, hFew⟩
      rw [lineOf] at hRetry
      simp [hRetry, hAdd, hReturns, lineOf]

end Store

namespace WalReplay

/-- One instance in synchronous mode between two full backups, over its restarts, with the
items whose `add` returned normally. -/
structure Session (g : Geometry) where
  store : Store g
  returned : List JsString := []

/-- A call of `add` with its failed attempts, or a crash in one: behind what the failed
attempts left stand the first bytes of the attempt that was cut off. -/
inductive Action where
  | add (filterItem : JsString) (failures : List AppendFailure)
  | crash (filterItem : JsString) (failures : List AppendFailure) (cut : Nat)

/-- Every failed attempt and the one that is cut off leave a proper prefix of the line. -/
def Action.Proper : Action → Prop
  | .add filterItem failures => ∀ failure ∈ failures, failure.persisted < (lineOf filterItem).length
  | .crash filterItem failures cut =>
      failures.length ≤ 2 ∧ (∀ failure ∈ failures, failure.persisted < (lineOf filterItem).length) ∧
        cut < (lineOf filterItem).length

instance : (action : Action) → Decidable action.Proper
  | .add filterItem failures => inferInstanceAs
      (Decidable (∀ failure ∈ failures, failure.persisted < (lineOf filterItem).length))
  | .crash _ _ _ => inferInstanceAs (Decidable (_ ∧ (∀ _ ∈ _, _) ∧ _))

def start (g : Geometry) (numItems : Nat) (disk : Disk) : Session g :=
  { store := .boot g numItems false disk }

/-- The files as a crash in the middle of `add` leaves them. What had been appended of the line
so far is there. -/
def interrupted (s : Store g) (filterItem : JsString) (failures : List AppendFailure) (cut : Nat) : Disk :=
  match (s.manager.add (.ok ()) filterItem).2 with
  | .error _ => s.disk
  | .ok () =>
      { s.disk with
        temp := s.disk.temp ++ fragments (lineOf filterItem) failures ++ (lineOf filterItem).take cut }

namespace Session

def step (s : Session g) : Action → Session g
  | .add filterItem failures =>
      match s.store.add failures filterItem with
      | (store, .ok ()) => ⟨store, s.returned ++ [filterItem]⟩
      | (store, .error _) => ⟨store, s.returned⟩
  | .crash filterItem failures cut =>
      { s with
        store := .boot g s.store.manager.numItems false (interrupted s.store filterItem failures cut) }

def run (s : Session g) (actions : List Action) : Session g := actions.foldl step s

/-- A restart now would replay every item whose `add` returned normally. What was not
acknowledged may be replayed as well. -/
def Replays (s : Session g) : Prop := ∀ x ∈ s.returned, x ∈ tempItems s.store.disk.temp

instance (s : Session g) : Decidable s.Replays :=
  inferInstanceAs (Decidable (∀ x ∈ s.returned, x ∈ tempItems s.store.disk.temp))

/-- The line of an item that is about to be logged is not appended to a fragment and has no
lone surrogate, or the log has the item already. -/
def Clean (s : Session g) : Action → Prop
  | .add filterItem failures =>
      s.store.Returns filterItem failures →
        filterItem ∈ wholeLines (s.store.disk.temp ++ fragments (lineOf filterItem) failures) ∨
          IsWellFormed filterItem ∧
            EndsLine (s.store.disk.temp ++ fragments (lineOf filterItem) failures)
  | .crash _ _ _ => True

end Session

/-- A line that was just appended is read back exactly if it stands alone. -/
theorem mem_wholeLines_append_line {found : Bytes} {x : JsString} (hx : Acceptable x) :
    x ∈ wholeLines (found ++ lineOf x) ↔ x ∈ wholeLines found ∨ IsWellFormed x ∧ EndsLine found := by
  obtain ⟨whole, fragment, rfl, hWhole, hFragment⟩ := exists_fragment found
  rw [lineOf, wholeLines_append_line hWhole hFragment hx.newline_not_mem, endsLine_append_iff hWhole hFragment,
    wholeLines_append_of_endsLine hWhole, wholeLines_of_not_mem hFragment, List.append_nil, List.mem_append,
    List.mem_singleton]
  refine or_congr_right ⟨fun h => ?_, fun ⟨hForm, hNil⟩ => ?_⟩
  · -- the fragment only makes the line longer, so there is none
    have hLength := congrArg List.length h
    rw [List.length_append, length_toWellFormed] at hLength
    have hNil : decodeUtf8 fragment = [] := List.length_eq_zero_iff.mp (by omega)
    rw [hNil, List.nil_append] at h
    exact ⟨h.symm, decodeUtf8_eq_nil_iff.mp hNil⟩
  · rw [hNil, hForm]
    rfl

theorem mem_tempItems {temp : Bytes} {x : JsString} (hx : Acceptable x) (h : x ∈ wholeLines temp) :
    x ∈ tempItems temp := by
  rw [tempItems, List.mem_filter, hx.not_blank]
  exact ⟨List.mem_of_mem_dropLast h, rfl⟩

theorem mem_wholeLines {temp : Bytes} {x : JsString} (hx : Acceptable x) (hEnds : EndsLine temp)
    (h : x ∈ tempItems temp) : x ∈ wholeLines temp := by
  have hLine := (List.mem_filter.mp h).1
  rw [readLines_of_endsLine hEnds, List.mem_append, List.mem_singleton] at hLine
  exact hLine.resolve_right hx.ne_nil

namespace Session

variable {s : Session g}

/-- What one action does: the log grows at its end, and an `add` that returns has written
its line there. -/
theorem step_log (hSync : s.store.backups.bufferEnabled = false) (a : Action) :
    (s.step a).store.backups.bufferEnabled = false ∧
    s.store.disk.temp <+: (s.step a).store.disk.temp ∧
    ((s.step a).returned = s.returned ∧ (∀ x failures, a = .add x failures → ¬ s.store.Returns x failures) ∨
      ∃ x failures, a = .add x failures ∧ s.store.Returns x failures ∧
        (s.step a).returned = s.returned ++ [x] ∧
        (s.step a).store.disk.temp = s.store.disk.temp ++ fragments (lineOf x) failures ++ lineOf x) := by
  cases a with
  | add x failures =>
      obtain ⟨hBackups, hOk, hTemp, hPrefix⟩ := Store.add_log hSync x failures
      by_cases h : s.store.Returns x failures
      · have hAdd := hOk.mpr h
        have hStep : s.step (.add x failures) = ⟨(s.store.add failures x).1, s.returned ++ [x]⟩ := by
          rw [step]
          split <;> simp_all
        rw [hStep]
        exact ⟨by rw [hBackups, hSync], hPrefix, .inr ⟨x, failures, rfl, h, rfl, hTemp h⟩⟩
      · have hAdd := fun hEq => h (hOk.mp hEq)
        have hStep : s.step (.add x failures) = ⟨(s.store.add failures x).1, s.returned⟩ := by
          rw [step]
          split <;> simp_all
        rw [hStep]
        refine ⟨by rw [hBackups, hSync], hPrefix, .inl ⟨rfl, ?_⟩⟩
        rintro _ _ ⟨⟩
        exact h
  | crash x failures cut =>
      refine ⟨rfl, ?_, .inl ⟨rfl, by simp⟩⟩
      change s.store.disk.temp <+: (interrupted s.store x failures cut).temp
      unfold interrupted
      split
      · exact List.prefix_refl _
      · rw [List.append_assoc]
        exact List.prefix_append _ _

/-- Every item whose `add` returned normally has a line of its own in the log. A fragment that
shares its line with an item spoils both. -/
structure Logged (s : Session g) : Prop where
  sync : s.store.backups.bufferEnabled = false
  lines : ∀ x ∈ s.returned, Acceptable x ∧ x ∈ wholeLines s.store.disk.temp

theorem Logged.replays (h : s.Logged) : s.Replays := fun x hx =>
  mem_tempItems (h.lines x hx).1 (h.lines x hx).2

theorem Logged.step (h : s.Logged) {a : Action} (hClean : s.Clean a) : (s.step a).Logged := by
  obtain ⟨hSync, hPrefix, hReturned⟩ := step_log h.sync a
  have hKeep : ∀ x ∈ s.returned, Acceptable x ∧ x ∈ wholeLines (s.step a).store.disk.temp := by
    intro x hx
    obtain ⟨rest, hRest⟩ := hPrefix
    refine ⟨(h.lines x hx).1, ?_⟩
    rw [← hRest]
    exact (wholeLines_isPrefix _ rest).subset (h.lines x hx).2
  rcases hReturned with ⟨hSame, -⟩ | ⟨x, failures, rfl, hReturns, hMore, hTemp⟩
  · exact ⟨hSync, by rwa [hSame]⟩
  · refine ⟨hSync, fun y hy => ?_⟩
    rw [hMore, List.mem_append, List.mem_singleton] at hy
    rcases hy with hy | rfl
    · exact hKeep y hy
    · refine ⟨hReturns.1, ?_⟩
      rw [hTemp, mem_wholeLines_append_line hReturns.1]
      exact hClean hReturns

/-- An item that is replayed right after its `add` returned was logged cleanly. -/
theorem clean_of_replays (hSync : s.store.backups.bufferEnabled = false) {a : Action}
    (h : (s.step a).Replays) : s.Clean a := by
  cases a with
  | crash => trivial
  | add x failures =>
      intro hReturns
      rcases (step_log hSync (.add x failures)).2.2 with ⟨-, hNot⟩ | ⟨_, _, ⟨⟩, -, hMore, hTemp⟩
      · exact absurd hReturns (hNot x failures rfl)
      · have hMem := h x (by simp [hMore])
        rw [hTemp] at hMem
        rw [← mem_wholeLines_append_line hReturns.1]
        exact mem_wholeLines hReturns.1 (endsLine_append_line _ x) hMem

theorem run_sync (hSync : s.store.backups.bufferEnabled = false) (actions : List Action) :
    (s.run actions).store.backups.bufferEnabled = false := by
  induction actions generalizing s with
  | nil => exact hSync
  | cons a rest ih => exact ih (step_log hSync a).1

theorem run_append_singleton (s : Session g) (actions : List Action) (a : Action) :
    s.run (actions ++ [a]) = (s.run actions).step a := by
  simp [run]

end Session

/-- At every point of a run a restart replays all that was acknowledged, exactly if every line
was appended where a line begins. That it replays nothing else is not said: a line whose
append failed behind its last byte is in the log. -/
theorem replays_iff (numItems : Nat) (disk : Disk) (actions : List Action) :
    (∀ done, done <+: actions → ((start g numItems disk).run done).Replays) ↔
      ∀ done a, done ++ [a] <+: actions → ((start g numItems disk).run done).Clean a := by
  constructor
  · intro h done a hPrefix
    have hReplays := h _ hPrefix
    rw [Session.run_append_singleton] at hReplays
    exact Session.clean_of_replays (Session.run_sync rfl done) hReplays
  · intro h done hPrefix
    suffices hLogged : ((start g numItems disk).run done).Logged from hLogged.replays
    induction done using List.reverseRecOn with
    | nil => exact ⟨rfl, by simp [start, Session.run]⟩
    | append_singleton done a ih =>
        rw [Session.run_append_singleton]
        exact (ih ((List.prefix_append _ _).trans hPrefix)).step (h done a hPrefix)

/-- The first attempt of an `add` fails after one byte; the second returns normally. The byte of
the first attempt stands before the line of the second. -/
theorem not_replays_torn_attempt :
    (∀ a ∈ [Action.add [97, 98] [⟨1, "EIO"⟩]], a.Proper) ∧
      ¬ ((start .oneBucket 1 {}).run [.add [97, 98] [⟨1, "EIO"⟩]]).Replays := by
  decide +kernel

end WalReplay

end TokenRevoker
