import TokenRevoker.Core.AdminService

/-! The resets of the RevokerAdmin service: a call that begins one is answered once, and the
reset is made once, in whichever order. It may fail, and then the answer says so if the timer
has not come first. -/
namespace TokenRevoker

open Text Transition

namespace AdminService

variable {s t : AdminService} {i : Nat} {r : AdminRevoker}

/-- How often a call has reset a revoker. A reset that threw on its way counts as well: it has
had the mutex. -/
def ResetCall.made (i : Nat) (call : ResetCall) : Nat :=
  if call.performed.isSome = true ∧ call.revoker = i then 1 else 0

/-- The answer to a call whose reset has gone this way. The timer may have won the race before,
after or instead of the reset. -/
inductive ResetCall.AnsweredBy (call : ResetCall) : Answer → Prop where
  | inTime (result : Except String Unit) (performed : call.performed = some result) :
      AnsweredBy call (call.reply result)
  | timeout : AnsweredBy call (.error ⟨.internal, "Timeout"⟩)

/-- A reset that was made is answered, and every answer but the timeout says how it went. A
reset that was not made may have been answered too, with the timeout. -/
structure ResetCall.Settled (call : ResetCall) : Prop where
  answered : call.performed.isSome = true → call.answer.isSome = true
  answer : ∀ answer, call.answer = some answer → call.AnsweredBy answer

/-- What is decided about a reset stays so. What is still open may be decided later. -/
structure ResetCall.Upheld (call later : ResetCall) : Prop where
  revoker : later.revoker = call.revoker
  performed : ∀ result, call.performed = some result → later.performed = some result
  answer : ∀ answer, call.answer = some answer → later.answer = some answer

/-- A revoker is reset by the resets that calls have begun, once by each. This is what every
state of a run satisfies; that each reset is made in the end is no part of it. -/
structure Tallied (s : AdminService) : Prop where
  resets : ∀ {i : Nat} {r : AdminRevoker}, s.revokers[i]? = some r →
    r.resets = (s.resets.map (ResetCall.made i)).sum
  revoker : ∀ call ∈ s.resets, call.revoker < s.revokers.length
  settled : ∀ call ∈ s.resets, call.Settled

/-- What steps other than a reset and its timer do to the resets. -/
structure Idle (s t : AdminService) : Prop where
  length : t.revokers.length = s.revokers.length
  revokers : ∀ {i : Nat} {r' : AdminRevoker}, t.revokers[i]? = some r' →
    ∃ r, s.revokers[i]? = some r ∧ r'.resets = r.resets
  resets : t.resets = s.resets ∨ ∃ i message failure, i < s.revokers.length ∧
    t.resets = s.resets ++ [{ revoker := i, message := message, failure := failure }]

theorem Idle.same (hRevokers : t.revokers = s.revokers) (hResets : t.resets = s.resets) : Idle s t :=
  ⟨by rw [hRevokers], fun h => ⟨_, hRevokers ▸ h, rfl⟩, Or.inl hResets⟩

theorem Idle.set (hGet : s.revokers[i]? = some r) {later : AdminRevoker} (hResets : later.resets = r.resets) :
    Idle s (s.setRevoker i later) := by
  refine ⟨by rw [setRevoker, List.length_set], fun {j r'} h => ?_, Or.inl rfl⟩
  rcases Positions.getElem?_set_cases h with ⟨rfl, rfl⟩ | ⟨-, hOld⟩
  · exact ⟨r, hGet, hResets⟩
  · exact ⟨r', hOld, rfl⟩

theorem Idle.begin (h : Idle s t) (hResets : t.resets = s.resets) (hLt : i < s.revokers.length)
    (message failure : String) : Idle s (t.beginReset i message failure) :=
  ⟨h.length, h.revokers, Or.inr ⟨i, message, failure, hLt, by rw [beginReset, hResets]⟩⟩

theorem onManager_idle (s : AdminService) (revokerId item : JsString)
    (use : (r : AdminRevoker) → Manager r.geometry × Except RevokerError Reply) :
    Idle s (s.onManager revokerId item use).1 := by
  rcases s.onManager_cases revokerId item use with ⟨error, hRefused⟩ | ⟨hItem, i, r, hFound⟩
  · rw [hRefused]
    exact .same rfl rfl
  · rw [onManager_eq hItem hFound]
    exact .set (findInstance_some hFound).1 rfl

theorem call_idle (s : AdminService) (rpc : Rpc) : Idle s (s.call rpc).1 := by
  cases rpc with
  | add revokerId item backupItem => exact s.onManager_idle revokerId item _
  | has revokerId item => exact s.onManager_idle revokerId item _
  | listRevokers => exact .same rfl rfl
  | resetAndRestore revokerId =>
      rw [call, resetAndRestore]
      cases hFound : s.findInstance revokerId with
      | none => exact .same rfl rfl
      | some found =>
          have hLt := (List.getElem?_eq_some_iff.mp (findInstance_some hFound).1).1
          exact (Idle.same rfl rfl).begin rfl hLt _ _
  | resetAndClearData revokerId deletions =>
      rw [call, resetAndClearData]
      cases hFound : s.findInstance revokerId with
      | none => exact .same rfl rfl
      | some found =>
          have hGet := (findInstance_some hFound).1
          dsimp only
          cases found.2.rotations.persist deletions with
          | error message => exact .same rfl rfl
          | ok done =>
              have hForgotten : Idle s (s.setRevoker found.1 found.2.forget) := .set hGet rfl
              exact hForgotten.begin rfl (List.getElem?_eq_some_iff.mp hGet).1 _ _

theorem Idle.tallied (h : Idle s t) (hTallied : s.Tallied) : t.Tallied := by
  rcases h.resets with hResets | ⟨i, message, failure, hLt, hResets⟩
  · refine ⟨fun hGet => ?_, fun call hMem => ?_, fun call hMem => hTallied.settled call (hResets ▸ hMem)⟩
    · obtain ⟨r, hOld, hSame⟩ := h.revokers hGet
      rw [hSame, hResets, hTallied.resets hOld]
    · rw [h.length]
      exact hTallied.revoker call (hResets ▸ hMem)
  · have hNew : ∀ call ∈ t.resets, call ∈ s.resets ∨
        call = { revoker := i, message := message, failure := failure } := by
      rw [hResets]
      exact fun call hMem => (List.mem_append.mp hMem).imp_right List.mem_singleton.mp
    refine ⟨fun {j} r' hGet => ?_, fun call hMem => ?_, fun call hMem => ?_⟩
    · obtain ⟨r, hOld, hSame⟩ := h.revokers hGet
      rw [hSame, hResets, List.map_append, List.sum_append, ← hTallied.resets hOld]
      simp [ResetCall.made]
    · rw [h.length]
      rcases hNew call hMem with hOld | rfl
      · exact hTallied.revoker call hOld
      · exact hLt
    · rcases hNew call hMem with hOld | rfl
      · exact hTallied.settled call hOld
      · exact ⟨by simp, by simp⟩

theorem Idle.upheld (h : Idle s t) {k : Nat} {call : ResetCall} (hCall : s.resets[k]? = some call) :
    t.resets[k]? = some call := by
  rcases h.resets with hResets | ⟨i, message, failure, -, hResets⟩
  · rw [hResets, hCall]
  · rw [hResets]
    exact Positions.getElem?_append_of_eq_some hCall _

/-- The critical section of a reset. -/
theorem Tallied.reset (h : s.Tallied) {k : Nat} {call : ResetCall} (hCall : s.resets[k]? = some call)
    (hPending : call.performed = none) (hGet : s.revokers[call.revoker]? = some r) {later : AdminRevoker}
    (hLater : later.resets = r.resets + 1) (result : Except String Unit) :
    Tallied { s.setRevoker call.revoker later with
      resets := s.resets.set k { call with
        performed := some result
        answer := call.answer <|> some (call.reply result) } } := by
  have hSum : ∀ i, (s.resets.set k { call with
      performed := some result
      answer := call.answer <|> some (call.reply result) } |>.map (ResetCall.made i)).sum =
        (s.resets.map (ResetCall.made i)).sum + if call.revoker = i then 1 else 0 := by
    intro i
    have hSet := Positions.sum_map_set (ResetCall.made i) hCall { call with
      performed := some result
      answer := call.answer <|> some (call.reply result) }
    simpa [ResetCall.made, hPending] using hSet
  have hMem := List.mem_of_getElem? hCall
  refine ⟨fun {i} r' hOld => ?_, fun other hOther => ?_, fun other hOther => ?_⟩
  · rw [hSum]
    rcases Positions.getElem?_set_cases hOld with ⟨rfl, rfl⟩ | ⟨hNe, hOld⟩
    · rw [hLater, h.resets hGet, if_pos rfl]
    · rw [h.resets hOld, if_neg (Ne.symm hNe), Nat.add_zero]
  · rw [setRevoker, List.length_set]
    rcases List.mem_or_eq_of_mem_set hOther with hOld | rfl
    · exact h.revoker other hOld
    · exact h.revoker call hMem
  · rcases List.mem_or_eq_of_mem_set hOther with hOld | rfl
    · exact h.settled other hOld
    · have hSettled := h.settled call hMem
      cases hAnswer : call.answer with
      | none =>
          refine ⟨fun _ => rfl, fun answer hSome => ?_⟩
          obtain rfl := Option.some.inj hSome
          exact .inTime result rfl
      | some answer =>
          refine ⟨fun _ => rfl, fun later hSome => ?_⟩
          obtain rfl := Option.some.inj hSome
          -- a call that is not performed has been answered by its timer
          cases hSettled.answer answer hAnswer with
          | inTime earlier hPerformed =>
              rw [hPending] at hPerformed
              cases hPerformed
          | timeout => exact .timeout

theorem Tallied.timeout (h : s.Tallied) {k : Nat} {call : ResetCall} (hCall : s.resets[k]? = some call) :
    Tallied { s with
      resets := s.resets.set k { call with answer := some (.error ⟨.internal, "Timeout"⟩) } } := by
  have hMem := List.mem_of_getElem? hCall
  refine ⟨fun {i} r hGet => ?_, fun other hOther => ?_, fun other hOther => ?_⟩
  · have hSame : (s.resets.set k { call with answer := some (.error ⟨.internal, "Timeout"⟩) }).map
        (ResetCall.made i) = s.resets.map (ResetCall.made i) := Positions.map_set_of_eq _ hCall rfl
    exact (h.resets hGet).trans (congrArg List.sum hSame.symm)
  · rcases List.mem_or_eq_of_mem_set hOther with hOld | rfl
    · exact h.revoker other hOld
    · exact h.revoker call hMem
  · rcases List.mem_or_eq_of_mem_set hOther with hOld | rfl
    · exact h.settled other hOld
    · refine ⟨fun _ => rfl, fun answer hSome => ?_⟩
      obtain rfl := Option.some.inj hSome
      exact .timeout

/-- A step tallies its resets, and upholds what is decided about those before. -/
structure Decides (s t : AdminService) : Prop where
  tallied : s.Tallied → t.Tallied
  upheld : ∀ {k : Nat} {call : ResetCall}, s.resets[k]? = some call →
    ∃ later, t.resets[k]? = some later ∧ call.Upheld later

theorem ResetCall.Upheld.refl (call : ResetCall) : call.Upheld call := ⟨rfl, fun _ => id, fun _ => id⟩

theorem Idle.decides (h : Idle s t) : s.Decides t :=
  ⟨h.tallied, fun hCall => ⟨_, h.upheld hCall, .refl _⟩⟩

theorem upheld_set {k : Nat} {call later : ResetCall} (hCall : s.resets[k]? = some call)
    (hUpheld : call.Upheld later) {j : Nat} {other : ResetCall} (hOther : s.resets[j]? = some other) :
    ∃ new, (s.resets.set k later)[j]? = some new ∧ other.Upheld new := by
  by_cases hSame : k = j
  · subst hSame
    obtain rfl := Option.some.inj (hCall.symm.trans hOther)
    exact ⟨later, List.getElem?_set_self (List.getElem?_eq_some_iff.mp hCall).1, hUpheld⟩
  · exact ⟨other, by rw [List.getElem?_set_ne hSame, hOther], .refl _⟩

theorem step_decides {a : Action} (h : s.step a = some t) : s.Decides t := by
  cases a with
  | createRevoker id g numItems backup restoredCurrent restoredPrevious =>
      cases h
      refine ⟨fun hTallied => ⟨fun {i} r hGet => ?_, fun call hMem => ?_, hTallied.settled⟩,
        fun hCall => ⟨_, hCall, .refl _⟩⟩
      · rcases Positions.getElem?_concat_cases hGet with hOld | ⟨rfl, rfl⟩
        · exact hTallied.resets hOld
        · refine (List.sum_eq_zero fun n hMem => ?_).symm
          obtain ⟨call, hCall, rfl⟩ := List.mem_map.mp hMem
          have hLt := hTallied.revoker call hCall
          exact if_neg fun hNew => by omega
      · have hLt := hTallied.revoker call hMem
        rw [List.length_append, List.length_singleton]
        omega
  | init | destroy =>
      simp only [step] at h
      split_ifs at h
      cases h
      exact Idle.decides (.same rfl rfl)
  | call rpc =>
      cases h
      exact (call_idle s rpc).decides
  | registerInstance i | unregisterInstance i =>
      simp only [step, Option.bind_eq_bind, Option.bind_eq_some_iff, Option.pure_def] at h
      obtain ⟨instances, -, r, -, hEq⟩ := h
      cases hEq
      exact Idle.decides (.same rfl rfl)
  | revoker i a =>
      simp only [step, Option.bind_eq_bind, Option.bind_eq_some_iff, Option.pure_def] at h
      obtain ⟨r, hGet, rotations, hStep, hEq⟩ := h
      cases hEq
      exact Idle.decides (.set hGet rfl)
  | shutdown i | closed i =>
      simp only [step, Option.bind_eq_bind, Option.bind_eq_some_iff, Option.pure_def] at h
      obtain ⟨r, hGet, hEq⟩ := h
      cases hEq
      exact Idle.decides (.set hGet rfl)
  | reset k outcome =>
      simp only [step, Option.bind_eq_bind, Option.bind_eq_some_iff, Option.pure_def] at h
      obtain ⟨call, hCall, r, hGet, _, hGuard, hEq⟩ := h
      have hPending : call.performed = none := by
        have hAll : call.performed = none ∧ r.rotations.suspended = false ∧ outcome.possible r = true := by
          simpa [guard] using hGuard
        exact hAll.1
      cases hEq
      refine ⟨fun hTallied => hTallied.reset hCall hPending hGet (r.reset_resets outcome) outcome.result,
        fun hOther => upheld_set hCall ?_ hOther⟩
      refine ⟨rfl, fun result hSome => ?_, fun answer hAnswer => by rw [hAnswer]; rfl⟩
      rw [hPending] at hSome
      cases hSome
  | timeout k =>
      simp only [step, Option.bind_eq_bind, Option.bind_eq_some_iff, Option.pure_def] at h
      obtain ⟨call, hCall, _, hGuard, hEq⟩ := h
      have hAnswer : call.answer = none := by simpa [guard] using hGuard
      cases hEq
      refine ⟨fun hTallied => hTallied.timeout hCall, fun hOther => upheld_set hCall ?_ hOther⟩
      exact ⟨rfl, fun _ => id, fun answer hSome => absurd (hAnswer.symm.trans hSome) (by simp)⟩

/-- Every reset that a call begins is made at most once, and nothing else resets a revoker. It
is answered by then at the latest, once and for all: with how it went, success or the error of
the manager, or with the timeout, which does not keep it from being made. That every reset gets
its mutex in the end is not claimed, nor what a later call finds in the filters. -/
theorem resets_decided {actions : List Action} (run : Run (ofStep step) {} actions s) :
    s.Tallied ∧ ∀ more (t : AdminService), Run (ofStep step) s more t →
      ∀ (k : Nat) (call : ResetCall), s.resets[k]? = some call →
        ∃ later, t.resets[k]? = some later ∧ call.Upheld later := by
  have hStart : Tallied {} := ⟨by simp, by simp, by simp⟩
  refine ⟨run.invariant (P := fun s : AdminService => s.Tallied)
    (fun _ _ _ h hStep => (step_decides hStep).tallied h) hStart, ?_⟩
  intro more t hMore k call hCall
  refine hMore.invariant (P := fun t => ∃ later, t.resets[k]? = some later ∧ call.Upheld later)
    (fun u a v h hStep => ?_) ⟨call, hCall, .refl _⟩
  obtain ⟨middle, hMiddle, hUpheld⟩ := h
  obtain ⟨later, hLater, hNext⟩ := (step_decides hStep).upheld hMiddle
  exact ⟨later, hLater, hNext.revoker.trans hUpheld.revoker,
    fun result h => hNext.performed result (hUpheld.performed result h),
    fun answer h => hNext.answer answer (hUpheld.answer answer h)⟩

/-- A reset that is made after its caller was told that it timed out, and one whose files cannot
be read. -/
def lateReset : List Action :=
  [.createRevoker [0x61] .oneBucket 1 true none none, .init, .registerInstance 0, .call (.resetAndRestore [0x61]),
    .timeout 0, .reset 0 (.restored ⟨fun _ => none, fun _ => none⟩), .call (.resetAndRestore [0x61]),
    .reset 1 (.restoreThrows "EIO")]

theorem resets_decided_late :
    ∃ s : AdminService, exec step {} lateReset = some s ∧ s.Tallied ∧ s.resets.map ResetCall.answer =
      [some (.error ⟨.internal, "Timeout"⟩), some (.error ⟨.internal, "Failed to reset and restore: EIO"⟩)] := by
  obtain ⟨s, hExec, hAnswers⟩ : ∃ s : AdminService, exec step {} lateReset = some s ∧
      s.resets.map ResetCall.answer = [some (.error ⟨.internal, "Timeout"⟩),
        some (.error ⟨.internal, "Failed to reset and restore: EIO"⟩)] :=
    ⟨_, rfl, rfl⟩
  exact ⟨s, hExec, (resets_decided (run_of_exec hExec)).1, hAnswers⟩

end AdminService

end TokenRevoker
