import TokenRevoker.Core.Containment

/-! What `resetAndClearData` leaves behind. The files are deleted at once, the filters are
replaced when the call gets the manager's mutex, and whoever was suspended goes on: a backup
that was scheduled before the call writes the filter that it was given, a rotation that is
next writes the current one, and the write buffer is flushed as it is. The call clears where
none of these has a bit left to write. -/
namespace TokenRevoker

open Text SignatureFilter Transition

variable {g : Geometry}

/-- The bits that these items set. -/
def bitsOf (g : Geometry) (items : List JsString) : Set Nat := ⨆ x ∈ items, SizedFilter.signature g x

theorem signature_subset_bitsOf {items : List JsString} {x : JsString} (hx : x ∈ items) :
    SizedFilter.signature g x ⊆ bitsOf g items :=
  le_iSup₂_of_le x hx le_rfl

theorem bitsOf_subset_append (items more : List JsString) : bitsOf g items ⊆ bitsOf g (items ++ more) :=
  iSup₂_le fun _ hx => signature_subset_bitsOf (List.mem_append_left _ hx)

namespace ResetStore

/-- A state in which `resetAndClearData` clears: nobody has a bit to write, nor will the
rotation that gets the manager's mutex next. -/
structure Settled (s : ResetStore g) : Prop where
  writers : s.WritersWithin ∅
  next : s.store.rotating = none → s.callers.head? = some .rotation → s.ObjectWithin ∅ s.store.filter

/-- A timer fires only once every promise that is resolved has been continued, and so not
while somebody may take the manager's mutex. -/
def Prompt (s : ResetStore g) : Action g → Bool
  | .store .tick | .store .retry => s.store.rotating.isSome || s.callers.isEmpty
  | _ => true

variable {s t : ResetStore g} {bits : Set Nat}

/-- What a step does to those who wait for the manager's mutex. -/
inductive Queues (s : ResetStore g) : Action g → ResetStore g → Prop where
  | rotated {t : ResetStore g} (hFree : s.store.rotating = none)
      (hCallers : s.callers = .rotation :: t.callers) : Queues s (.store .rotate) t
  | reset (rest : List ManagerCall) (hCallers : s.callers = .reset :: rest) : Queues s .reset (s.restored rest)
  | crashed {t : ResetStore g} : Queues s (.store .crash) t
  | joined {a : Action g} {t : ResetStore g} (more : List ManagerCall) (hCallers : t.callers = s.callers ++ more)
      (hRotate : a ≠ .store .rotate) (hReset : a ≠ .reset) (hCrash : a ≠ .store .crash) : Queues s a t

theorem stepStore_queues {a : Store.Action g} (h : s.stepStore a = some t) : Queues s (.store a) t := by
  cases a with
  | rotate =>
      simp only [stepStore] at h
      split at h
      · rename_i rest hCallers
        obtain ⟨store, hStore, rfl⟩ := Option.map_eq_some_iff.mp h
        simp only [Store.step, Option.ite_none_left_eq_some, Bool.or_eq_true, not_or, Bool.not_eq_true,
          Option.isSome_eq_false_iff, Option.isNone_iff_eq_none] at hStore
        exact .rotated hStore.1.1 hCallers
      · cases h
  | crash => exact .crashed
  | requestRotation =>
      cases h
      exact .joined [.rotation] rfl (by simp) (by simp) (by simp)
  | settle outcome =>
      simp only [stepStore] at h
      split at h
      all_goals
        obtain ⟨_, -, rfl⟩ := Option.map_eq_some_iff.mp h
        exact .joined [] (List.append_nil _).symm (by simp) (by simp) (by simp)
  | written captured =>
      obtain ⟨_, _, _, -, -, -, rfl⟩ := written_within h
      exact .joined [] (List.append_nil _).symm (by simp) (by simp) (by simp)
  | add | applyEntry =>
      cases h
      exact .joined [] (List.append_nil _).symm (by simp) (by simp) (by simp)
  | tick | retry | acquire | promote | swap =>
      obtain ⟨_, -, rfl⟩ := Option.map_eq_some_iff.mp h
      exact .joined [] (List.append_nil _).symm (by simp) (by simp) (by simp)

theorem step_queues {a : Action g} (h : s.step a = some t) : Queues s a t := by
  have hSame : t.callers = s.callers → t.callers = s.callers ++ [] := fun hEq => by rw [hEq, List.append_nil]
  cases a with
  | store a => exact stepStore_queues h
  | resetAndRestore | resetAndClearData =>
      cases h
      exact .joined [.reset] rfl (by simp) (by simp) (by simp)
  | reset =>
      simp only [step] at h
      split at h
      · rename_i rest _ hCallers
        cases h
        exact .reset rest hCallers
      · cases h
  | flush =>
      refine .joined [] (hSame ?_) (by simp) (by simp) (by simp)
      simp only [step] at h
      split_ifs at h <;> cases h <;> rfl
  | append index | settle index outcome =>
      refine .joined [] (hSame ?_) (by simp) (by simp) (by simp)
      simp only [step] at h
      split at h <;> cases h <;> rfl

/-- The filter that a rotation would back up next has only these bits. Who holds the mutex, or
gets it next, comes with a filter of its own. -/
def Next (bits : Set Nat) (s : ResetStore g) : Prop :=
  s.ObjectWithin bits s.store.filter ∨ s.store.rotating.isSome ∨ s.callers.head? = some .reset

theorem Next.step {a : Action g} (hNext : Next bits s) (h : Contained bits s) (hStep : Steps g s a t)
    (hItems : ∀ x ∈ s.added a, ItemWithin g bits x) : Next bits t := by
  by_cases hCrash : a = .store .crash
  · subst hCrash
    cases hStep.1
    exact Or.inl (boot_objectWithin h.files _ _ _ _ _)
  have moves := hStep.moves h.ordered h.files hItems hCrash
  rcases moves.filter with ⟨hFilter, hRotating⟩ | hNew
  · rcases hNext with hObject | hBusy | hFirst
    · rw [Next, hFilter]
      exact Or.inl (moves.objects _ hObject)
    · exact Or.inr (Or.inl (hRotating hBusy))
    · cases step_queues hStep.1 with
      | rotated hFree hCallers =>
          rw [hCallers] at hFirst
          cases hFirst
      | reset rest hCallers => exact Or.inl (h.ordered.fresh_restored h.files rest).current
      | crashed => exact absurd rfl hCrash
      | joined more hCallers =>
          refine Or.inr (Or.inr ?_)
          rw [hCallers, List.head?_append, hFirst]
          rfl
  · exact Or.inl hNew

end ResetStore

/-- An instance watched from a call of `resetAndClearData` on, or from its start. It counts
those who are before the call in the queue, and collects what is added after it. -/
structure WatchedStore (g : Geometry) where
  state : ResetStore g
  /-- The items added since. -/
  added : List JsString := []
  /-- How many callers get the manager's mutex before the call, until it resolves. -/
  ahead : Option Nat := none

namespace WatchedStore

/-- The place of the call in the queue after a step, nothing once it has resolved. -/
def advance (ahead : Option Nat) : ResetStore.Action g → Option Nat
  | .store .rotate | .reset => match ahead with | some (n + 1) => some n | _ => none
  | .store .crash => none
  | _ => ahead

def step (w : WatchedStore g) (a : ResetStore.Action g) : Option (WatchedStore g) :=
  (w.state.step a).map fun state => ⟨state, w.added ++ w.state.added a, advance w.ahead a⟩

/-- A process in an empty directory. -/
def start (g : Geometry) (numItems : Nat) (periodic bufferEnabled : Bool) (maxBufferSize : Nat) :
    WatchedStore g where
  state := .boot g numItems periodic bufferEnabled maxBufferSize {}

/-- A call of `resetAndClearData` begins. -/
def clearing (w : WatchedStore g) (state : ResetStore g) : WatchedStore g where
  state := state
  ahead := some w.state.callers.length

/-- The steps while no operation on a file fails. -/
def Steps (g : Geometry) : WatchedStore g → ResetStore.Action g → WatchedStore g → Prop :=
  restrict (ofStep step) fun w a => a.NoFault ∧ w.state.Prompt a = true

/-- What a call of `resetAndClearData` promises of a state after it, where `earlier` were the
items before it. -/
structure Cleared (earlier : List JsString) (w : WatchedStore g) : Prop where
  filters : w.ahead = none → w.state.store.manager.window.Within (bitsOf g w.added)
  /-- A restart now brings back no bit of an item from before the call that no later item has. -/
  restart : ∀ bit ∈ bitsOf g earlier, bit ∈ (restoredWindow g w.state.store.disk).current ∨
    bit ∈ (restoredWindow g w.state.store.disk).previous → bit ∈ bitsOf g w.added

/-- Every call of `resetAndClearData` that is made where `Settled` holds clears, as long as the
items that are added afterwards are `Plain`. -/
def ReallyClears (g : Geometry) (Settled : ResetStore g → Prop) (Plain : JsString → Prop) : Prop :=
  ∀ numItems periodic bufferEnabled maxBufferSize before w state after t,
    Run (Steps g) (start g numItems periodic bufferEnabled maxBufferSize) before w →
    w.state.step .resetAndClearData = some state → Settled w.state →
    Run (restrict (Steps g) fun w a => ∀ x ∈ w.state.added a, Plain x) (w.clearing state) after t →
    t.Cleared w.added

open ResetStore

variable {w w' : WatchedStore g}

/-- What holds since the call. Until the call has its turn the filters may still have what was
there before. -/
structure Watching (w : WatchedStore g) : Prop where
  contained : Contained (bitsOf g w.added) w.state
  plain : ∀ x ∈ w.added, IsWellFormed x
  next : Next (bitsOf g w.added) w.state
  waits : ∀ n, w.ahead = some n → w.state.callers[n]? = some .reset
  resolved : w.ahead = none → Fresh (bitsOf g w.added) w.state

theorem advance_of_joined {a : ResetStore.Action g} (hRotate : a ≠ .store .rotate) (hReset : a ≠ .reset)
    (hCrash : a ≠ .store .crash) (ahead : Option Nat) : advance ahead a = ahead := by
  cases a with
  | store a =>
      cases a with
      | rotate => exact absurd rfl hRotate
      | crash => exact absurd rfl hCrash
      | _ => rfl
  | reset => exact absurd rfl hReset
  | _ => rfl

/-- The call keeps its place in the queue. -/
theorem Watching.waits_step (h : Watching w) {a : ResetStore.Action g} {state : ResetStore g}
    (queues : Queues w.state a state) {n : Nat} (hAhead : advance w.ahead a = some n) :
    state.callers[n]? = some .reset := by
  cases queues with
  | rotated hFree hCallers =>
      rcases hOld : w.ahead with _ | _ | k
      · simp [advance, hOld] at hAhead
      · simp [advance, hOld] at hAhead
      · obtain rfl : k = n := by simpa [advance, hOld] using hAhead
        simpa [hCallers] using h.waits (k + 1) hOld
  | reset rest hCallers =>
      rcases hOld : w.ahead with _ | _ | k
      · simp [advance, hOld] at hAhead
      · simp [advance, hOld] at hAhead
      · obtain rfl : k = n := by simpa [advance, hOld] using hAhead
        simpa [hCallers, restored] using h.waits (k + 1) hOld
  | crashed => cases hAhead
  | joined more hCallers hRotate hReset hCrash =>
      rw [advance_of_joined hRotate hReset hCrash] at hAhead
      have hWaits := h.waits n hAhead
      rw [hCallers, List.getElem?_append_left (List.getElem?_eq_some_iff.mp hWaits).1]
      exact hWaits

/-- Once the call has resolved, both filters are made of what came after it. -/
theorem Watching.resolved_step (h : Watching w) {bits : Set Nat} (hLe : bitsOf g w.added ⊆ bits)
    {a : ResetStore.Action g} {state : ResetStore g} (hStep : ResetStore.Steps g w.state a state)
    (hItems : ∀ x ∈ w.state.added a, ItemWithin g bits x) (hAhead : advance w.ahead a = none) :
    Fresh bits state := by
  have hContained := h.contained.mono hLe
  have hStay : a ≠ .store .crash → w.ahead = none → Fresh bits state := fun hCrash hOld =>
    ((h.resolved hOld).mono hLe).moved (hStep.moves hContained.ordered hContained.files hItems hCrash)
  cases step_queues hStep.1 with
  | rotated hFree hCallers =>
      refine hStay (by simp) ?_
      rcases hOld : w.ahead with _ | _ | k
      · rfl
      · have hWaits := h.waits 0 hOld
        simp [hCallers] at hWaits
      · simp [advance, hOld] at hAhead
  | reset rest hCallers => exact hContained.ordered.fresh_restored hContained.files rest
  | crashed =>
      cases hStep.1
      exact fresh_boot hContained.files _ _ _ _
  | joined more hCallers hRotate hReset hCrash =>
      rw [advance_of_joined hRotate hReset hCrash] at hAhead
      exact hStay hCrash hAhead

/-- An interval that may tick backs up a filter of its own. -/
theorem Watching.tick (h : Watching w) (hPrompt : w.state.Prompt (.store .tick) = true) {capture : Capture}
    (hInterval : w.state.store.interval = some capture)
    (hFresh : capture.generation = w.state.store.backups.generation) :
    w.state.ObjectWithin (bitsOf g w.added) capture.filter := by
  cases hAhead : w.ahead with
  | none => exact (h.resolved hAhead).interval capture hInterval
  | some n =>
      have hFree := ((h.contained.ordered.inTurn.captured capture (Or.inl hInterval)).2 hFresh).1
      have hWaits := h.waits n hAhead
      simp only [Prompt, hFree, Option.isSome_none, Bool.false_or, List.isEmpty_iff] at hPrompt
      rw [hPrompt] at hWaits
      cases hWaits

/-- Every step keeps what holds since the call. Each case is a lemma about what may still be
written. -/
theorem Watching.step (h : Watching w) {a : ResetStore.Action g} (hStep : Steps g w a w')
    (hPlain : ∀ x ∈ w.state.added a, IsWellFormed x) : Watching w' := by
  obtain ⟨hStep, hFault, hPrompt⟩ := hStep
  obtain ⟨state, hState, rfl⟩ := Option.map_eq_some_iff.mp hStep
  have hSteps : ResetStore.Steps g w.state a state := ⟨hState, hFault⟩
  have hLe := bitsOf_subset_append (g := g) w.added (w.state.added a)
  have hContained := h.contained.mono hLe
  have hItems : ∀ x ∈ w.state.added a, ItemWithin g (bitsOf g (w.added ++ w.state.added a)) x := by
    intro x hx
    have hSignature := signature_subset_bitsOf (g := g) (List.mem_append_right w.added hx)
    exact ⟨hSignature, by rwa [show toWellFormed x = x from hPlain x hx]⟩
  have hNext : Next (bitsOf g (w.added ++ w.state.added a)) w.state :=
    h.next.imp_left fun hObject => hObject.mono hLe
  refine ⟨hContained.step hSteps hItems ?_ ?_, ?_, hNext.step hContained hSteps hItems, ?_, ?_⟩
  · rintro rfl
    cases step_queues hState with
    | rotated hFree hCallers =>
        refine hNext.resolve_right ?_
        rintro (hBusy | hFirst)
        · simp [hFree] at hBusy
        · simp [hCallers] at hFirst
    | joined _ _ hRotate => exact absurd rfl hRotate
  · rintro rfl capture hInterval hFresh
    exact (h.tick hPrompt hInterval hFresh).mono hLe
  · intro x hx
    rcases List.mem_append.mp hx with hOld | hNew
    · exact h.plain x hOld
    · exact hPlain x hNew
  · exact fun n => h.waits_step (step_queues hState)
  · exact h.resolved_step hLe hSteps hItems

/-- The call begins where nobody has a bit to write. -/
theorem watching_clearing (hOrdered : Ordered w.state) (hRetrying : w.state.store.retrying = [])
    (hSettled : w.state.Settled) {state : ResetStore g} (hStep : w.state.step .resetAndClearData = some state) :
    Watching (w.clearing state) := by
  have hNone : bitsOf g [] = ∅ := by simp [bitsOf]
  have hSteps : ResetStore.Steps g w.state .resetAndClearData state := ⟨hStep, trivial⟩
  have hOrdered' := hSteps.ordered hOrdered
  cases hStep
  have moves : Moves ∅ w.state { w.state with
      store := { w.state.store with
        disk := {}
        manager := { w.state.store.manager with hasRotated := false, currentInsertions := 0 } }
      callers := w.state.callers ++ [.reset] } := .same rfl rfl rfl rfl rfl id
  refine ⟨⟨hOrdered', hRetrying, ?_, restoredWindow_empty_within⟩, by simp [clearing], ?_, ?_, by simp [clearing]⟩
  · show WritersWithin (bitsOf g []) _
    rw [hNone]
    exact hSettled.writers.advance moves (fun _ _ => Or.inl) rfl (List.Subset.refl _) rfl
  · show Next (bitsOf g []) _
    rw [hNone]
    cases hFree : w.state.store.rotating with
    | some stage => exact Or.inr (Or.inl (by simp [clearing, hFree]))
    | none =>
        rcases hCallers : w.state.callers with _ | ⟨_ | _, rest⟩
        · exact Or.inr (Or.inr (by simp [clearing, hCallers]))
        · exact Or.inl (moves.objects _ (hSettled.next hFree (by rw [hCallers]; rfl)))
        · exact Or.inr (Or.inr (by simp [clearing, hCallers]))
  · intro n hAhead
    cases hAhead
    simp [clearing]

theorem Watching.cleared (h : Watching w) (earlier : List JsString) : w.Cleared earlier where
  filters hAhead :=
    have fresh := h.resolved hAhead
    ⟨h.contained.ordered.objectWithin_current.mp fresh.current, fresh.previous⟩
  restart _ _ hRestored :=
    hRestored.elim (fun hCurrent => h.contained.files.1 hCurrent) fun hPrevious => h.contained.files.2 hPrevious

/-- Nothing is tried again in a run from an empty directory. -/
theorem run_retrying {numItems maxBufferSize : Nat} {periodic bufferEnabled : Bool}
    {actions : List (ResetStore.Action g)}
    (run : Run (Steps g) (start g numItems periodic bufferEnabled maxBufferSize) actions w) :
    Ordered w.state ∧ w.state.store.retrying = [] := by
  refine run.invariant (P := fun w => Ordered w.state ∧ w.state.store.retrying = []) ?_
    ⟨boot_ordered _ _ _ _ ⟨[], by simp, rfl⟩, rfl⟩
  rintro s a t ⟨hOrdered, hRetrying⟩ ⟨hStep, hFault, -⟩
  obtain ⟨state, hState, rfl⟩ := Option.map_eq_some_iff.mp hStep
  have effect := step_effect (show ResetStore.Steps g s.state a state from ⟨hState, hFault⟩)
  exact ⟨effect.ordered hOrdered, effect.retrying hOrdered hRetrying⟩

/-- A call that is made where nobody has a bit to write clears: all that is in the filters, or
that a restart brings back, is from items that were added since. The condition is on the state
of the call alone; whatever is suspended there may go on afterwards. It is enough, and not
necessary. -/
theorem reallyClears_of_settled : ReallyClears g Settled IsWellFormed := by
  intro numItems periodic bufferEnabled maxBufferSize before w state after t hBefore hCall hSettled hAfter
  obtain ⟨hOrdered, hRetrying⟩ := run_retrying hBefore
  have hStart := watching_clearing hOrdered hRetrying hSettled hCall
  have hEnd : Watching t := hAfter.invariant (fun _ _ _ h hStep => h.step hStep.1 hStep.2) hStart
  exact hEnd.cleared w.added

instance : (a : Store.Action g) → Decidable a.NoFault
  | .add _ failures | .applyEntry _ failures => inferInstanceAs (Decidable (failures = []))
  | .settle outcome | .promote outcome => inferInstanceAs (Decidable (outcome = .ok ()))
  | .requestRotation | .rotate | .tick | .retry | .acquire | .written _ | .swap | .crash =>
    inferInstanceAs (Decidable True)

instance : (a : ResetStore.Action g) → Decidable a.NoFault
  | .store a => inferInstanceAs (Decidable a.NoFault)
  | .settle _ outcome => inferInstanceAs (Decidable (outcome = .ok ()))
  | .resetAndRestore | .resetAndClearData | .reset | .flush | .append _ => inferInstanceAs (Decidable True)

/-- A step that the event loop can take, on an item that its line can hold. -/
def allows (w : WatchedStore g) (a : ResetStore.Action g) : Bool :=
  decide (a.NoFault ∧ w.state.Prompt a = true ∧ ∀ x ∈ w.state.added a, IsWellFormed x)

theorem run_of_allows {actions : List (ResetStore.Action g)}
    (h : exec (guarded allows step) w actions = some w') :
    Run (restrict (Steps g) fun w a => ∀ x ∈ w.state.added a, IsWellFormed x) w actions w' := by
  have run := (run_of_exec h).of_guarded fun w a hTest => of_decide_eq_true (show decide (a.NoFault ∧
    w.state.Prompt a = true ∧ ∀ x ∈ w.state.added a, IsWellFormed x) = true from hTest)
  exact run.mono fun _ _ _ hStep => ⟨⟨hStep.1, hStep.2.1, hStep.2.2.1⟩, hStep.2.2.2⟩

/-- A call that comes while a periodic backup truncates the log. The truncation cannot bring
anything back, so the call clears. -/
theorem reallyClears_while_truncating : ∃ w t : WatchedStore .oneBucket,
    w.added = [[0x61]] ∧ t.added = [[0x62]] ∧ t.Cleared w.added := by
  have hRun : (exec (guarded allows step) (start .oneBucket 1 true false 100) [.store (.add [0x61] []),
      .store .tick, .store .acquire, .store (.settle (.ok ())),
      .store (.written ((SizedFilter.create .oneBucket).add [0x61])), .store (.settle (.ok ())),
      .store (.settle (.ok ())), .store (.settle (.ok ()))]).any (fun w =>
        decide (w.added = [[0x61]] ∧ w.state.store.holder.map Prod.snd = some .truncating ∧
          w.state.store.queue = [] ∧ w.state.store.backups.writeBuffer = [] ∧ w.state.flushing = [] ∧
          w.state.callers = []) &&
        (w.state.step .resetAndClearData).any fun state =>
          (exec (guarded allows step) (w.clearing state) [.store (.add [0x62] []), .reset,
            .store (.settle (.ok ())), .store .crash]).any fun t => decide (t.added = [[0x62]])) = true := by
    decide +kernel
  obtain ⟨w, hBefore, hRest⟩ := (Option.any_eq_true _ _).mp hRun
  obtain ⟨hFacts, hRest⟩ := Bool.and_eq_true_iff.mp hRest
  obtain ⟨state, hCall, hRest⟩ := (Option.any_eq_true _ _).mp hRest
  obtain ⟨t, hAfter, hAdded⟩ := (Option.any_eq_true _ _).mp hRest
  obtain ⟨hEarlier, hHolder, hQueue, hBuffer, hFlushing, hCallers⟩ := of_decide_eq_true hFacts
  refine ⟨w, t, hEarlier, of_decide_eq_true hAdded, reallyClears_of_settled 1 true false 100 _ w state _ t
    (run_of_allows hBefore).unrestrict hCall ⟨⟨?_, ?_, ?_, ?_⟩, ?_⟩ (run_of_allows hAfter)⟩
  · intro job phase hEq
    rw [hEq] at hHolder
    cases hHolder
    trivial
  · simp [hQueue]
  · simp [hBuffer]
  · simp [hFlushing]
  · simp [hCallers]

/-- An item waits in the write buffer when the call comes, and is flushed once it has resolved.
The flush appends the old line to the new log, and a restart reads it. -/
theorem not_reallyClears : ¬ ReallyClears .oneBucket (fun _ => True) fun _ => True := by
  intro h
  have hRun : (exec (guarded allows step) (start .oneBucket 1 true true 100) [.store (.add [0x61] [])]).any
      (fun w => decide (w.added = [[0x61]]) && (w.state.step .resetAndClearData).any fun state =>
        (exec (guarded allows step) (w.clearing state) [.reset, .flush, .append 0]).any fun t =>
          decide (t.ahead = none ∧ t.added = [] ∧ tempItems t.state.store.disk.temp = [[0x61]])) = true := by
    decide +kernel
  obtain ⟨w, hBefore, hRest⟩ := (Option.any_eq_true _ _).mp hRun
  obtain ⟨hEarlier, hRest⟩ := Bool.and_eq_true_iff.mp hRest
  obtain ⟨state, hCall, hRest⟩ := (Option.any_eq_true _ _).mp hRest
  obtain ⟨t, hAfter, hFacts⟩ := (Option.any_eq_true _ _).mp hRest
  obtain ⟨-, hAdded, hTemp⟩ := of_decide_eq_true hFacts
  have hCleared := h 1 true true 100 _ w state _ t (run_of_allows hBefore).unrestrict hCall trivial
    ((run_of_allows hAfter).mono fun _ _ _ hStep => ⟨hStep.1, fun _ _ => trivial⟩)
  obtain ⟨bit, hBit⟩ := Manager.signature_nonempty (SizedFilter.addressable (g := .oneBucket) (by decide) [0x61])
  have hEarlierBit : bit ∈ bitsOf .oneBucket w.added := by
    rw [of_decide_eq_true hEarlier]
    exact signature_subset_bitsOf List.mem_cons_self hBit
  have hRestored : Store.Bits .oneBucket (restoredWindow .oneBucket t.state.store.disk).current [0x61] := by
    refine covers_foldl_insert ?_
    rw [hTemp]
    exact List.mem_cons_self
  have hLater := hCleared.restart bit hEarlierBit (Or.inl (hRestored hBit))
  rw [hAdded] at hLater
  simp [bitsOf] at hLater

end WatchedStore

end TokenRevoker
