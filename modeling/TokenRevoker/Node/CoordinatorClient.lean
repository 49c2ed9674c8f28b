import TokenRevoker.Core.Item
import TokenRevoker.Library.Positions
import TokenRevoker.Library.Transition

/-! The connect that the calls of the node's coordinator client share. Calls, the callback
of `waitForReady` and `close` come in any order, and between them the continuations of the
promises run, in the order in which they were queued. -/
namespace TokenRevoker

open Transition

/-- A request that is made once the client is connected. -/
inductive RawRequest where
  | getSnapshot
  | subscribe (lastLsn : Nat)
  | pollDeltas (fromLsn maxEvents : Nat)
  | listNodes
  deriving DecidableEq

/-- A client that `createRaw` has returned. -/
structure RawClient where
  requests : List RawRequest := []
  closed : Bool := false
  deriving DecidableEq

/-- How far `#connect` has come, and the `.catch` behind it. -/
inductive ConnectStage where
  /-- `waitForReady` has not called back. -/
  | connecting
  | ready
  | notReady (message : String)
  /-- `#connect` has returned, or it has thrown. -/
  | connected
  | threw (error : RevokerError)
  /-- The shared promise is settled. -/
  | fulfilled
  | rejected (error : RevokerError)
  deriving DecidableEq

/-- What the promises have queued: the rest of a connect, a call that awaits one, or the
`client.close()` of `close`. -/
inductive Continuation where
  | connect (p : Nat)
  | resume (call : Nat)
  | closeClient (p : Nat)
  deriving DecidableEq

/-- A promise that has been in `#clientPromise`, with its reactions while it is pending.
There is no client if `createRaw` has thrown. -/
structure ConnectPromise where
  client : Option RawClient
  stage : ConnectStage
  reactions : List Continuation := []
  deriving DecidableEq

/-- A call of `ensureConnected`, with the request of the method that made it. A call that
found the client closed has no promise. -/
structure ClientCall where
  request : Option RawRequest
  promise : Option Nat
  outcome : Option (Except RevokerError Unit)
  deriving DecidableEq

structure CoordinatorClient where
  address : String
  clientPromise : Option Nat := none
  closed : Bool := false
  promises : List ConnectPromise := []
  calls : List ClientCall := []
  jobs : List Continuation := []
  deriving DecidableEq

/-- What the promise is settled with. -/
def ConnectStage.settled : ConnectStage → Option (Except RevokerError Unit)
  | .fulfilled => some (.ok ())
  | .rejected error => some (.error error)
  | .connecting | .ready | .notReady _ | .connected | .threw _ => none

/-- The client is there, and it has not been closed. -/
def ConnectPromise.isOpen (c : ConnectPromise) : Bool := c.client.any fun client => !client.closed

def ConnectPromise.closeClient (c : ConnectPromise) : ConnectPromise :=
  { c with client := c.client.map fun client => { client with closed := true } }

/-- A method goes on after its `await`. -/
def ConnectPromise.send (c : ConnectPromise) (request : RawRequest) : ConnectPromise :=
  { c with client := c.client.map fun client => { client with requests := client.requests ++ [request] } }

namespace CoordinatorClient

def closedError : RevokerError := .internalError "Coordinator client is closed"

def connectFailed (s : CoordinatorClient) (message : String) : RevokerError :=
  let address := s.address
  .internalError s!"Failed to connect to the coordinator at {address}: {message}"

inductive Action where
  /-- A call, and what reading the credentials and `createRaw` throw if it gets there. -/
  | call (request : Option RawRequest) (thrown : Option RevokerError)
  | waitForReady (p : Nat) (error : Option String)
  | close
  /-- The first continuation that is queued. -/
  | turn
  deriving DecidableEq

def setPromise (s : CoordinatorClient) (p : Nat) (c : ConnectPromise) : CoordinatorClient :=
  { s with promises := s.promises.set p c }

def queue (s : CoordinatorClient) (jobs : List Continuation) : CoordinatorClient :=
  { s with jobs := s.jobs ++ jobs }

/-- `then` on a promise: the job is queued when the promise is settled. Jobs are run in the
order in which they were queued. -/
def react (s : CoordinatorClient) (p : Nat) (job : Continuation) : CoordinatorClient :=
  match s.promises[p]? with
  | none => s
  | some c =>
    match c.stage.settled with
    | some _ => s.queue [job]
    | none => s.setPromise p { c with reactions := c.reactions ++ [job] }

/-- `ensureConnected`, with `#connect` up to its `await`. -/
def ensureConnected (s : CoordinatorClient) (thrown : Option RevokerError) : CoordinatorClient × Option Nat :=
  if s.closed then (s, none)
  else match s.clientPromise with
  | some p => (s, some p)
  | none =>
    let p := s.promises.length
    match thrown with
    | none =>
        ({ s with
          clientPromise := some p
          promises := s.promises ++ [{ client := some {}, stage := .connecting }] }, some p)
    | some error =>
        ({ s with
          clientPromise := some p
          promises := s.promises ++ [{ client := none, stage := .threw error }]
          jobs := s.jobs ++ [.connect p] }, some p)

/-- A call up to its `await` of `ensureConnected`. -/
def call (s : CoordinatorClient) (request : Option RawRequest) (thrown : Option RevokerError) :
    CoordinatorClient :=
  match s.ensureConnected thrown with
  | (s, none) =>
      { s with calls := s.calls ++ [
        { request := request, promise := none, outcome := some (.error closedError) }] }
  | (s, some p) =>
      let s := s.react p (.resume s.calls.length)
      { s with calls := s.calls ++ [{ request := request, promise := some p, outcome := none }] }

/-- The callback of `waitForReady`. -/
def waitForReady (s : CoordinatorClient) (p : Nat) (error : Option String) : Option CoordinatorClient := do
  let c ← s.promises[p]?
  if c.stage = .connecting then
    let stage := match error with
      | none => .ready
      | some message => .notReady message
    some ((s.setPromise p { c with stage := stage }).queue [.connect p])
  else none

def close (s : CoordinatorClient) : CoordinatorClient :=
  let pending := s.clientPromise
  let s := { s with closed := true, clientPromise := none }
  match pending with
  | none => s
  | some p => s.react p (.closeClient p)

/-- The shared promise is settled, and its reactions are queued. -/
def settle (s : CoordinatorClient) (p : Nat) (c : ConnectPromise) (stage : ConnectStage) : CoordinatorClient :=
  (s.setPromise p { c with stage := stage, reactions := [] }).queue c.reactions

/-- The rest of `#connect`, or the handlers of its promise. -/
def connect (s : CoordinatorClient) (p : Nat) : CoordinatorClient :=
  match s.promises[p]? with
  | none => s
  | some c =>
    match c.stage with
    | .ready => (s.setPromise p { c with stage := .connected }).queue [.connect p]
    | .connected => s.settle p c .fulfilled
    | .notReady message =>
        (s.setPromise p { c.closeClient with stage := .threw (s.connectFailed message) }).queue [.connect p]
    | .threw error => { s with clientPromise := none }.settle p c (.rejected error)
    | .connecting | .fulfilled | .rejected _ => s

/-- A call has its outcome, and makes its request if it has a client. -/
def resume (s : CoordinatorClient) (i : Nat) : CoordinatorClient :=
  match s.calls[i]? with
  | none => s
  | some call =>
    match call.promise with
    | none => s
    | some p =>
      match s.promises[p]? with
      | none => s
      | some c =>
        match c.stage.settled with
        | none => s
        | some outcome =>
          let s := { s with calls := s.calls.set i { call with outcome := some outcome } }
          match outcome, call.request with
          | .ok (), some request => s.setPromise p (c.send request)
          | _, _ => s

/-- `pending.then((client) => client.close())`. -/
def closeClient (s : CoordinatorClient) (p : Nat) : CoordinatorClient :=
  match s.promises[p]? with
  | none => s
  | some c => if c.stage = .fulfilled then s.setPromise p c.closeClient else s

def run (s : CoordinatorClient) : Continuation → CoordinatorClient
  | .connect p => s.connect p
  | .resume i => s.resume i
  | .closeClient p => s.closeClient p

def step (s : CoordinatorClient) : Action → Option CoordinatorClient
  | .call request thrown => some (s.call request thrown)
  | .waitForReady p error => s.waitForReady p error
  | .close => some s.close
  | .turn =>
    match s.jobs with
    | [] => none
    | job :: rest => some ({ s with jobs := rest }.run job)

end CoordinatorClient

/-- The shared promise is rejected. -/
def ConnectStage.isRejected : ConnectStage → Bool
  | .rejected _ => true
  | _ => false

/-- `#connect` has thrown. -/
def ConnectStage.failed : ConnectStage → Bool
  | .threw _ | .rejected _ => true
  | _ => false

/-- A continuation of the connect is queued. -/
def ConnectStage.queued : ConnectStage → Bool
  | .ready | .notReady _ | .connected | .threw _ => true
  | .connecting | .fulfilled | .rejected _ => false

theorem ConnectStage.eq_fulfilled {stage : ConnectStage} (h : stage.settled = some (.ok ())) :
    stage = .fulfilled := by
  cases stage with
  | fulfilled => rfl
  | connecting | ready | notReady _ | connected | threw _ | rejected _ => cases h

/-- Where the reactions of the promise are. -/
def ConnectPromise.awaited (c : ConnectPromise) (jobs : List Continuation) : List Continuation :=
  match c.stage.settled with
  | some _ => jobs
  | none => c.reactions

theorem ConnectPromise.awaited_settled {c : ConnectPromise} {outcome : Except RevokerError Unit}
    (h : c.stage.settled = some outcome) (jobs : List Continuation) : c.awaited jobs = jobs := by
  rw [awaited, h]

theorem ConnectPromise.awaited_pending {c : ConnectPromise} (h : c.stage.settled = none)
    (jobs : List Continuation) :
    c.awaited jobs = c.reactions := by
  rw [awaited, h]

/-- More jobs for all, the new promise's among them. -/
theorem ConnectPromise.awaited_mono {c : ConnectPromise} {jobs jobs' : List Continuation} {job : Continuation}
    (hMem : job ∈ c.awaited jobs) (hJobs : job ∈ jobs → job ∈ jobs') : job ∈ c.awaited jobs' := by
  cases hSettled : c.stage.settled with
  | some outcome =>
      rw [awaited_settled hSettled] at hMem ⊢
      exact hJobs hMem
  | none =>
      rw [awaited_pending hSettled] at hMem ⊢
      exact hMem

namespace CoordinatorClient

variable {s t : CoordinatorClient} {c c' : ConnectPromise} {p : Nat} {job : Continuation}
  {jobs jobs' : List Continuation}

/-- Only the latest promise can be anything but rejected, and it is in `#clientPromise`
until the client is closed. -/
structure Slots (s : CoordinatorClient) : Prop where
  slot : ∀ p, s.clientPromise = some p ↔
    s.closed = false ∧ ∃ c, s.promises[p]? = some c ∧ c.stage.isRejected = false
  latest : ∀ (p : Nat) c, s.promises[p]? = some c → c.stage.isRejected = false → p + 1 = s.promises.length

/-- What holds between two continuations, where `jobs` are those that are still to come. It says
for every promise who waits for it, and for every call what it waits for. -/
structure Disciplined (jobs : List Continuation) (s : CoordinatorClient) : Prop extends s.Slots where
  failed : ∀ (p : Nat) c, s.promises[p]? = some c → c.stage.failed = true → c.isOpen = false
  queued : ∀ (p : Nat) c, s.promises[p]? = some c → c.stage.queued = true → .connect p ∈ jobs
  closing : s.closed = true → ∀ (p : Nat) c, s.promises[p]? = some c → c.isOpen = true →
    .closeClient p ∈ c.awaited jobs
  calls : ∀ (i : Nat) call p, s.calls[i]? = some call → call.promise = some p →
    ∃ c, s.promises[p]? = some c ∧ (∀ outcome, call.outcome = some outcome → c.stage.settled = some outcome) ∧
      (call.outcome = none → .resume i ∈ c.awaited jobs)

/-- The promise that was not rejected is the only one. -/
theorem Slots.eq_of_not_rejected (h : s.Slots) {q : Nat} {d : ConnectPromise} (hAt : s.promises[p]? = some c)
    (hNot : c.stage.isRejected = false) (hAt' : s.promises[q]? = some d) (hNot' : d.stage.isRejected = false) :
    q = p := by
  have hP := h.latest p c hAt hNot
  have hQ := h.latest q d hAt' hNot'
  omega

/-- The slot is emptied when its promise is rejected. -/
theorem Slots.set (h : s.Slots) (hAt : s.promises[p]? = some c) (hWas : c.stage.isRejected = false)
    (hPromises : t.promises = s.promises.set p c') (hClosed : t.closed = s.closed)
    (hSlot : t.clientPromise = if c'.stage.isRejected then none else s.clientPromise) : t.Slots where
  slot := by
    intro q
    have hLt : p < s.promises.length := (List.getElem?_eq_some_iff.mp hAt).1
    rw [hSlot, hClosed, hPromises]
    cases hRejected : c'.stage.isRejected with
    | true =>
        refine iff_of_false (by simp) ?_
        rintro ⟨-, d, hD, hNot⟩
        rcases Positions.getElem?_set_cases hD with ⟨-, rfl⟩ | ⟨hNe, hOld⟩
        · rw [hRejected] at hNot
          cases hNot
        · exact hNe (h.eq_of_not_rejected hAt hWas hOld hNot)
    | false =>
        simp only [Bool.false_eq_true, if_false]
        refine (h.slot q).trans (and_congr_right fun _ => ⟨?_, ?_⟩)
        · rintro ⟨d, hD, hNot⟩
          obtain rfl := h.eq_of_not_rejected hAt hWas hD hNot
          exact ⟨c', List.getElem?_set_self hLt, hRejected⟩
        · rintro ⟨d, hD, hNot⟩
          rcases Positions.getElem?_set_cases hD with ⟨rfl, -⟩ | ⟨-, hOld⟩
          · exact ⟨c, hAt, hWas⟩
          · exact ⟨d, hOld, hNot⟩
  latest := by
    intro q d hD hNot
    rw [hPromises] at hD ⊢
    rw [List.length_set]
    rcases Positions.getElem?_set_cases hD with ⟨rfl, -⟩ | ⟨-, hOld⟩
    · exact h.latest q c hAt hWas
    · exact h.latest q d hOld hNot

/-- What a promise may do: it stays settled, its client stays closed, and a job for it is
dropped only when it has run. -/
structure Moves (p : Nat) (c c' : ConnectPromise) (jobs jobs' : List Continuation) : Prop where
  failed : c'.stage.failed = true → c'.isOpen = false
  queued : c'.stage.queued = true → .connect p ∈ jobs'
  isOpen : c'.isOpen = true → c.isOpen = true
  settled : ∀ outcome, c.stage.settled = some outcome → c'.stage.settled = some outcome
  kept : ∀ job ∈ jobs, job ∈ jobs' ∨ job = .connect p ∨ job = .closeClient p ∧ c'.isOpen = false
  awaited : ∀ job ∈ c.awaited jobs, job ∈ c'.awaited jobs' ∨ job = .connect p ∨
    job = .closeClient p ∧ c'.isOpen = false

theorem Moves.keeps (h : Moves p c c' jobs jobs') (hNe : job ≠ .connect p) (hNe' : job ≠ .closeClient p)
    (hMem : job ∈ jobs) : job ∈ jobs' := by
  rcases h.kept job hMem with hMem' | hEq | ⟨hEq, -⟩
  · exact hMem'
  · exact absurd hEq hNe
  · exact absurd hEq hNe'

theorem Disciplined.update (h : Disciplined jobs s) (hAt : s.promises[p]? = some c)
    (hWas : c.stage.isRejected = false) (hPromises : t.promises = s.promises.set p c')
    (hCalls : t.calls = s.calls) (hClosed : t.closed = s.closed)
    (hSlot : t.clientPromise = if c'.stage.isRejected then none else s.clientPromise)
    (hMoves : Moves p c c' jobs jobs') : Disciplined jobs' t where
  toSlots := h.toSlots.set hAt hWas hPromises hClosed hSlot
  failed := by
    intro q d hD hFailed
    rw [hPromises] at hD
    rcases Positions.getElem?_set_cases hD with ⟨-, rfl⟩ | ⟨-, hOld⟩
    · exact hMoves.failed hFailed
    · exact h.failed q d hOld hFailed
  queued := by
    intro q d hD hQueued
    rw [hPromises] at hD
    rcases Positions.getElem?_set_cases hD with ⟨rfl, rfl⟩ | ⟨hNe, hOld⟩
    · exact hMoves.queued hQueued
    · exact hMoves.keeps (by simpa using hNe) (by simp) (h.queued q d hOld hQueued)
  closing := by
    intro hIsClosed q d hD hOpen
    rw [hPromises] at hD
    rw [hClosed] at hIsClosed
    rcases Positions.getElem?_set_cases hD with ⟨rfl, rfl⟩ | ⟨hNe, hOld⟩
    · rcases hMoves.awaited _ (h.closing hIsClosed q c hAt (hMoves.isOpen hOpen)) with hMem | hEq | ⟨-, hNot⟩
      · exact hMem
      · cases hEq
      · rw [hOpen] at hNot
        cases hNot
    · exact ConnectPromise.awaited_mono (h.closing hIsClosed q d hOld hOpen)
        (hMoves.keeps (by simp) (by simpa using hNe))
  calls := by
    intro i call q hCall hPromise
    rw [hCalls] at hCall
    obtain ⟨d, hD, hOutcome, hWaits⟩ := h.calls i call q hCall hPromise
    by_cases hEq : q = p
    · subst hEq
      have hLt : q < s.promises.length := (List.getElem?_eq_some_iff.mp hAt).1
      obtain rfl := Option.some.inj (hAt.symm.trans hD)
      refine ⟨c', by rw [hPromises, List.getElem?_set_self hLt], fun outcome hSome =>
        hMoves.settled outcome (hOutcome outcome hSome), fun hNone => ?_⟩
      rcases hMoves.awaited _ (hWaits hNone) with hMem | hEq | ⟨hEq, -⟩
      · exact hMem
      · cases hEq
      · cases hEq
    · exact ⟨d, by rw [hPromises, List.getElem?_set_ne (Ne.symm hEq), hD], hOutcome, fun hNone =>
        ConnectPromise.awaited_mono (hWaits hNone) (hMoves.keeps (by simp) (by simp))⟩

/-- A job may come at any time, and one may go that nothing waits for. -/
theorem Disciplined.weaken (h : Disciplined jobs s)
    (hQueued : ∀ (p : Nat) c, s.promises[p]? = some c → c.stage.queued = true →
      .connect p ∈ jobs → .connect p ∈ jobs')
    (hClosing : ∀ (p : Nat) c, s.promises[p]? = some c → c.isOpen = true → c.stage.settled.isSome = true →
      .closeClient p ∈ jobs → .closeClient p ∈ jobs')
    (hCalls : ∀ (i : Nat) call, s.calls[i]? = some call → call.outcome = none →
      (∃ p c, call.promise = some p ∧ s.promises[p]? = some c ∧ c.stage.settled.isSome = true) →
      .resume i ∈ jobs → .resume i ∈ jobs') : Disciplined jobs' s where
  toSlots := h.toSlots
  failed := h.failed
  queued := fun p c hAt hQ => hQueued p c hAt hQ (h.queued p c hAt hQ)
  closing := by
    intro hClosed p c hAt hOpen
    have hMem := h.closing hClosed p c hAt hOpen
    cases hSettled : c.stage.settled with
    | some outcome =>
        rw [ConnectPromise.awaited_settled hSettled] at hMem ⊢
        exact hClosing p c hAt hOpen (by rw [hSettled]; rfl) hMem
    | none =>
        rw [ConnectPromise.awaited_pending hSettled] at hMem ⊢
        exact hMem
  calls := by
    intro i call p hCall hPromise
    obtain ⟨c, hAt, hOutcome, hWaits⟩ := h.calls i call p hCall hPromise
    refine ⟨c, hAt, hOutcome, fun hNone => ?_⟩
    have hMem := hWaits hNone
    cases hSettled : c.stage.settled with
    | some outcome =>
        rw [ConnectPromise.awaited_settled hSettled] at hMem ⊢
        exact hCalls i call hCall hNone ⟨p, c, hPromise, hAt, by rw [hSettled]; rfl⟩ hMem
    | none =>
        rw [ConnectPromise.awaited_pending hSettled] at hMem ⊢
        exact hMem

theorem Disciplined.mono (h : Disciplined jobs s) (hSubset : jobs ⊆ jobs') : Disciplined jobs' s :=
  h.weaken (fun _ _ _ _ hMem => hSubset hMem) (fun _ _ _ _ _ hMem => hSubset hMem)
    (fun _ _ _ _ _ hMem => hSubset hMem)

/-- The connect goes on, and the rest of it is queued. -/
theorem moves_pending (hPending : c.stage.settled = none) (hPending' : c'.stage.settled = none)
    (hReactions : c'.reactions = c.reactions) (hOpen : c'.isOpen = true → c.isOpen = true)
    (hFailed : c'.stage.failed = true → c'.isOpen = false)
    (hJobs : ∀ job ∈ jobs, job ∈ jobs' ∨ job = .connect p) :
    Moves p c c' jobs (jobs' ++ [.connect p]) where
  failed := hFailed
  queued := fun _ => List.mem_append_right _ List.mem_cons_self
  isOpen := hOpen
  settled := by
    intro outcome hSome
    rw [hPending] at hSome
    cases hSome
  kept := fun job hMem => (hJobs job hMem).imp (List.mem_append_left _) Or.inl
  awaited := by
    intro job hMem
    rw [ConnectPromise.awaited_pending hPending] at hMem
    rw [ConnectPromise.awaited_pending hPending', hReactions]
    exact Or.inl hMem

/-- The promise is settled, and its reactions are queued. -/
theorem moves_settle (hPending : c.stage.settled = none) {stage : ConnectStage}
    {outcome : Except RevokerError Unit} (hSettled : stage.settled = some outcome)
    (hFailed : stage.failed = true → c.isOpen = false)
    (hJobs : ∀ job ∈ jobs, job ∈ jobs' ∨ job = .connect p) :
    Moves p c { c with stage := stage, reactions := [] } jobs (jobs' ++ c.reactions) where
  failed := hFailed
  queued := by
    intro hQueued
    cases stage with
    | ready | notReady _ | connected | threw _ => cases hSettled
    | connecting | fulfilled | rejected _ => cases hQueued
  isOpen := id
  settled := by
    intro outcome hSome
    rw [hPending] at hSome
    cases hSome
  kept := fun job hMem => (hJobs job hMem).imp (List.mem_append_left _) Or.inl
  awaited := by
    intro job hMem
    rw [ConnectPromise.awaited_pending hPending] at hMem
    rw [ConnectPromise.awaited_settled (c := { c with stage := stage, reactions := [] }) hSettled]
    exact Or.inl (List.mem_append_right _ hMem)

theorem Disciplined.waitForReady (h : Disciplined s.jobs s) {error : Option String}
    (hStep : s.waitForReady p error = some t) : Disciplined t.jobs t := by
  obtain ⟨c, hAt, hRest⟩ := Option.bind_eq_some_iff.mp hStep
  split_ifs at hRest with hStage
  cases hRest
  have hPending : c.stage.settled = none := by rw [hStage]; rfl
  have hWas : c.stage.isRejected = false := by rw [hStage]; rfl
  cases error with
  | none =>
      exact h.update hAt hWas rfl rfl rfl rfl
        (moves_pending hPending rfl rfl id (fun hFailed => by cases hFailed) fun _ hMem => Or.inl hMem)
  | some message =>
      exact h.update hAt hWas rfl rfl rfl rfl
        (moves_pending hPending rfl rfl id (fun hFailed => by cases hFailed) fun _ hMem => Or.inl hMem)

theorem isOpen_closeClient (c : ConnectPromise) : c.closeClient.isOpen = false := by
  rw [ConnectPromise.isOpen, ConnectPromise.closeClient]
  cases c.client <;> rfl

/-- The rest of a connect has run. -/
theorem Disciplined.connect (h : Disciplined (.connect p :: s.jobs) s) :
    Disciplined (s.connect p).jobs (s.connect p) := by
  have hJobs : ∀ job ∈ Continuation.connect p :: s.jobs, job ∈ s.jobs ∨ job = .connect p :=
    fun job hMem => (List.mem_cons.mp hMem).symm
  have hIdle : (∀ c, s.promises[p]? = some c → c.stage.queued = false) → Disciplined s.jobs s := by
    intro hNone
    refine h.weaken (fun q c hAt hQueued hMem => ?_) (fun q c _ _ _ hMem => ?_) (fun i call _ _ _ hMem => ?_)
    · rcases hJobs _ hMem with hMem | hEq
      · exact hMem
      · cases hEq
        rw [hNone c hAt] at hQueued
        cases hQueued
    · exact (hJobs _ hMem).resolve_right (by simp)
    · exact (hJobs _ hMem).resolve_right (by simp)
  rw [CoordinatorClient.connect]
  cases hAt : s.promises[p]? with
  | none => exact hIdle fun c hC => by rw [hAt] at hC; cases hC
  | some c =>
      have hQueued : c.stage.queued = false → Disciplined s.jobs s := by
        intro hNot
        refine hIdle fun d hD => ?_
        obtain rfl := Option.some.inj (hAt.symm.trans hD)
        exact hNot
      cases hStage : c.stage with
      | connecting | fulfilled | rejected error =>
          simp only [hStage]
          exact hQueued (by rw [hStage]; rfl)
      | ready =>
          simp only [hStage]
          exact h.update hAt (by rw [hStage]; rfl) rfl rfl rfl rfl
            (moves_pending (by rw [hStage]; rfl) rfl rfl id
            (fun hFailed => by cases hFailed) hJobs)
      | notReady message =>
          simp only [hStage]
          refine h.update hAt (by rw [hStage]; rfl) rfl rfl rfl rfl (moves_pending (by rw [hStage]; rfl) rfl rfl
            (fun hOpen => ?_) (fun _ => isOpen_closeClient c) hJobs)
          exact absurd (hOpen.symm.trans (isOpen_closeClient c)) (by simp)
      | connected =>
          simp only [hStage]
          exact h.update hAt (by rw [hStage]; rfl) rfl rfl rfl rfl (moves_settle (by rw [hStage]; rfl) rfl
            (fun hFailed => by cases hFailed) hJobs)
      | threw error =>
          simp only [hStage]
          exact h.update hAt (by rw [hStage]; rfl) rfl rfl rfl rfl (moves_settle (by rw [hStage]; rfl) rfl
            (fun _ => h.failed p c hAt (by rw [hStage]; rfl)) hJobs)

/-- The client of a settled promise is used or closed. -/
theorem moves_client {outcome : Except RevokerError Unit} (hSettled : c.stage.settled = some outcome)
    (hStage : c'.stage = c.stage) (hOpen : c'.isOpen = true → c.isOpen = true)
    (hFailed : c.stage.failed = false)
    (hJobs : ∀ job ∈ jobs, job ∈ jobs' ∨ job = .closeClient p ∧ c'.isOpen = false) :
    Moves p c c' jobs jobs' where
  failed := by
    intro h
    rw [hStage, hFailed] at h
    cases h
  queued := by
    intro h
    rw [hStage] at h
    cases hCase : c.stage with
    | ready | notReady _ | connected | threw _ =>
        rw [hCase] at hSettled
        cases hSettled
    | connecting | fulfilled | rejected _ =>
        rw [hCase] at h
        cases h
  isOpen := hOpen
  settled := fun outcome' h => by rw [hStage, h]
  kept := fun job hMem => (hJobs job hMem).imp_right Or.inr
  awaited := by
    intro job hMem
    rw [ConnectPromise.awaited_settled hSettled] at hMem
    rw [ConnectPromise.awaited_settled (hStage ▸ hSettled)]
    exact (hJobs job hMem).imp_right Or.inr

theorem Disciplined.closeClient (h : Disciplined (.closeClient p :: s.jobs) s) :
    Disciplined (s.closeClient p).jobs (s.closeClient p) := by
  have hIdle : (∀ c, s.promises[p]? = some c → c.stage ≠ .fulfilled) → Disciplined s.jobs s := by
    intro hNot
    refine h.weaken (fun q c _ _ hMem => ?_) (fun q c hAt hOpen hSettled hMem => ?_)
      (fun i call _ _ _ hMem => ?_)
    · exact (List.mem_cons.mp hMem).resolve_left (by simp)
    · rcases List.mem_cons.mp hMem with hEq | hMem
      · cases hEq
        -- a promise that is settled otherwise is rejected, and its client closed
        cases hStage : c.stage with
        | fulfilled => exact absurd hStage (hNot c hAt)
        | rejected error =>
            rw [h.failed _ c hAt (by rw [hStage]; rfl)] at hOpen
            cases hOpen
        | connecting | ready | notReady _ | connected | threw _ =>
            rw [hStage] at hSettled
            cases hSettled
      · exact hMem
    · exact (List.mem_cons.mp hMem).resolve_left (by simp)
  rw [CoordinatorClient.closeClient]
  cases hAt : s.promises[p]? with
  | none => exact hIdle fun c hC => by rw [hAt] at hC; cases hC
  | some c =>
      simp only
      split_ifs with hStage
      · refine h.update hAt (by rw [hStage]; rfl) rfl rfl rfl ?_ (moves_client (by rw [hStage]; rfl) rfl
          (fun hOpen => ?_) (by rw [hStage]; rfl) fun job hMem => ?_)
        · rw [show c.closeClient.stage = .fulfilled from hStage]
          rfl
        · exact absurd (hOpen.symm.trans (isOpen_closeClient c)) (by simp)
        · exact (List.mem_cons.mp hMem).symm.imp_right fun hEq => ⟨hEq, isOpen_closeClient c⟩
      · refine hIdle fun d hD => ?_
        obtain rfl := Option.some.inj (hAt.symm.trans hD)
        exact hStage

theorem isOpen_send (c : ConnectPromise) (request : RawRequest) : (c.send request).isOpen = c.isOpen := by
  rw [ConnectPromise.isOpen, ConnectPromise.isOpen, ConnectPromise.send]
  cases c.client <;> rfl

/-- A call that awaited a settled promise has its outcome. -/
theorem Disciplined.resumed {i : Nat} {call : ClientCall} {outcome : Except RevokerError Unit}
    (h : Disciplined (.resume i :: jobs) s) (hCall : s.calls[i]? = some call) (hPromise : call.promise = some p)
    (hAt : s.promises[p]? = some c) (hSettled : c.stage.settled = some outcome) :
    Disciplined jobs { s with calls := s.calls.set i { call with outcome := some outcome } } := by
  have hLt : i < s.calls.length := (List.getElem?_eq_some_iff.mp hCall).1
  have hKept : ∀ {job : Continuation}, job ≠ .resume i → job ∈ Continuation.resume i :: jobs → job ∈ jobs :=
    fun hNe hMem => (List.mem_cons.mp hMem).resolve_left hNe
  refine ⟨⟨h.slot, h.latest⟩, h.failed, fun q d hD hQueued => hKept (by simp) (h.queued q d hD hQueued),
    fun hClosed q d hD hOpen =>
      ConnectPromise.awaited_mono (h.closing hClosed q d hD hOpen) (hKept (by simp)),
    fun j other q hOther hOtherPromise => ?_⟩
  by_cases hEq : i = j
  · subst hEq
    rw [List.getElem?_set_self hLt, Option.some.injEq] at hOther
    subst hOther
    obtain rfl := Option.some.inj (hPromise.symm.trans hOtherPromise)
    refine ⟨c, hAt, fun outcome' hSome => ?_, fun hNone => by cases hNone⟩
    cases hSome
    exact hSettled
  · rw [List.getElem?_set_ne hEq] at hOther
    obtain ⟨d, hD, hOutcome, hWaits⟩ := h.calls j other q hOther hOtherPromise
    refine ⟨d, hD, hOutcome, fun hNone => ConnectPromise.awaited_mono (hWaits hNone) (hKept ?_)⟩
    simpa using Ne.symm hEq

theorem Disciplined.resume {i : Nat} (h : Disciplined (.resume i :: s.jobs) s) :
    Disciplined (s.resume i).jobs (s.resume i) := by
  have hIdle : (∀ call p c, s.calls[i]? = some call → call.promise = some p → s.promises[p]? = some c →
      c.stage.settled = none) → Disciplined s.jobs s := by
    intro hNone
    refine h.weaken (fun q c _ _ hMem => ?_) (fun q c _ _ _ hMem => ?_) (fun j call hCall _ hSettled hMem => ?_)
    · exact (List.mem_cons.mp hMem).resolve_left (by simp)
    · exact (List.mem_cons.mp hMem).resolve_left (by simp)
    · refine (List.mem_cons.mp hMem).resolve_left fun hEq => ?_
      cases hEq
      obtain ⟨p, c, hPromise, hAt, hIsSome⟩ := hSettled
      rw [hNone call p c hCall hPromise hAt] at hIsSome
      cases hIsSome
  rw [CoordinatorClient.resume]
  cases hCall : s.calls[i]? with
  | none => exact hIdle fun call p c hSome => by rw [hCall] at hSome; cases hSome
  | some call =>
      obtain ⟨request, promise, prior⟩ := call
      cases promise with
      | none =>
          refine hIdle fun other p c hOther hPromise => ?_
          obtain rfl := Option.some.inj (hCall.symm.trans hOther)
          cases hPromise
      | some p =>
          obtain ⟨c, hAt, -⟩ := h.calls i _ p hCall rfl
          cases hSettled : c.stage.settled with
          | none =>
              simp only [hAt, hSettled]
              refine hIdle fun other q d hOther hPromise hD => ?_
              obtain rfl := Option.some.inj (hCall.symm.trans hOther)
              cases hPromise
              obtain rfl := Option.some.inj (hAt.symm.trans hD)
              exact hSettled
          | some outcome =>
              simp only [hAt, hSettled]
              have hResumed := h.resumed hCall rfl hAt hSettled
              split
              · next sent =>
                  have hStage := ConnectStage.eq_fulfilled hSettled
                  refine hResumed.update hAt (by rw [hStage]; rfl) rfl rfl rfl ?_ (moves_client hSettled rfl
                    (fun hOpen => isOpen_send c sent ▸ hOpen) (by rw [hStage]; rfl) fun job hMem => Or.inl hMem)
                  rw [show (c.send sent).stage = .fulfilled from hStage]
                  rfl
              · exact hResumed

theorem not_rejected_of_pending (h : c.stage.settled = none) : c.stage.isRejected = false := by
  cases hStage : c.stage with
  | rejected error =>
      rw [hStage] at h
      cases h
  | connecting | ready | notReady _ | connected | threw _ | fulfilled => rfl

/-- What `then` adds comes to wait for its promise; nothing else has changed. -/
structure Reacted (s t : CoordinatorClient) (p : Nat) (job : Continuation) : Prop where
  clientPromise : t.clientPromise = s.clientPromise
  calls : t.calls = s.calls
  waits : ∃ c, t.promises[p]? = some c ∧ job ∈ c.awaited t.jobs

theorem Disciplined.react (h : Disciplined s.jobs s) (hAt : s.promises[p]? = some c) (job : Continuation) :
    Disciplined (s.react p job).jobs (s.react p job) ∧ Reacted s (s.react p job) p job := by
  have hLt : p < s.promises.length := (List.getElem?_eq_some_iff.mp hAt).1
  rw [CoordinatorClient.react, hAt]
  cases hSettled : c.stage.settled with
  | some outcome =>
      simp only [hSettled]
      refine ⟨?_, rfl, rfl, c, hAt, ?_⟩
      · have hMore : Disciplined (s.jobs ++ [job]) s := h.mono (List.subset_append_left _ _)
        exact ⟨⟨hMore.slot, hMore.latest⟩, hMore.failed, hMore.queued, hMore.closing, hMore.calls⟩
      · rw [ConnectPromise.awaited_settled hSettled]
        exact List.mem_append_right _ List.mem_cons_self
  | none =>
      simp only [hSettled]
      have hWas := not_rejected_of_pending hSettled
      refine ⟨h.update hAt hWas rfl rfl rfl ?_ ⟨h.failed p c hAt, h.queued p c hAt, id, fun _ => id,
        fun job hMem => Or.inl hMem, fun job hMem => Or.inl ?_⟩, rfl, rfl, _, List.getElem?_set_self hLt, ?_⟩
      · simp [hWas, setPromise]
      · rw [ConnectPromise.awaited_pending hSettled] at hMem
        rw [ConnectPromise.awaited_pending (by exact hSettled)]
        exact List.mem_append_left _ hMem
      · rw [ConnectPromise.awaited_pending (by exact hSettled)]
        exact List.mem_append_right _ List.mem_cons_self

/-- A new call waits for its promise, or it was refused. -/
theorem Disciplined.concat_call (h : Disciplined jobs s) {call : ClientCall}
    (hCall : ∀ p, call.promise = some p → call.outcome = none ∧
      ∃ c, s.promises[p]? = some c ∧ .resume s.calls.length ∈ c.awaited jobs) :
    Disciplined jobs { s with calls := s.calls ++ [call] } := by
  refine ⟨⟨h.slot, h.latest⟩, h.failed, h.queued, h.closing, fun i other p hOther hPromise => ?_⟩
  rcases Positions.getElem?_concat_cases hOther with hOld | ⟨rfl, rfl⟩
  · exact h.calls i other p hOld hPromise
  · obtain ⟨hNone, c, hAt, hMem⟩ := hCall p hPromise
    refine ⟨c, hAt, fun outcome hSome => ?_, fun _ => hMem⟩
    rw [hNone] at hSome
    cases hSome

/-- A promise is made where there was none in the slot. -/
theorem Disciplined.concat_promise (h : Disciplined s.jobs s) (hClosed : s.closed = false)
    (hSlot : s.clientPromise = none) (hPending : c.stage.isRejected = false)
    (hFailed : c.stage.failed = true → c.isOpen = false) (hSubset : s.jobs ⊆ jobs)
    (hQueued : c.stage.queued = true → .connect s.promises.length ∈ jobs) :
    Disciplined jobs { s with
      clientPromise := some s.promises.length
      promises := s.promises ++ [c]
      jobs := jobs } := by
  have hRejected : ∀ (q : Nat) d, s.promises[q]? = some d → d.stage.isRejected = true := by
    intro q d hD
    by_contra hNot
    have hSome := (h.slot q).mpr ⟨hClosed, d, hD, Bool.eq_false_iff.mpr hNot⟩
    rw [hSlot] at hSome
    cases hSome
  have hMore := h.mono hSubset
  refine ⟨⟨fun q => ?_, fun q d hD hNot => ?_⟩, fun q d hD hD' => ?_, fun q d hD hD' => ?_,
    fun hIsClosed => ?_, fun i call q hCall hPromise => ?_⟩
  · constructor
    · intro hSome
      cases hSome
      exact ⟨hClosed, c, List.getElem?_concat_length, hPending⟩
    · rintro ⟨-, d, hD, hNot⟩
      rcases Positions.getElem?_concat_cases hD with hOld | ⟨rfl, -⟩
      · rw [hRejected q d hOld] at hNot
        cases hNot
      · rfl
  · rcases Positions.getElem?_concat_cases hD with hOld | ⟨rfl, -⟩
    · rw [hRejected q d hOld] at hNot
      cases hNot
    · simp
  · rcases Positions.getElem?_concat_cases hD with hOld | ⟨-, rfl⟩
    · exact h.failed q d hOld hD'
    · exact hFailed hD'
  · rcases Positions.getElem?_concat_cases hD with hOld | ⟨rfl, rfl⟩
    · exact hMore.queued q d hOld hD'
    · exact hQueued hD'
  · rw [show s.closed = true from hIsClosed] at hClosed
    cases hClosed
  · obtain ⟨d, hD, hRest⟩ := hMore.calls i call q hCall hPromise
    exact ⟨d, Positions.getElem?_append_of_eq_some hD _, hRest⟩

/-- What `ensureConnected` returns is there. -/
theorem Disciplined.ensureConnected (h : Disciplined s.jobs s) (thrown : Option RevokerError) :
    Disciplined (s.ensureConnected thrown).1.jobs (s.ensureConnected thrown).1 ∧
      ∀ p, (s.ensureConnected thrown).2 = some p → ∃ c, (s.ensureConnected thrown).1.promises[p]? = some c := by
  rw [CoordinatorClient.ensureConnected]
  cases hClosed : s.closed with
  | true => exact ⟨h, fun p hSome => by cases hSome⟩
  | false =>
      simp only [Bool.false_eq_true, if_false]
      cases hSlot : s.clientPromise with
      | some p =>
          refine ⟨h, fun q hSome => ?_⟩
          cases hSome
          obtain ⟨-, c, hAt, -⟩ := (h.slot p).mp hSlot
          exact ⟨c, hAt⟩
      | none =>
          cases thrown with
          | none =>
              have hPromise := h.concat_promise (c := { client := some {}, stage := .connecting }) hClosed hSlot
                rfl (fun hFailed => by cases hFailed) (List.Subset.refl _) fun hQueued => by cases hQueued
              rw [hClosed] at hPromise
              refine ⟨hPromise, fun q hSome => ?_⟩
              cases hSome
              exact ⟨_, List.getElem?_concat_length⟩
          | some error =>
              have hPromise := h.concat_promise (c := { client := none, stage := .threw error }) hClosed hSlot
                rfl (fun _ => rfl) (List.subset_append_left _ [.connect s.promises.length])
                fun _ => List.mem_append_right _ List.mem_cons_self
              rw [hClosed] at hPromise
              refine ⟨hPromise, fun q hSome => ?_⟩
              cases hSome
              exact ⟨_, List.getElem?_concat_length⟩

theorem Disciplined.call (h : Disciplined s.jobs s) (request : Option RawRequest)
    (thrown : Option RevokerError) : Disciplined (s.call request thrown).jobs (s.call request thrown) := by
  obtain ⟨hEnsured, hThere⟩ := h.ensureConnected thrown
  rw [CoordinatorClient.call]
  generalize s.ensureConnected thrown = ensured at hEnsured hThere ⊢
  obtain ⟨u, promise⟩ := ensured
  cases promise with
  | none => exact hEnsured.concat_call fun p hSome => by cases hSome
  | some p =>
      obtain ⟨c, hAt⟩ := hThere p rfl
      obtain ⟨hDisciplined, hReacted⟩ := hEnsured.react hAt (.resume u.calls.length)
      refine hDisciplined.concat_call fun q hSome => ?_
      cases hSome
      rw [hReacted.calls]
      exact ⟨rfl, hReacted.waits⟩

theorem react_closed (s : CoordinatorClient) (p : Nat) (job : Continuation) :
    react { s with closed := true, clientPromise := none } p job =
      { s.react p job with closed := true, clientPromise := none } := by
  rw [react, react]
  cases s.promises[p]? with
  | none => rfl
  | some c => cases hSettled : c.stage.settled <;> simp [hSettled, queue, setPromise]

theorem Disciplined.not_rejected_of_isOpen (h : Disciplined jobs s) (hAt : s.promises[p]? = some c)
    (hOpen : c.isOpen = true) : c.stage.isRejected = false := by
  cases hStage : c.stage with
  | rejected error =>
      rw [h.failed p c hAt (by rw [hStage]; rfl)] at hOpen
      cases hOpen
  | connecting | ready | notReady _ | connected | threw _ | fulfilled => rfl

/-- The client in the slot is one that is to be closed. -/
theorem Disciplined.shut (h : Disciplined s.jobs s)
    (hClosing : ∀ p c, s.clientPromise = some p → s.promises[p]? = some c → .closeClient p ∈ c.awaited s.jobs) :
    Disciplined s.jobs { s with closed := true, clientPromise := none } where
  slot := fun p => iff_of_false (fun hSome => by cases hSome) (fun hClosed => by cases hClosed.1)
  latest := h.latest
  failed := h.failed
  queued := h.queued
  closing := by
    intro _ p c hAt hOpen
    cases hClosed : s.closed with
    | true => exact h.closing hClosed p c hAt hOpen
    | false => exact hClosing p c ((h.slot p).mpr ⟨hClosed, c, hAt, h.not_rejected_of_isOpen hAt hOpen⟩) hAt
  calls := h.calls

theorem Disciplined.close (h : Disciplined s.jobs s) : Disciplined s.close.jobs s.close := by
  rw [CoordinatorClient.close]
  cases hSlot : s.clientPromise with
  | none => exact h.shut fun p c hSome => by rw [hSlot] at hSome; cases hSome
  | some p =>
      obtain ⟨-, c, hAt, -⟩ := (h.slot p).mp hSlot
      obtain ⟨hDisciplined, hReacted⟩ := h.react hAt (.closeClient p)
      simp only [react_closed]
      refine hDisciplined.shut fun q d hSome hD => ?_
      rw [hReacted.clientPromise, hSlot] at hSome
      cases hSome
      obtain ⟨d', hD', hMem⟩ := hReacted.waits
      obtain rfl := Option.some.inj (hD.symm.trans hD')
      exact hMem

theorem Disciplined.run (h : Disciplined (job :: s.jobs) s) : Disciplined (s.run job).jobs (s.run job) := by
  cases job with
  | connect p => exact h.connect
  | resume i => exact h.resume
  | closeClient p => exact h.closeClient

theorem Disciplined.step (h : Disciplined s.jobs s) {a : Action} (hStep : s.step a = some t) :
    Disciplined t.jobs t := by
  cases a with
  | call request thrown =>
      cases hStep
      exact h.call request thrown
  | waitForReady p error => exact h.waitForReady hStep
  | close =>
      cases hStep
      exact h.close
  | turn =>
      rw [CoordinatorClient.step] at hStep
      cases hJobs : s.jobs with
      | nil =>
          rw [hJobs] at hStep
          cases hStep
      | cons job rest =>
          rw [hJobs] at hStep h
          cases hStep
          exact Disciplined.run (s := { s with jobs := rest })
            ⟨⟨h.slot, h.latest⟩, h.failed, h.queued, h.closing, h.calls⟩

theorem disciplined_start (address : String) : Disciplined [] { address := address } where
  slot := fun p => iff_of_false (fun hSome => by cases hSome) (fun ⟨_, c, hAt, _⟩ => by cases hAt)
  latest := fun p c hAt => by cases hAt
  failed := fun p c hAt => by cases hAt
  queued := fun p c hAt => by cases hAt
  closing := fun _ p c hAt => by cases hAt
  calls := fun i call p hCall => by cases hCall

theorem disciplined_of_reachable {address : String}
    (reach : Reachable (ofStep step) { address := address } s) : Disciplined s.jobs s :=
  reach.invariant (P := fun s => Disciplined s.jobs s) (fun _ _ _ h hStep => h.step hStep)
    (disciplined_start address)

/-- How many continuations a promise has still to queue. -/
def owed (c : ConnectPromise) : Nat :=
  match c.stage with
  | .ready | .notReady _ => c.reactions.length + 1
  | .connected | .threw _ => c.reactions.length
  | .connecting | .fulfilled | .rejected _ => 0

/-- How many turns it takes until nothing is queued. It falls with every continuation, so the
queue is empty in the end. -/
def rank (s : CoordinatorClient) : Nat := s.jobs.length + (s.promises.map owed).sum

/-- Which promises have created a client. -/
def created (s : CoordinatorClient) : List Bool := s.promises.map fun c => c.client.isSome

theorem rank_setPromise (hAt : s.promises[p]? = some c) (c' : ConnectPromise) :
    (s.setPromise p c').rank + owed c = s.rank + owed c' := by
  have hSum := Positions.sum_map_set owed hAt c'
  simp only [rank, setPromise]
  omega

@[simp] theorem rank_queue (s : CoordinatorClient) (jobs : List Continuation) :
    (s.queue jobs).rank = s.rank + jobs.length := by
  simp only [rank, queue, List.length_append]
  omega

theorem created_setPromise (hAt : s.promises[p]? = some c) (hSame : c'.client.isSome = c.client.isSome) :
    (s.setPromise p c').created = s.created :=
  Positions.map_set_of_eq _ hAt hSame

theorem isSome_client_closeClient (c : ConnectPromise) : c.closeClient.client.isSome = c.client.isSome :=
  Option.isSome_map

theorem isSome_client_send (c : ConnectPromise) (request : RawRequest) :
    (c.send request).client.isSome = c.client.isSome :=
  Option.isSome_map

/-- A continuation creates no client, opens nothing again, and queues only what is owed. -/
structure Turned (s t : CoordinatorClient) : Prop where
  closed : t.closed = s.closed
  created : t.created = s.created
  rank : t.rank ≤ s.rank

theorem turned_run (s : CoordinatorClient) (job : Continuation) : Turned s (s.run job) := by
  have hSame : Turned s s := ⟨rfl, rfl, Nat.le_refl _⟩
  cases job with
  | connect p =>
      rw [run, connect]
      cases hAt : s.promises[p]? with
      | none => exact hSame
      | some c =>
          cases hStage : c.stage with
          | connecting | fulfilled | rejected error =>
              simp only [hStage]
              exact hSame
          | ready =>
              simp only [hStage]
              have hRank := rank_setPromise hAt { c with stage := .connected }
              refine ⟨rfl, created_setPromise hAt rfl, ?_⟩
              rw [rank_queue]
              simp only [owed, hStage, List.length_singleton] at hRank ⊢
              omega
          | notReady message =>
              simp only [hStage]
              have hRank := rank_setPromise hAt { c.closeClient with stage := .threw (s.connectFailed message) }
              refine ⟨rfl, created_setPromise hAt (isSome_client_closeClient c), ?_⟩
              rw [rank_queue]
              simp only [owed, hStage, List.length_singleton, ConnectPromise.closeClient] at hRank ⊢
              omega
          | connected =>
              simp only [hStage]
              have hRank := rank_setPromise hAt { c with stage := .fulfilled, reactions := [] }
              refine ⟨rfl, created_setPromise hAt rfl, ?_⟩
              rw [settle, rank_queue]
              simp only [owed, hStage] at hRank ⊢
              omega
          | threw error =>
              simp only [hStage]
              have hRank := rank_setPromise hAt { c with stage := .rejected error, reactions := [] }
              refine ⟨rfl, created_setPromise hAt rfl, ?_⟩
              rw [settle, rank_queue]
              simp only [owed, hStage, rank, setPromise] at hRank ⊢
              omega
  | resume i =>
      rw [run, resume]
      split
      · exact hSame
      · split
        · exact hSame
        · split
          · exact hSame
          · next c hAt =>
              split
              · exact hSame
              · split
                · next sent _ _ =>
                    have hRank := rank_setPromise hAt (c.send sent)
                    refine ⟨rfl, created_setPromise hAt (isSome_client_send c sent), ?_⟩
                    simp only [owed, ConnectPromise.send, rank, setPromise] at hRank ⊢
                    omega
                · exact ⟨rfl, rfl, Nat.le_refl _⟩
  | closeClient p =>
      rw [run, closeClient]
      cases hAt : s.promises[p]? with
      | none => exact hSame
      | some c =>
          simp only
          split_ifs with hStage
          · have hRank := rank_setPromise hAt c.closeClient
            refine ⟨rfl, created_setPromise hAt (isSome_client_closeClient c), ?_⟩
            simp only [owed, hStage, ConnectPromise.closeClient] at hRank ⊢
            omega
          · exact hSame

theorem turned_turn (hStep : s.step .turn = some t) :
    t.closed = s.closed ∧ t.created = s.created ∧ t.rank < s.rank := by
  rw [step] at hStep
  cases hJobs : s.jobs with
  | nil =>
      rw [hJobs] at hStep
      cases hStep
  | cons job rest =>
      rw [hJobs] at hStep
      cases hStep
      have hTurned := turned_run { s with jobs := rest } job
      have hRank : rank { s with jobs := rest } < s.rank := by
        simp only [rank, hJobs, List.length_cons]
        omega
      exact ⟨hTurned.closed, hTurned.created, Nat.lt_of_le_of_lt hTurned.rank hRank⟩

/-- The continuations come to an end when nothing else happens. -/
theorem exists_run_turns (s : CoordinatorClient) :
    ∃ as t, Run (restrict (ofStep step) fun _ a => a = .turn) s as t ∧ t.jobs = [] := by
  obtain ⟨as, t, hRun, -, hNone⟩ := exists_run_of_progress
    (R := restrict (ofStep step) fun _ a => a = Action.turn) (P := fun _ => True) (s := s) rank
    (fun u _ hJobs => by
      cases hQueue : u.jobs with
      | nil => exact absurd hQueue hJobs
      | cons job rest =>
          have hStep : u.step .turn = some ({ u with jobs := rest }.run job) := by rw [step, hQueue]
          exact ⟨.turn, _, ⟨hStep, rfl⟩, trivial, (turned_turn hStep).2.2⟩) trivial
  exact ⟨as, t, hRun, hNone⟩

/-- A closed client stays closed and creates no raw client. -/
theorem closed_step (hClosed : s.closed = true) {a : Action} (hStep : s.step a = some t) :
    t.closed = true ∧ t.created = s.created := by
  cases a with
  | call request thrown =>
      cases hStep
      rw [call, ensureConnected, if_pos hClosed]
      exact ⟨hClosed, rfl⟩
  | waitForReady p error =>
      obtain ⟨c, hAt, hRest⟩ := Option.bind_eq_some_iff.mp hStep
      split_ifs at hRest
      cases hRest
      exact ⟨hClosed, created_setPromise hAt rfl⟩
  | close =>
      cases hStep
      rw [close]
      split
      · exact ⟨rfl, rfl⟩
      · next p _ =>
          rw [react_closed]
          refine ⟨rfl, ?_⟩
          rw [react]
          split
          · rfl
          · next c hAt =>
              split
              · rfl
              · exact created_setPromise hAt rfl
  | turn =>
      obtain ⟨hSame, hCreated, -⟩ := turned_turn hStep
      exact ⟨hSame.trans hClosed, hCreated⟩

theorem created_run (hClosed : s.closed = true) {as : List Action} (run : Run (ofStep step) s as t) :
    t.created = s.created := by
  have hKept : t.closed = true ∧ t.created = s.created :=
    run.invariant (P := fun u => u.closed = true ∧ u.created = s.created)
      (fun u a v h hStep => by
        obtain ⟨hStill, hCreated⟩ := closed_step h.1 hStep
        exact ⟨hStill, hCreated.trans h.2⟩) ⟨hClosed, rfl⟩
  exact hKept.2

/-- A call that comes while the outcome is not known joins the connect that is under way. -/
theorem Disciplined.joins (h : Disciplined jobs s) (hAt : s.promises[p]? = some c)
    (hPending : c.stage.settled = none) (hClosed : s.closed = false) (request : Option RawRequest)
    (thrown : Option RevokerError) :
    (s.call request thrown).calls = s.calls ++ [{ request := request, promise := some p, outcome := none }] ∧
      (s.call request thrown).created = s.created := by
  have hSlot := (h.slot p).mpr ⟨hClosed, c, hAt, not_rejected_of_pending hPending⟩
  simp only [CoordinatorClient.call, CoordinatorClient.ensureConnected, hClosed, hSlot, Bool.false_eq_true,
    if_false, CoordinatorClient.react, hAt, hPending]
  exact ⟨rfl, created_setPromise hAt rfl⟩

/-- The calls of one connect agree on its outcome, and have it when nothing is queued. -/
theorem Disciplined.outcome (h : Disciplined jobs s) {i : Nat} {call : ClientCall}
    (hCall : s.calls[i]? = some call) (hPromise : call.promise = some p) : ∃ c, s.promises[p]? = some c ∧
      (∀ outcome, call.outcome = some outcome → c.stage.settled = some outcome) ∧
      (jobs = [] → call.outcome = c.stage.settled) := by
  obtain ⟨c, hAt, hOutcome, hWaits⟩ := h.calls i call p hCall hPromise
  refine ⟨c, hAt, hOutcome, fun hNone => ?_⟩
  subst hNone
  cases hOwn : call.outcome with
  | some outcome => exact (hOutcome outcome hOwn).symm
  | none =>
      cases hSettled : c.stage.settled with
      | none => rfl
      | some outcome =>
          have hMem := hWaits hOwn
          rw [ConnectPromise.awaited_settled hSettled] at hMem
          cases hMem

/-- With nothing queued, a closed client has left open only what is still connecting. -/
theorem Disciplined.closed_of_quiet (h : Disciplined [] s) (hClosed : s.closed = true)
    (hAt : s.promises[p]? = some c) : c.stage = .connecting ∨ c.isOpen = false := by
  by_contra hNot
  obtain ⟨hStage, hOpen⟩ := not_or.mp hNot
  have hMem := h.closing hClosed p c hAt (Bool.not_eq_false _ ▸ hOpen)
  cases hCase : c.stage with
  | connecting => exact hStage hCase
  | ready | notReady _ | connected | threw _ => cases h.queued p c hAt (by rw [hCase]; rfl)
  | fulfilled | rejected error =>
      rw [ConnectPromise.awaited_settled (by rw [hCase]; rfl)] at hMem
      cases hMem

/-- After a failed connect the slot is empty, and the next call starts from scratch. -/
theorem Disciplined.reconnects (h : Disciplined jobs s) {error : RevokerError} (hAt : s.promises[p]? = some c)
    (hFailed : c.stage = .rejected error) (hLast : p + 1 = s.promises.length) (hClosed : s.closed = false)
    (request : Option RawRequest) : (s.call request none).promises = s.promises ++ [{
      client := some {}
      stage := .connecting
      reactions := [.resume s.calls.length] }] := by
  have hSlot : s.clientPromise = none := by
    rw [Option.eq_none_iff_forall_ne_some]
    intro q hSome
    obtain ⟨-, d, hD, hNot⟩ := (h.slot q).mp hSome
    have hLatest := h.latest q d hD hNot
    obtain rfl : q = p := by omega
    obtain rfl := Option.some.inj (hAt.symm.trans hD)
    rw [hFailed] at hNot
    cases hNot
  simp [CoordinatorClient.call, CoordinatorClient.ensureConnected, hClosed, hSlot, CoordinatorClient.react,
    ConnectStage.settled, setPromise]

/-- Calls, connects that succeed or fail and `close` in any order: no two raw clients are
open; whoever joins a connect before it is over gets what the others get, which is how the
connect ended, and has it once the queue is empty; a call after a failure starts afresh;
and a closed client creates no raw client and leaves none open. That a connect ends at all
is up to `waitForReady`, and nothing is said of what the raw calls return. -/
theorem shared_connect {address : String} (reach : Reachable (ofStep step) { address := address } s) :
    (∀ (p q : Nat) c d, s.promises[p]? = some c → s.promises[q]? = some d →
      c.isOpen = true → d.isOpen = true → p = q) ∧
    (∀ (p : Nat) c, s.promises[p]? = some c → c.stage.settled = none → s.closed = false →
      ∀ request thrown, (s.call request thrown).calls =
          s.calls ++ [{ request := request, promise := some p, outcome := none }] ∧
        (s.call request thrown).created = s.created) ∧
    (∀ (i j : Nat) call call' p, s.calls[i]? = some call → s.calls[j]? = some call' →
      call.promise = some p → call'.promise = some p →
      (∀ outcome outcome', call.outcome = some outcome → call'.outcome = some outcome' → outcome = outcome') ∧
        (s.jobs = [] → call.outcome = call'.outcome)) ∧
    (∀ (i : Nat) call p, s.calls[i]? = some call → call.promise = some p → ∃ c, s.promises[p]? = some c ∧
      (∀ outcome, call.outcome = some outcome → c.stage.settled = some outcome) ∧
      (s.jobs = [] → call.outcome = c.stage.settled)) ∧
    (∀ (p : Nat) c error, s.promises[p]? = some c → c.stage = .rejected error → p + 1 = s.promises.length →
      s.closed = false → ∀ request, (s.call request none).promises = s.promises ++ [{
        client := some {}
        stage := .connecting
        reactions := [.resume s.calls.length] }]) ∧
    (s.closed = true →
      (∀ as t, Run (ofStep step) s as t → t.created = s.created) ∧
      (s.jobs = [] → ∀ c ∈ s.promises, c.stage = .connecting ∨ c.isOpen = false) ∧
      ∃ as t, Run (restrict (ofStep step) fun _ a => a = .turn) s as t ∧ t.jobs = []) := by
  have h := disciplined_of_reachable reach
  refine ⟨fun p q c d hC hD hOpen hOpen' => ?_, fun p c hAt hPending hClosed => h.joins hAt hPending hClosed,
    fun i j call call' p hCall hCall' hPromise hPromise' => ⟨fun outcome outcome' hSome hSome' => ?_,
      fun hQuiet => ?_⟩, fun i call p hCall hPromise => h.outcome hCall hPromise,
    fun p c error hAt hFailed hLast hClosed request => ?_, fun hClosed => ⟨?_, ?_, ?_⟩⟩
  · exact h.eq_of_not_rejected hD (h.not_rejected_of_isOpen hD hOpen') hC (h.not_rejected_of_isOpen hC hOpen)
  · obtain ⟨c, hAt, hOutcome, -⟩ := h.outcome hCall hPromise
    obtain ⟨d, hAt', hOutcome', -⟩ := h.outcome hCall' hPromise'
    obtain rfl := Option.some.inj (hAt.symm.trans hAt')
    exact Option.some.inj ((hOutcome outcome hSome).symm.trans (hOutcome' outcome' hSome'))
  · obtain ⟨c, hAt, -, hSettled⟩ := h.outcome hCall hPromise
    obtain ⟨d, hAt', -, hSettled'⟩ := h.outcome hCall' hPromise'
    obtain rfl := Option.some.inj (hAt.symm.trans hAt')
    rw [hSettled hQuiet, hSettled' hQuiet]
  · exact h.reconnects hAt hFailed hLast hClosed request
  · exact fun as t run => created_run hClosed run
  · intro hQuiet c hMem
    rw [hQuiet] at h
    obtain ⟨p, hAt⟩ := List.getElem?_of_mem hMem
    exact h.closed_of_quiet hClosed hAt
  · exact exists_run_turns s

/-- Two calls share a connect that fails, a third one starts a new one, and `close` comes
before that is ready. -/
def closeWhileConnecting : List Action :=
  [.call (some .getSnapshot) none, .call none none, .waitForReady 0 (some "refused"), .turn, .turn, .turn, .turn,
    .call (some (.subscribe 7)) none, .close, .call (some .listNodes) none, .waitForReady 1 none, .turn, .turn,
    .turn, .turn]

theorem shared_connect_closeWhileConnecting :
    ∃ s : CoordinatorClient, s.calls.map ClientCall.outcome =
        [some (.error (.internalError "Failed to connect to the coordinator at a:1: refused")),
          some (.error (.internalError "Failed to connect to the coordinator at a:1: refused")),
          some (.ok ()), some (.error closedError)] ∧
      ∀ c ∈ s.promises, c.stage = .connecting ∨ c.isOpen = false := by
  have hEnd : (exec step { address := "a:1" } closeWhileConnecting).map
      (fun s => (s.calls.map ClientCall.outcome, s.closed, s.jobs)) =
      some ([some (.error (.internalError "Failed to connect to the coordinator at a:1: refused")),
        some (.error (.internalError "Failed to connect to the coordinator at a:1: refused")),
        some (.ok ()), some (.error closedError)], true, []) := by
    decide +kernel
  obtain ⟨s, hRun, hEq⟩ := Option.map_eq_some_iff.mp hEnd
  obtain ⟨hOutcomes, hRest⟩ := Prod.ext_iff.mp hEq
  obtain ⟨hClosed, hJobs⟩ := Prod.ext_iff.mp hRest
  exact ⟨s, hOutcomes, ((shared_connect ⟨_, run_of_exec hRun⟩).2.2.2.2.2 hClosed).2.1 hJobs⟩

end CoordinatorClient

end TokenRevoker
