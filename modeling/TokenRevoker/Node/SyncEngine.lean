import TokenRevoker.Server.CanonicalHistory

/-! The node's side of the replication. An event is applied only if its LSN is the next
one; older events are skipped, and anything else makes the engine ask for a snapshot. -/
namespace TokenRevoker

open Text

/-- `Number.MAX_SAFE_INTEGER`. -/
def maxSafeInteger : Nat := 2 ^ 53 - 1

/-- A number in an `int32` field. -/
def int32 (n : Nat) : Int := (BitVec.ofNat 32 n).toInt

theorem int32_eq {n : Nat} (h : n < 2 ^ 31) : int32 n = n := by
  have hNat : (BitVec.ofNat 32 n).toNat = n := by
    rw [BitVec.toNat_ofNat]
    omega
  rw [int32, BitVec.toInt_eq_toNat_cond, hNat, if_pos (by omega)]

/-- A string in a message: the receiver gets well-formed Unicode, and gets what was sent
if that is well-formed. -/
structure Wire where
  deliver : JsString → JsString
  isWellFormed : ∀ s, IsWellFormed (deliver s)
  deliver_eq : ∀ s, IsWellFormed s → deliver s = s

/-- The wire that replaces lone surrogates. -/
def Wire.utf8 : Wire := ⟨toWellFormed, isWellFormed_toWellFormed, fun _ h => h⟩

/-- `StreamEvent`, as a node receives it. -/
inductive StreamEvent where
  | entry (lsn : Nat) (generation : Int) (item : JsString)
  | rotate (lsn : Nat) (generation : Int)
  | keepalive (coordinatorLastLsn : Nat) (generation : Int)
  | resnapshot (generation : Int)
  deriving DecidableEq

/-- `toStreamEvent`: a tombstone is delivered as the entry it stands for. -/
def toStreamEvent (wire : Wire) : CanonicalEvent → StreamEvent
  | .entry lsn generation item | .tombstone lsn generation item =>
      .entry lsn (int32 generation) (wire.deliver item)
  | .rotate lsn generation => .rotate lsn (int32 generation)

def outboundToStreamEvent (wire : Wire) : OutboundEvent → StreamEvent
  | .entry lsn generation item => .entry lsn (int32 generation) (wire.deliver item)
  | .rotate lsn generation => .rotate lsn (int32 generation)
  | .keepalive coordinatorLastLsn generation => .keepalive coordinatorLastLsn (int32 generation)
  | .resnapshot generation => .resnapshot (int32 generation)

/-- The event that carries a record of the log. -/
def recordEvent (generation : Int) : LogRecord → StreamEvent
  | (lsn, .entry item) => .entry lsn generation item
  | (lsn, .rotate marker) => .rotate lsn (int32 marker)

/-- A read of the log is delivered as the records it stands for. -/
theorem toStreamEvent_eq (wire : Wire) {event : CanonicalEvent}
    (hItem : ∀ lsn x, event.record = (lsn, .entry x) → IsWellFormed x) :
    ∃ generation, toStreamEvent wire event = recordEvent generation event.record := by
  cases event with
  | entry lsn generation item | tombstone lsn generation item =>
      refine ⟨int32 generation, ?_⟩
      rw [toStreamEvent, wire.deliver_eq item (hItem lsn item rfl)]
      rfl
  | rotate lsn generation => exact ⟨0, rfl⟩

theorem recordEvent_eq_entry {r : LogRecord} {generation generation' : Int} {lsn : Nat} {item : JsString}
    (h : recordEvent generation r = .entry lsn generation' item) : r = (lsn, .entry item) := by
  obtain ⟨lsn', payload⟩ := r
  cases payload <;> cases h
  rfl

theorem recordEvent_eq_rotate {r : LogRecord} {generation generation' : Int} {lsn : Nat}
    (h : recordEvent generation r = .rotate lsn generation') :
    ∃ marker, r = (lsn, .rotate marker) ∧ generation' = int32 marker := by
  obtain ⟨lsn', payload⟩ := r
  cases payload with
  | entry item => cases h
  | rotate marker =>
      cases h
      exact ⟨marker, rfl, rfl⟩

structure SyncEngine where
  lastAppliedLsn : Nat
  generation : Nat
  /-- The reason of the rebootstrap that was asked for. -/
  rebootstrap : Option String := none
  deriving DecidableEq

/-- What `#applyEvent` does with an event. -/
inductive Verdict where
  | skip
  | rebootstrap (reason : String)
  | entry (lsn : Nat) (item : JsString)
  | rotate (lsn : Nat)
  deriving DecidableEq

namespace SyncEngine

/-- The checks of `#applyEvent` on the LSN; the LSN that is next passes. -/
def checkLsn (e : SyncEngine) (lsn : Nat) : Option Verdict :=
  if maxSafeInteger < lsn then
    some (.rebootstrap "malformed event lsn on the replication stream")
  else if lsn ≤ e.lastAppliedLsn then
    some .skip
  else if lsn ≠ e.lastAppliedLsn + 1 then
    some (.rebootstrap s!"LSN gap detected: expected {e.lastAppliedLsn + 1}, got {lsn}")
  else none

/-- `#applyEvent` up to the call of core. After a request for a snapshot nothing is
applied any more. -/
def check (e : SyncEngine) (event : StreamEvent) : Verdict :=
  if e.rebootstrap.isSome then .skip
  else match event with
  | .keepalive _ _ => .skip
  | .resnapshot _ => .rebootstrap "coordinator sent ResnapshotRequired (retention floor exceeded)"
  | .entry lsn _ item => (e.checkLsn lsn).getD (.entry lsn item)
  | .rotate lsn generation =>
      (e.checkLsn lsn).getD
        (if generation ≠ (e.generation + 1 : Nat) then .rebootstrap "rotation generation mismatch"
        else .rotate lsn)

/-- `#rebootstrap`. -/
def requestRebootstrap (e : SyncEngine) (reason : String) : SyncEngine :=
  { e with rebootstrap := some reason }

variable {e : SyncEngine} {event : StreamEvent} {lsn : Nat} {item : JsString} {reason : String}

/-- Only the next LSN gets past the checks. -/
theorem of_checkLsn_getD {verdict other : Verdict} (h : (e.checkLsn lsn).getD other = verdict)
    (hSkip : verdict ≠ .skip) (hApplied : ∀ reason, verdict ≠ .rebootstrap reason) :
    lsn = e.lastAppliedLsn + 1 ∧ other = verdict := by
  unfold checkLsn at h
  split_ifs at h with hUnsafe hOld hGap
  · exact absurd h.symm (hApplied _)
  · exact absurd h.symm hSkip
  · exact absurd h.symm (hApplied _)
  · exact ⟨not_not.mp hGap, h⟩

theorem check_eq_entry (h : e.check event = .entry lsn item) :
    lsn = e.lastAppliedLsn + 1 ∧ ∃ generation, event = .entry lsn generation item := by
  unfold check at h
  split_ifs at h
  cases event with
  | keepalive | resnapshot => cases h
  | entry lsn' generation item' =>
      obtain ⟨hNext, hEq⟩ := of_checkLsn_getD h (by simp) (by simp)
      cases hEq
      exact ⟨hNext, generation, rfl⟩
  | rotate lsn' generation =>
      obtain ⟨-, hEq⟩ := of_checkLsn_getD h (by simp) (by simp)
      split_ifs at hEq

theorem check_eq_rotate (h : e.check event = .rotate lsn) :
    lsn = e.lastAppliedLsn + 1 ∧ event = .rotate lsn (e.generation + 1 : Nat) := by
  unfold check at h
  split_ifs at h
  cases event with
  | keepalive | resnapshot => cases h
  | entry lsn' generation item =>
      obtain ⟨-, hEq⟩ := of_checkLsn_getD h (by simp) (by simp)
      cases hEq
  | rotate lsn' generation =>
      obtain ⟨hNext, hEq⟩ := of_checkLsn_getD h (by simp) (by simp)
      split_ifs at hEq with hGeneration
      cases hEq
      exact ⟨hNext, by rw [not_not.mp hGeneration]⟩

end SyncEngine

end TokenRevoker
