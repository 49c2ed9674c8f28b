import TokenRevoker.Core.Rotation
import Mathlib.Data.Rat.Floor

/-! A coordinator and a node that follows it, in integer time. The coordinator rotates
every `rotateTime` while it is up, keeps its filters across a stop and starts its clock
again with it. The core of the node rotates by itself once its own `rotateTime` has
passed since it last rotated for any reason. An entry leaves the node with the second
rotation after it, so the node keeps what the coordinator keeps as long as it does not get
ahead of the coordinator's rotations. -/
namespace TokenRevoker

open Text SignatureFilter Transition

/-- The coordinator's `rotateTime` and the `safetyFactor` of the node. -/
structure Schedule where
  rotateTime : Nat
  safetyFactor : ℚ
  rotateTime_pos : 0 < rotateTime
  two_le : 2 ≤ safetyFactor

/-- `rotateTime` of the node's core. -/
def Schedule.coreRotateTime (schedule : Schedule) : Nat :=
  ⌈(schedule.rotateTime : ℚ) * schedule.safetyFactor⌉₊

theorem Schedule.twice_le (schedule : Schedule) : 2 * schedule.rotateTime ≤ schedule.coreRotateTime := by
  have hTwice : ((2 * schedule.rotateTime : ℕ) : ℚ) ≤ schedule.rotateTime * schedule.safetyFactor := by
    rw [Nat.cast_mul, mul_comm]
    exact mul_le_mul_of_nonneg_left (by exact_mod_cast schedule.two_le) (Nat.cast_nonneg _)
  exact_mod_cast hTwice.trans (Nat.le_ceil _)

structure Degraded (g : Geometry) where
  now : Nat := 0
  /-- The coordinator's filters, in memory or as it restores them when it is down. -/
  coordinator : Manager g
  up : Bool := true
  /-- When the coordinator's rotation clock last started or ticked. -/
  ticked : Nat := 0
  /-- What the coordinator has streamed; `none` is a Rotate. -/
  log : List (Option JsString) := []
  node : Manager g
  /-- How many of these events the node has applied. -/
  applied : Nat := 0
  /-- When the core of the node was created or last rotated. -/
  rotated : Nat := 0
  /-- How many events the node had applied when its filters were last rotated, if they were. -/
  rotatedAt : Option Nat := none
  deriving DecidableEq

namespace Degraded

inductive Action where
  | advance
  | add (backupItem : Except String Unit) (item : JsString)
  | rotation
  | stop
  | restart (numItems : Nat)
  | apply (backupItem : Except String Unit)
  | selfRotation

variable {g : Geometry}

/-- A rotation of the node's filters. -/
def rotateNode (s : Degraded g) : Degraded g :=
  { s with node := s.node.swap, rotated := s.now, rotatedAt := some s.applied }

/-- One step, `none` where it cannot happen now. No timer that is due is passed over, and
what was streamed may reach the node when the coordinator is down. -/
def step (schedule : Schedule) (s : Degraded g) : Action → Option (Degraded g)
  | .advance =>
      if (s.up = true → s.now < s.ticked + schedule.rotateTime) ∧
          s.now < s.rotated + schedule.coreRotateTime then
        some { s with now := s.now + 1 }
      else none
  | .add backupItem item =>
      if s.up then
        match checkFilterItem item with
        | .error _ => some s
        -- the entry is replicated even where the coordinator's own filter refuses it
        | .ok () => some { s with
            coordinator := (s.coordinator.add backupItem item).1
            log := s.log ++ [some item] }
      else none
  | .rotation =>
      if s.up ∧ s.now = s.ticked + schedule.rotateTime then
        some { s with coordinator := s.coordinator.swap, ticked := s.now, log := s.log ++ [none] }
      else none
  | .stop => if s.up then some { s with up := false } else none
  | .restart numItems =>
      if s.up then none
      else some { s with
        up := true
        ticked := s.now
        coordinator := Manager.init g numItems s.coordinator.current s.coordinator.previous }
  | .apply backupItem =>
      match s.log[s.applied]? with
      | none => none
      | some none => some { s.rotateNode with applied := s.applied + 1 }
      | some (some item) =>
          match s.node.applyEntry backupItem item with
          | (node, .ok ()) => some { s with node := node, applied := s.applied + 1 }
          | (node, .error _) => some { s with node := node }
  | .selfRotation => if s.now = s.rotated + schedule.coreRotateTime then some s.rotateNode else none

/-- How often the coordinator has rotated since it streamed the `i`-th event. -/
def rotationsSince (s : Degraded g) (i : Nat) : Nat := rotationsFrom s.log i

/-- The coordinator's current or previous filter is the one that took the `i`-th event. What the
coordinator has forgotten the node may forget too. -/
def Retains (s : Degraded g) (i : Nat) : Prop := s.rotationsSince i < 2

/-- Every entry that the node has applied and the coordinator retains is covered by the
node. -/
def Keeps (s : Degraded g) : Prop :=
  ∀ i x, i < s.applied → s.log[i]? = some (some x) → s.Retains i →
    s.node.window.Covers (SizedFilter.signature g) x

def Action.rotatesNode (s : Degraded g) : Action → Bool
  | .apply _ => s.log[s.applied]? == some none
  | .selfRotation => true
  | _ => false

/-- When the node rotates, the coordinator has rotated twice since the event with which
the node rotated before. -/
def Trails (s : Degraded g) (a : Action) : Prop :=
  a.rotatesNode s = true → ∀ n ∈ s.rotatedAt, 2 ≤ s.rotationsSince n

/-- The coordinator stays up, and its tick comes first where both timers are due. This is what
the safety factor is for. -/
def Attended (schedule : Schedule) (s : Degraded g) : Action → Prop
  | .stop => False
  | .selfRotation => s.now < s.ticked + schedule.rotateTime
  | _ => True

/-- The node has just been created with the filters of the events up to `applied`. -/
structure Joined (s : Degraded g) : Prop where
  coordinator : s.coordinator.current.isSome = true
  node : s.node.current.isSome = true
  applied_le : s.applied ≤ s.log.length
  window : s.node.window = Window.replay (SizedFilter.signature g) ⟨⊥, ⊥⟩ (s.log.take s.applied)
  rotatedAt : s.rotatedAt =
    if none ∈ s.log.take s.applied then some (beforeLatest (s.log.take s.applied)).length else none
  rotated : s.rotated = s.now
  ticked : s.ticked ≤ s.now

variable {schedule : Schedule} {s t : Degraded g} {a : Action}

/-- What a step does. -/
inductive Effect (schedule : Schedule) (s : Degraded g) : Action → Degraded g → Prop where
  | advanced : Effect schedule s .advance { s with now := s.now + 1 }
  | stopped : Effect schedule s .stop { s with up := false }
  | restarted (numItems : Nat) (hDown : s.up = false) : Effect schedule s (.restart numItems) { s with
      up := true
      ticked := s.now
      coordinator := Manager.init g numItems s.coordinator.current s.coordinator.previous }
  | refused (backupItem : Except String Unit) (item : JsString) : Effect schedule s (.add backupItem item) s
  | streamed (backupItem : Except String Unit) (item : JsString) (coordinator : Manager g)
      (hFilters : s.coordinator.SameFilters coordinator ∨ s.coordinator.Inserted coordinator item) :
      Effect schedule s (.add backupItem item) { s with
        coordinator := coordinator
        log := s.log ++ [some item] }
  | ticked (hDue : s.now = s.ticked + schedule.rotateTime) : Effect schedule s .rotation { s with
      coordinator := s.coordinator.swap
      ticked := s.now
      log := s.log ++ [none] }
  | rotate (backupItem : Except String Unit) (hAt : s.log[s.applied]? = some none) :
      Effect schedule s (.apply backupItem) { s.rotateNode with applied := s.applied + 1 }
  | failed (backupItem : Except String Unit) (node : Manager g) (hSame : s.node.SameFilters node) :
      Effect schedule s (.apply backupItem) { s with node := node }
  | entry (backupItem : Except String Unit) (item : JsString) (node : Manager g)
      (hAt : s.log[s.applied]? = some (some item)) (hInserted : s.node.Inserted node item) :
      Effect schedule s (.apply backupItem) { s with node := node, applied := s.applied + 1 }
  | selfRotated (hDue : s.now = s.rotated + schedule.coreRotateTime) :
      Effect schedule s .selfRotation s.rotateNode

theorem step_effect (hStep : s.step schedule a = some t) : Effect schedule s a t := by
  cases a with
  | advance =>
      simp only [step] at hStep
      split_ifs at hStep
      cases hStep
      exact .advanced
  | add backupItem item =>
      simp only [step] at hStep
      split_ifs at hStep
      split at hStep
      · cases hStep
        exact .refused backupItem item
      · cases hStep
        refine .streamed backupItem item _ ?_
        rcases hAdd : (s.coordinator.add backupItem item).2 with error | _
        · exact Or.inl (Manager.add_of_error hAdd)
        · exact Or.inr (Manager.add_of_ok hAdd)
  | rotation =>
      simp only [step] at hStep
      split_ifs at hStep with hDue
      cases hStep
      exact .ticked hDue.2
  | stop =>
      simp only [step] at hStep
      split_ifs at hStep
      cases hStep
      exact .stopped
  | restart numItems =>
      simp only [step] at hStep
      split_ifs at hStep with hDown
      cases hStep
      exact .restarted numItems (by simpa using hDown)
  | apply backupItem =>
      simp only [step] at hStep
      split at hStep
      · cases hStep
      · rename_i hAt
        cases hStep
        exact .rotate backupItem hAt
      · rename_i item hAt
        rcases hApply : s.node.applyEntry backupItem item with ⟨node, error | _⟩
        · simp only [hApply] at hStep
          cases hStep
          have hSame := Manager.applyEntry_of_error (by rw [hApply] : _ = Except.error error)
          rw [hApply] at hSame
          exact .failed backupItem node hSame
        · simp only [hApply] at hStep
          cases hStep
          have hInserted := Manager.applyEntry_of_ok (by rw [hApply] : _ = Except.ok ())
          rw [hApply] at hInserted
          exact .entry backupItem item node hAt hInserted
  | selfRotation =>
      simp only [step] at hStep
      split_ifs at hStep with hDue
      cases hStep
      exact .selfRotated hDue

/-- Where what the node has applied is. -/
structure Following (s : Degraded g) : Prop where
  node : s.node.current.isSome = true
  applied_le : s.applied ≤ s.log.length
  current : ∀ i x, i < s.applied → s.log[i]? = some (some x) → (∀ n ∈ s.rotatedAt, n ≤ i) →
    s.node.window.Held (SizedFilter.signature g) 0 x
  keeps : s.Keeps

theorem Joined.following (h : s.Joined) : s.Following := by
  have hHeld : ∀ i x, i < s.applied → s.log[i]? = some (some x) →
      s.node.window.Held (SizedFilter.signature g) (rotationsFrom (s.log.take s.applied) i) x := by
    intro i x hLt hAt
    rw [h.window]
    refine Window.held_replay ?_ _
    rw [List.getElem?_take_of_lt hLt]
    exact hAt
  refine ⟨h.node, h.applied_le, fun i x hLt hAt hLast => ?_, fun i x hLt hAt hRetains => ?_⟩
  · have hNone : rotationsFrom (s.log.take s.applied) i = 0 := by
      have hEntry : (s.log.take s.applied)[i]? = some (some x) := by
        rw [List.getElem?_take_of_lt hLt]
        exact hAt
      by_cases hRotated : none ∈ s.log.take s.applied
      · have hLe : (beforeLatest (s.log.take s.applied)).length ≤ i :=
          hLast _ (by rw [h.rotatedAt, if_pos hRotated]; rfl)
        rw [rotationsFrom_insert hEntry]
        refine Nat.le_zero.mp ((rotationsFrom_anti _ (Nat.succ_le_succ hLe)).trans ?_)
        rw [rotationsFrom_eq_zero (none_notMem_drop_beforeLatest _)]
      · exact rotationsFrom_eq_zero fun hMem => hRotated (List.mem_of_mem_drop hMem)
    exact hNone ▸ hHeld i x hLt hAt
  · have hFew : rotationsFrom (s.log.take s.applied) i ≤ 1 :=
      (rotationsFrom_take_le _ _ _).trans (Nat.lt_succ_iff.mp hRetains)
    exact (hHeld i x hLt hAt).of_le hFew

/-- The coordinator streams one more event. -/
theorem Following.stream (h : s.Following) (event : Option JsString) (coordinator : Manager g)
    (ticked : Nat) : Following { s with
      coordinator := coordinator
      ticked := ticked
      log := s.log ++ [event] } where
  node := h.node
  applied_le := by
    rw [List.length_append]
    exact Nat.le_add_right_of_le h.applied_le
  current := by
    intro i x hLt hAt hLast
    rw [List.getElem?_append_left (hLt.trans_le h.applied_le)] at hAt
    exact h.current i x hLt hAt hLast
  keeps := by
    intro i x hLt hAt hRetains
    rw [List.getElem?_append_left (hLt.trans_le h.applied_le)] at hAt
    refine h.keeps i x hLt hAt (Nat.lt_of_le_of_lt ?_ hRetains)
    rw [rotationsSince, rotationsSince, rotationsFrom_append (hLt.le.trans h.applied_le)]
    exact Nat.le_add_right _ _

/-- What the node loses with a rotation, the coordinator has lost before. -/
theorem Following.rotateNode (h : s.Following) (hTrails : ∀ n ∈ s.rotatedAt, 2 ≤ s.rotationsSince n) :
    s.rotateNode.Following where
  node := rfl
  applied_le := h.applied_le
  current := by
    intro i x hLt hAt hLast
    exact absurd hLt (Nat.not_lt.mpr (hLast _ rfl))
  keeps := by
    intro i x hLt hAt hRetains
    have hLast : ∀ n ∈ s.rotatedAt, n ≤ i := by
      intro n hn
      by_contra hLater
      have hMany := (hTrails n hn).trans (rotationsFrom_anti s.log (Nat.not_le.mp hLater).le)
      exact absurd hRetains (Nat.not_lt.mpr hMany)
    have hHeld := (h.current i x hLt hAt hLast).rotate
    rwa [← Manager.swap_window] at hHeld

/-- A Rotate is counted as applied. -/
theorem Following.skip (h : s.Following) (hAt : s.log[s.applied]? = some none) :
    Following { s with applied := s.applied + 1 } := by
  have hBefore : ∀ i x, i < s.applied + 1 → s.log[i]? = some (some x) → i < s.applied := by
    intro i x hLt hEntry
    refine Nat.lt_of_le_of_ne (Nat.lt_succ_iff.mp hLt) fun hEq => ?_
    rw [hEq, hAt] at hEntry
    cases hEntry
  refine ⟨h.node, (List.getElem?_eq_some_iff.mp hAt).1, fun i x hLt hEntry hLast => ?_,
    fun i x hLt hEntry hRetains => ?_⟩
  · exact h.current i x (hBefore i x hLt hEntry) hEntry hLast
  · exact h.keeps i x (hBefore i x hLt hEntry) hEntry hRetains

/-- An entry goes to the current filter of the node. -/
theorem Following.entry (h : s.Following) {item : JsString} (hAt : s.log[s.applied]? = some (some item))
    {node : Manager g} (hInserted : s.node.Inserted node item) :
    Following { s with node := node, applied := s.applied + 1 } := by
  have hWindow := hInserted.window h.node
  have hLast : ∀ i x, i < s.applied + 1 → s.log[i]? = some (some x) → i < s.applied ∨ x = item := by
    intro i x hLt hEntry
    refine (Nat.lt_succ_iff_lt_or_eq.mp hLt).imp_right ?_
    rintro rfl
    rw [hAt] at hEntry
    cases hEntry
    rfl
  refine ⟨?_, (List.getElem?_eq_some_iff.mp hAt).1, fun i x hLt hEntry hSince => ?_,
    fun i x hLt hEntry hRetains => ?_⟩
  · change node.current.isSome = true
    rw [hInserted.current, Option.isSome_map]
    exact h.node
  · change Window.Held (SizedFilter.signature g) 0 node.window x
    rw [hWindow]
    rcases hLast i x hLt hEntry with hBefore | rfl
    · exact (h.current i x hBefore hEntry hSince).insert item
    · exact Window.held_insert _ _
  · change Window.Held (SizedFilter.signature g) 1 node.window x
    rw [hWindow]
    rcases hLast i x hLt hEntry with hBefore | rfl
    · have hHeld : Window.Held (SizedFilter.signature g) 1 s.node.window x :=
        h.keeps i x hBefore hEntry hRetains
      exact hHeld.insert item
    · exact (Window.held_insert _ _).succ

theorem Following.step (h : s.Following) (hStep : s.step schedule a = some t) (hTrails : s.Trails a) :
    t.Following := by
  cases step_effect hStep with
  | advanced | stopped | restarted => exact ⟨h.node, h.applied_le, h.current, h.keeps⟩
  | refused => exact h
  | streamed backupItem item coordinator => exact h.stream (some item) coordinator s.ticked
  | ticked => exact h.stream none s.coordinator.swap s.now
  | rotate backupItem hAt =>
      have hBefore : ∀ n ∈ s.rotatedAt, 2 ≤ s.rotationsSince n :=
        hTrails (by rw [Action.rotatesNode, hAt]; rfl)
      exact (h.rotateNode hBefore).skip hAt
  | failed backupItem node hSame =>
      refine ⟨?_, h.applied_le, fun i x hLt hEntry hLast => ?_, fun i x hLt hEntry hRetains => ?_⟩
      · exact (congrArg Option.isSome hSame.current).trans h.node
      · exact hSame.window ▸ h.current i x hLt hEntry hLast
      · exact hSame.window ▸ h.keeps i x hLt hEntry hRetains
  | entry backupItem item node hAt hInserted => exact h.entry hAt hInserted
  | selfRotated => exact h.rotateNode (hTrails rfl)

/-- A node whose rotations trail those of the coordinator keeps what the coordinator keeps,
whoever starts them and however long the coordinator is down. -/
theorem keeps_of_trails {actions : List Action} (hJoined : s.Joined)
    (run : Run (restrict (ofStep (step schedule)) Trails) s actions t) : t.Keeps :=
  (run.invariant (P := Following) (fun _ _ _ h hStep => h.step hStep.1 hStep.2) hJoined.following).keeps

/-- A coordinator that stays up is ahead of the node. -/
structure Tended (schedule : Schedule) (s : Degraded g) : Prop where
  up : s.up = true
  applied_le : s.applied ≤ s.log.length
  rotatedAt_le : ∀ n ∈ s.rotatedAt, n ≤ s.applied
  ticked : s.ticked ≤ s.now
  /-- It has rotated on time since the node last did. -/
  clock : s.ticked ≤ s.rotated + schedule.rotateTime * s.rotationsSince s.applied
  twice : ∀ n ∈ s.rotatedAt, 2 ≤ s.rotationsSince n ∨ s.rotationsSince s.applied < s.rotationsSince n

theorem Joined.tended (h : s.Joined) (hUp : s.up = true) : s.Tended schedule where
  up := hUp
  applied_le := h.applied_le
  rotatedAt_le := by
    intro n hn
    rw [h.rotatedAt] at hn
    split_ifs at hn
    · cases hn
      exact (length_beforeLatest_le _).trans (List.length_take_le _ _)
    · cases hn
  ticked := h.ticked
  clock := by
    rw [h.rotated]
    exact Nat.le_add_right_of_le h.ticked
  twice := by
    intro n hn
    rw [h.rotatedAt] at hn
    split_ifs at hn with hRotated
    · cases hn
      have hAt := getElem?_length_beforeLatest hRotated
      have hLt : (beforeLatest (s.log.take s.applied)).length < s.applied := by
        have hBound := (List.getElem?_eq_some_iff.mp hAt).1
        exact hBound.trans_le (List.length_take_le _ _)
      rw [List.getElem?_take_of_lt hLt] at hAt
      right
      rw [rotationsSince, rotationsSince, rotationsFrom_rotate hAt]
      exact Nat.lt_succ_iff.mpr (rotationsFrom_anti _ hLt)
    · cases hn

/-- When the node rotates by itself, the coordinator has rotated twice since the node last
did. -/
theorem Tended.two_le (h : s.Tended schedule) (hDue : s.now = s.rotated + schedule.coreRotateTime)
    (hFirst : s.now < s.ticked + schedule.rotateTime) : 2 ≤ s.rotationsSince s.applied := by
  by_contra hFew
  have hBound : schedule.rotateTime * s.rotationsSince s.applied ≤ schedule.rotateTime * 1 :=
    Nat.mul_le_mul_left _ (by omega)
  have hClock := h.clock
  have hTwice := schedule.twice_le
  omega

theorem Tended.trails (h : s.Tended schedule) (hStep : s.step schedule a = some t)
    (hAttended : s.Attended schedule a) : s.Trails a := by
  intro hRotates n hn
  have hAnti := rotationsFrom_anti s.log (h.rotatedAt_le n hn)
  cases a with
  | apply backupItem =>
      have hAt : s.log[s.applied]? = some none := by simpa [Action.rotatesNode] using hRotates
      have hNext : 0 < s.rotationsSince s.applied := by
        rw [rotationsSince, rotationsFrom_rotate hAt]
        exact Nat.succ_pos _
      rcases h.twice n hn with hTwice | hMore
      · exact hTwice
      · omega
  | selfRotation =>
      cases step_effect hStep with
      | selfRotated hDue => exact (h.two_le hDue hAttended).trans hAnti
  | advance | add | rotation | stop | restart => cases hRotates

theorem Tended.step (h : s.Tended schedule) (hStep : s.step schedule a = some t)
    (hAttended : s.Attended schedule a) : t.Tended schedule := by
  cases step_effect hStep with
  | stopped => exact hAttended.elim
  | advanced => exact ⟨h.up, h.applied_le, h.rotatedAt_le, Nat.le_succ_of_le h.ticked, h.clock, h.twice⟩
  | restarted numItems hDown =>
      rw [h.up] at hDown
      cases hDown
  | refused => exact h
  | streamed backupItem item coordinator =>
      have hSame : ∀ i ≤ s.applied, rotationsFrom (s.log ++ [some item]) i = rotationsFrom s.log i := by
        intro i hLe
        rw [rotationsFrom_append (hLe.trans h.applied_le)]
        rfl
      refine ⟨h.up, ?_, h.rotatedAt_le, h.ticked, ?_, fun n hn => ?_⟩
      · rw [List.length_append]
        exact Nat.le_add_right_of_le h.applied_le
      · rw [rotationsSince, hSame _ le_rfl]
        exact h.clock
      · rw [rotationsSince, rotationsSince, hSame _ le_rfl, hSame n (h.rotatedAt_le n hn)]
        exact h.twice n hn
  | ticked hDue =>
      have hMore : ∀ i ≤ s.applied, rotationsFrom (s.log ++ [none]) i = rotationsFrom s.log i + 1 := by
        intro i hLe
        rw [rotationsFrom_append (hLe.trans h.applied_le)]
        rfl
      refine ⟨h.up, ?_, h.rotatedAt_le, le_rfl, ?_, fun n hn => ?_⟩
      · rw [List.length_append]
        exact Nat.le_add_right_of_le h.applied_le
      · rw [rotationsSince, hMore _ le_rfl, Nat.mul_succ, ← Nat.add_assoc, hDue]
        exact Nat.add_le_add_right h.clock _
      · have hBefore := h.twice n hn
        rw [rotationsSince, rotationsSince] at hBefore ⊢
        rw [hMore _ le_rfl, hMore n (h.rotatedAt_le n hn)]
        omega
  | rotate backupItem hAt =>
      refine ⟨h.up, (List.getElem?_eq_some_iff.mp hAt).1, fun n hn => ?_, h.ticked,
        Nat.le_add_right_of_le h.ticked, fun n hn => ?_⟩
      · cases hn
        exact Nat.le_succ _
      · cases hn
        right
        rw [rotationsSince, rotationsSince]
        exact (rotationsFrom_rotate hAt).ge
  | failed => exact ⟨h.up, h.applied_le, h.rotatedAt_le, h.ticked, h.clock, h.twice⟩
  | entry backupItem item node hAt =>
      have hSame := rotationsFrom_insert hAt
      refine ⟨h.up, (List.getElem?_eq_some_iff.mp hAt).1,
        fun n hn => (h.rotatedAt_le n hn).trans (Nat.le_succ _), h.ticked, ?_, fun n hn => ?_⟩
      · rw [rotationsSince, ← hSame]
        exact h.clock
      · rw [rotationsSince, rotationsSince, ← hSame]
        exact h.twice n hn
  | selfRotated hDue =>
      refine ⟨h.up, h.applied_le, fun n hn => ?_, h.ticked, Nat.le_add_right_of_le h.ticked, fun n hn => ?_⟩
      · cases hn
        exact le_rfl
      · cases hn
        exact Or.inl (h.two_le hDue hAttended)

/-- A coordinator that is not stopped is ahead of every rotation of the node. -/
theorem trails_of_attended {actions : List Action} (hJoined : s.Joined) (hUp : s.up = true)
    (run : Run (restrict (ofStep (step schedule)) (Attended schedule)) s actions t) :
    Run (restrict (ofStep (step schedule)) Trails) s actions t := by
  suffices h : Run (restrict (ofStep (step schedule)) Trails) s actions t ∧ t.Tended schedule from h.1
  induction run with
  | nil => exact ⟨Run.nil s, hJoined.tended hUp⟩
  | snoc prior last ih =>
      obtain ⟨run, hTended⟩ := ih
      obtain ⟨hStep, hAttended⟩ := last
      exact ⟨run.snoc ⟨hStep, hTended.trails hStep hAttended⟩, hTended.step hStep hAttended⟩

/-- The `n`-th event is an entry that the coordinator's own filters took. -/
structure Held (n : Nat) (item : JsString) (s : Degraded g) : Prop where
  coordinator : s.coordinator.current.isSome = true
  lt_length : n < s.log.length
  held : s.coordinator.window.Held (SizedFilter.signature g) (s.rotationsSince n) item

theorem Held.step {n : Nat} {item : JsString} (h : s.Held n item) (hStep : s.step schedule a = some t) :
    t.Held n item := by
  cases step_effect hStep with
  | advanced | stopped | rotate | failed | entry | selfRotated => exact ⟨h.coordinator, h.lt_length, h.held⟩
  | restarted numItems =>
      obtain ⟨current, hCurrent⟩ := Option.isSome_iff_exists.mp h.coordinator
      have hSame : (Manager.init g numItems s.coordinator.current s.coordinator.previous).window =
          s.coordinator.window := by
        rw [Manager.window, Manager.window, Manager.init, hCurrent]
        rfl
      exact ⟨by simp [Manager.init, hCurrent], h.lt_length, hSame ▸ h.held⟩
  | refused => exact h
  | streamed backupItem other coordinator hFilters =>
      have hLength : n < (s.log ++ [some other]).length := by
        rw [List.length_append]
        exact Nat.lt_add_right _ h.lt_length
      have hSince : rotationsFrom (s.log ++ [some other]) n = rotationsFrom s.log n := by
        rw [rotationsFrom_append h.lt_length.le]
        rfl
      rcases hFilters with hSame | hInserted
      · refine ⟨(congrArg Option.isSome hSame.current).trans h.coordinator, hLength, ?_⟩
        rw [rotationsSince, hSince, hSame.window]
        exact h.held
      · refine ⟨by simpa [hInserted.current] using h.coordinator, hLength, ?_⟩
        rw [rotationsSince, hSince, hInserted.window h.coordinator]
        exact h.held.insert other
  | ticked =>
      refine ⟨rfl, ?_, ?_⟩
      · rw [List.length_append]
        exact Nat.lt_add_right _ h.lt_length
      · rw [rotationsSince, rotationsFrom_append h.lt_length.le, Manager.swap_window]
        exact h.held.rotate

/-- What the coordinator's own filter took, it covers as long as it retains it. -/
theorem coordinator_covers {backupItem : Except String Unit} {item : JsString} {actions : List Action}
    {s' : Degraded g} (hCurrent : s.coordinator.current.isSome = true)
    (hStep : s.step schedule (.add backupItem item) = some s')
    (hAdded : (s.coordinator.add backupItem item).2 = .ok ())
    (run : Run (ofStep (step schedule)) s' actions t) (hRetains : t.Retains s.log.length) :
    t.coordinator.window.Covers (SizedFilter.signature g) item := by
  have hHeld : s'.Held s.log.length item := by
    have hFilters := Manager.add_of_ok hAdded
    have hItem := checkFilterItem_eq_ok_iff.mpr (Manager.add_eq_ok_iff.mp hAdded).1
    simp only [step, hItem] at hStep
    split_ifs at hStep
    cases hStep
    refine ⟨by simpa [hFilters.current] using hCurrent, by simp, ?_⟩
    rw [hFilters.window hCurrent, rotationsSince, rotationsFrom, List.drop_left]
    exact Window.held_insert _ _
  have hEnd : t.Held s.log.length item :=
    run.invariant (P := Held s.log.length item) (fun _ _ _ h hStep => h.step hStep) hHeld
  exact hEnd.held.covers hRetains

/-- Two empty filters. -/
def fresh (g : Geometry) (numItems : Nat) : Degraded g where
  coordinator := Manager.init g numItems none none
  node := Manager.init g numItems none none

theorem joined_fresh (numItems : Nat) : (fresh g numItems).Joined where
  coordinator := rfl
  node := rfl
  applied_le := le_rfl
  window := by
    change Window.mk (SizedFilter.create g).bits ∅ = ⟨∅, ∅⟩
    rw [SizedFilter.bits_create]
  rotatedAt := rfl
  rotated := rfl
  ticked := le_rfl

def everySecond : Schedule := ⟨1, 2, Nat.one_pos, le_rfl⟩

/-- The coordinator has rotated twice since the node's first Rotate when the core of the node
rotates, and is then stopped. -/
theorem keeps_of_trails_stopped :
    ∃ t : Degraded .oneBucket, t.Retains 2 ∧ t.applied = 3 ∧ t.up = false ∧ t.Keeps := by
  have hEnd : (exec (guarded
      (fun s a => !a.rotatesNode s || s.rotatedAt.all fun n => decide (2 ≤ s.rotationsSince n))
      (step everySecond)) (fresh .oneBucket 1) [.add (.ok ()) [97], .advance, .rotation, .apply (.ok ()),
        .apply (.ok ()), .add (.ok ()) [98], .apply (.ok ()), .advance, .rotation, .advance, .selfRotation,
        .stop]).map (fun t => (decide (t.rotationsSince 2 < 2), t.applied, t.up)) =
      some (true, 3, false) := by decide +kernel
  obtain ⟨t, hRun, hEq⟩ := Option.map_eq_some_iff.mp hEnd
  simp only [Prod.mk.injEq, decide_eq_true_eq] at hEq
  obtain ⟨hRetains, hApplied, hDown⟩ := hEq
  refine ⟨t, hRetains, hApplied, hDown, keeps_of_trails (joined_fresh 1) ((run_of_exec hRun).of_guarded ?_)⟩
  intro s a hTest hRotates n hn
  rw [hRotates, Option.mem_def.mp hn] at hTest
  simpa using hTest

/-- The coordinator is down before its second rotation, and the core of the node rotates
twice. -/
theorem not_keeps : ¬ ∀ (schedule : Schedule) (s t : Degraded .oneBucket) (actions : List Action),
    s.Joined → Run (ofStep (step schedule)) s actions t → t.Keeps := by
  intro h
  have hEnd : (exec (step everySecond) (fresh .oneBucket 1) [.add (.ok ()) [97], .apply (.ok ()), .stop,
      .advance, .advance, .selfRotation, .advance, .advance, .selfRotation]).map (fun t =>
        (t.applied, t.log, t.node.covers [97])) = some (1, [some [97]], false) := by decide +kernel
  obtain ⟨t, hRun, hEq⟩ := Option.map_eq_some_iff.mp hEnd
  simp only [Prod.mk.injEq] at hEq
  obtain ⟨hApplied, hLog, hLost⟩ := hEq
  have hCovers := h everySecond _ t _ (joined_fresh 1) (run_of_exec hRun) 0 [97] (by omega)
    (by rw [hLog]; rfl) (by rw [Retains, rotationsSince, hLog]; decide)
  rw [← Manager.covers_iff (SizedFilter.addressable (by decide) _), hLost] at hCovers
  cases hCovers

end Degraded

end TokenRevoker
