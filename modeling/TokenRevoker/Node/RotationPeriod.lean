import TokenRevoker.Library.DoubleRounding
import TokenRevoker.Node.SyncEngine

/-! The period of a rotation interval, from the validated configurations to `setInterval`.
The schemas bound neither `rotateTime` nor `safetyFactor` by what a timer can wait, and
a delay that no timer can wait becomes one of a millisecond. -/
namespace TokenRevoker

/-- The longest delay of a Node.js timer. -/
def timeoutMax : Nat := 2147483647

/-- The delay that `setInterval` uses. -/
def setIntervalDelay (delay : Int) : Int := if 1 ≤ delay ∧ delay ≤ timeoutMax then delay else 1

/-- `Joi.number().positive()`. A number that is not safe is refused. -/
def positiveSchema (value : ℚ) : Bool := 0 < value && value ≤ maxSafeInteger

/-- `Joi.number().positive().integer()`: the schema of `rotateTime` for core, for the
coordinator and for a node, and of core's `backupRatioTime`. -/
def positiveIntegerSchema (value : ℚ) : Bool := positiveSchema value && value.isInt

/-- `Joi.number().min(2)`. -/
def safetyFactorSchema (value : ℚ) : Bool := 2 ≤ value && value ≤ maxSafeInteger

/-- A `rotateTime` that its schema accepts. -/
structure RotateTime where
  ms : Nat
  accepted : positiveIntegerSchema ms = true

theorem positiveIntegerSchema_intCast_iff (value : Int) :
    positiveIntegerSchema value = true ↔ 0 < value ∧ value ≤ maxSafeInteger := by
  have hSafe : (value : ℚ) ≤ maxSafeInteger ↔ value ≤ maxSafeInteger := by norm_cast
  simp [positiveIntegerSchema, positiveSchema, Rat.isInt, hSafe]

theorem RotateTime.pos (rotateTime : RotateTime) : 0 < rotateTime.ms := by
  have h := (positiveIntegerSchema_intCast_iff rotateTime.ms).mp (by exact_mod_cast rotateTime.accepted)
  omega

/-- The fields of a node's configuration that decide about its rotation period, and about
whether its core is constructed. -/
structure NodePeriodConfig where
  /-- `filter.rotateTime`. -/
  rotateTime : RotateTime
  /-- `filter.backupRatioTime`. -/
  backupRatioTime : Option ℚ
  safetyFactor : Option ℚ
  backupRatioTime_accepted : ∀ value ∈ backupRatioTime, positiveSchema value = true
  safetyFactor_accepted : ∀ value ∈ safetyFactor, safetyFactorSchema value = true

/-- How the node came to its filters. -/
inductive Origin where
  | resumed
  | bootstrapped
  deriving DecidableEq

namespace NodePeriodConfig

/-- `#safetyFactor`, by default 2.5. -/
def factor (node : NodePeriodConfig) : ℚ := node.safetyFactor.getD (5 / 2)

/-- The `backupRatioTime` that core is given, by default 2. A node's own schema lets it have
a fraction. -/
def ratio (node : NodePeriodConfig) : ℚ := node.backupRatioTime.getD 2

/-- The argument of `#createRevoker`: what the node expects, or the `int32` field of the
snapshot. -/
def coordinatorRotateTime (node : NodePeriodConfig) (coordinator : RotateTime) : Origin → Int
  | .resumed => node.rotateTime.ms
  | .bootstrapped => int32 coordinator.ms

/-- `#createRevoker`: the delay of the rotation interval of the core that is constructed,
`none` where core refuses its configuration. -/
def createRevoker (node : NodePeriodConfig) (coordinatorRotateTime : Int) : Option Int :=
  let rotateTime := ⌈DoubleRounding.round (coordinatorRotateTime * node.factor)⌉
  if positiveIntegerSchema rotateTime && positiveIntegerSchema node.ratio then
    some (setIntervalDelay rotateTime)
  else none

/-- The core's interval fires in the time between two coordinated rotations, each of which
restarts it. -/
def SelfRotates (delay : Int) (gaps : List ℚ) : Prop := ∃ gap ∈ gaps, (delay : ℚ) ≤ gap

/-- The core that is constructed waits for `safetyFactor` times the coordinator's period,
and so never rotates by itself while coordinated rotations come in time. -/
def KeepsWindow (node : NodePeriodConfig) (coordinator : RotateTime) (origin : Origin) : Prop :=
  ∀ delay, node.createRevoker (node.coordinatorRotateTime coordinator origin) = some delay →
    node.factor * coordinator.ms ≤ delay ∧
      ∀ gaps : List ℚ, (∀ gap ∈ gaps, gap < node.factor * coordinator.ms) → ¬ SelfRotates delay gaps

/-- The product is rounded down to an integer, so `Math.ceil` does not raise it again. -/
def LosesFraction (x : ℚ) : Prop := ∃ n : ℤ, DoubleRounding.round x = n ∧ (n : ℚ) < x

theorem two_le_factor (node : NodePeriodConfig) : 2 ≤ node.factor := by
  unfold factor
  cases h : node.safetyFactor with
  | none => norm_num
  | some value =>
      have hAccepted := node.safetyFactor_accepted value (by rw [h]; rfl)
      simp only [safetyFactorSchema, Bool.and_eq_true, decide_eq_true_eq] at hAccepted
      exact hAccepted.1

theorem ratio_accepted_iff (node : NodePeriodConfig) :
    positiveIntegerSchema node.ratio = true ↔ node.ratio.isInt = true := by
  unfold positiveIntegerSchema ratio
  cases h : node.backupRatioTime with
  | none => decide +kernel
  | some value => simp [node.backupRatioTime_accepted value (by rw [h]; rfl)]

/-- A core is constructed where the product is positive and not too large for the schema. -/
theorem createRevoker_eq_some_iff (node : NodePeriodConfig) {time delay : Int} :
    node.createRevoker time = some delay ↔
      node.ratio.isInt = true ∧ 0 < time ∧
        DoubleRounding.round (time * node.factor) ≤ maxSafeInteger ∧
        setIntervalDelay ⌈DoubleRounding.round (time * node.factor)⌉ = delay := by
  have hFactor := node.two_le_factor
  have hSafe : ⌈DoubleRounding.round (time * node.factor)⌉ ≤ maxSafeInteger ↔
      DoubleRounding.round (time * node.factor) ≤ maxSafeInteger := by
    rw [Int.ceil_le]
    norm_cast
  have hPos : 0 < ⌈DoubleRounding.round (time * node.factor)⌉ ↔ 0 < time := by
    rw [Int.ceil_pos]
    constructor
    · intro h
      by_contra hTime
      have hProduct : (time : ℚ) * node.factor ≤ 0 :=
        mul_nonpos_of_nonpos_of_nonneg (by exact_mod_cast not_lt.mp hTime) (by linarith)
      exact absurd h (not_lt.mpr (DoubleRounding.round_nonpos hProduct))
    · intro h
      have hTime : (1 : ℚ) ≤ time := by exact_mod_cast h
      have := DoubleRounding.one_le_round (x := time * node.factor) (by nlinarith)
      linarith
  unfold createRevoker
  simp only [Option.ite_none_right_eq_some, Option.some.injEq, Bool.and_eq_true, ratio_accepted_iff,
    positiveIntegerSchema_intCast_iff, hSafe, hPos]
  tauto

/-- Between the product and its rounding there is less than a millisecond, as long as a
timer can wait that long. -/
theorem abs_round_sub_le {x : ℚ} (hPos : 1 ≤ x) (hTimer : DoubleRounding.round x ≤ timeoutMax) :
    DoubleRounding.exponent x ≤ 52 ∧ |DoubleRounding.round x - x| ≤ 1 / 2 := by
  have hPow : (2 : ℚ) ^ DoubleRounding.exponent x < 2 ^ 31 := by
    have := DoubleRounding.two_pow_exponent_le_round hPos
    have hMax : ((timeoutMax : Nat) : ℚ) < 2 ^ 31 := by norm_num [timeoutMax]
    linarith
  have hExponent : DoubleRounding.exponent x < 31 :=
    (pow_lt_pow_iff_right₀ (by norm_num)).mp hPow
  refine ⟨by omega, (DoubleRounding.abs_round_sub (by linarith)).trans ?_⟩
  have hUlp : DoubleRounding.ulp x ≤ 1 := by
    rw [DoubleRounding.ulp, div_le_one (by positivity)]
    exact pow_le_pow_right₀ one_le_two (by omega)
  linarith

/-- The node waits long enough where it was given more than the coordinator's period, or
that period itself and no fraction is lost. -/
theorem window_le_ceil_iff (node : NodePeriodConfig) (coordinator : RotateTime) {time : Int} (hTime : 0 < time)
    (hTimer : DoubleRounding.round (time * node.factor) ≤ timeoutMax) :
    node.factor * coordinator.ms ≤ (⌈DoubleRounding.round (time * node.factor)⌉ : ℚ) ↔
      coordinator.ms < time ∨ coordinator.ms = time ∧ ¬ LosesFraction (time * node.factor) := by
  have hFactor := node.two_le_factor
  have hOne : (1 : ℚ) ≤ time := by exact_mod_cast hTime
  have hPos : 1 ≤ (time : ℚ) * node.factor := by nlinarith
  obtain ⟨hExponent, hAbs⟩ := abs_round_sub_le hPos hTimer
  obtain ⟨hLow, hHigh⟩ := abs_le.mp hAbs
  have hCeil := Int.le_ceil (DoubleRounding.round (time * node.factor))
  have hCeilLt := Int.ceil_lt_add_one (DoubleRounding.round (time * node.factor))
  rcases lt_trichotomy (coordinator.ms : Int) time with hLt | hEq | hGt
  · have hStep : (coordinator.ms : ℚ) + 1 ≤ time := by exact_mod_cast hLt
    refine iff_of_true ?_ (.inl hLt)
    nlinarith
  · have hMs : (coordinator.ms : ℚ) = time := by exact_mod_cast hEq
    simp only [hEq, lt_irrefl, true_and, false_or]
    rw [hMs, mul_comm]
    constructor
    · rintro hLe ⟨n, hRound, hLess⟩
      rw [hRound, Int.ceil_intCast] at hLe
      linarith
    · intro hKept
      by_contra hLess
      rcases hCeil.lt_or_eq with hRaised | hSame
      · exact hLess (DoubleRounding.le_of_round_lt hPos hExponent hRaised)
      · exact hKept ⟨_, hSame, not_le.mp hLess⟩
  · have hStep : (time : ℚ) + 1 ≤ coordinator.ms := by exact_mod_cast hGt
    refine iff_of_false (fun hLe => ?_) (by omega)
    nlinarith

/-- The node keeps the coordinator's window exactly if its core refuses the product, or the
product is one that a timer can wait and was made from a period that is long enough. -/
theorem keepsWindow_iff (node : NodePeriodConfig) (coordinator : RotateTime) (origin : Origin) {time : Int}
    (hTime : node.coordinatorRotateTime coordinator origin = time) :
    node.KeepsWindow coordinator origin ↔
      node.ratio.isInt = false ∨ time ≤ 0 ∨ maxSafeInteger < DoubleRounding.round (time * node.factor) ∨
        DoubleRounding.round (time * node.factor) ≤ timeoutMax ∧
          (coordinator.ms < time ∨ coordinator.ms = time ∧ ¬ LosesFraction (time * node.factor)) := by
  have hFactor := node.two_le_factor
  have hMs : (1 : ℚ) ≤ coordinator.ms := by exact_mod_cast coordinator.pos
  have hTimer : DoubleRounding.round (time * node.factor) ≤ timeoutMax ↔
      ⌈DoubleRounding.round (time * node.factor)⌉ ≤ timeoutMax := by
    rw [Int.ceil_le]
    norm_cast
  -- a timer that waits as long as it is asked to
  have hWaits : 0 < time → DoubleRounding.round (time * node.factor) ≤ timeoutMax →
      setIntervalDelay ⌈DoubleRounding.round (time * node.factor)⌉ =
        ⌈DoubleRounding.round (time * node.factor)⌉ := by
    intro hPos hMax
    have hOne : (1 : ℚ) ≤ time := by exact_mod_cast hPos
    have hRound := DoubleRounding.one_le_round (x := time * node.factor) (by nlinarith)
    have hCeil : (0 : Int) < ⌈DoubleRounding.round (time * node.factor)⌉ := Int.ceil_pos.mpr (by linarith)
    exact if_pos ⟨hCeil, hTimer.mp hMax⟩
  unfold KeepsWindow
  rw [hTime]
  constructor
  · intro h
    by_contra hNot
    simp only [not_or, not_and, not_le, not_lt, Bool.not_eq_false] at hNot
    obtain ⟨hRatio, hPos, hSafe, hLong⟩ := hNot
    have hWindow := (h _ ((node.createRevoker_eq_some_iff).mpr ⟨hRatio, hPos, hSafe, rfl⟩)).1
    by_cases hMax : DoubleRounding.round (time * node.factor) ≤ timeoutMax
    · rw [hWaits hPos hMax, window_le_ceil_iff node coordinator hPos hMax] at hWindow
      rcases hWindow with hLt | ⟨hEq, hKept⟩
      · exact absurd hLt (not_lt.mpr (hLong hMax).1)
      · exact (hLong hMax).2 hEq hKept
    · rw [setIntervalDelay, if_neg fun hIn => hMax (hTimer.mpr hIn.2)] at hWindow
      push_cast at hWindow
      nlinarith
  · intro h delay hDelay
    obtain ⟨hRatio, hPos, hSafe, rfl⟩ := node.createRevoker_eq_some_iff.mp hDelay
    obtain ⟨hMax, hLong⟩ := ((h.resolve_left (by simp [hRatio])).resolve_left (not_le.mpr hPos)).resolve_left
      (not_lt.mpr hSafe)
    have hWindow := (window_le_ceil_iff node coordinator hPos hMax).mpr hLong
    rw [hWaits hPos hMax]
    refine ⟨hWindow, ?_⟩
    rintro gaps hGaps ⟨gap, hGap, hFires⟩
    have := hGaps gap hGap
    linarith

/-- The periods that the schemas accept are the effective ones exactly below the limit of a
timer, for core as for the product that a node derives. Products and quotients are those of
doubles. When the timer fires after its delay is up to the event loop. -/
theorem rotationPeriods_iff (filter coordinator : RotateTime) (node : NodePeriodConfig) (origin : Origin) :
    (setIntervalDelay filter.ms = filter.ms ↔ filter.ms ≤ timeoutMax) ∧
    (node.KeepsWindow coordinator origin ↔
      node.ratio.isInt = false ∨ node.coordinatorRotateTime coordinator origin ≤ 0 ∨
      maxSafeInteger < DoubleRounding.round (node.coordinatorRotateTime coordinator origin * node.factor) ∨
      DoubleRounding.round (node.coordinatorRotateTime coordinator origin * node.factor) ≤ timeoutMax ∧
        (coordinator.ms < node.coordinatorRotateTime coordinator origin ∨
          coordinator.ms = node.coordinatorRotateTime coordinator origin ∧
            ¬ LosesFraction (node.coordinatorRotateTime coordinator origin * node.factor))) := by
  refine ⟨?_, keepsWindow_iff node coordinator origin rfl⟩
  have hPos := filter.pos
  unfold setIntervalDelay timeoutMax
  split_ifs <;> omega

/-- A filter that rotates every millisecond where 2^31 are configured, and so does a node
whose coordinator rotates every million seconds. -/
theorem not_rotationPeriods :
    ∃ filter coordinator : RotateTime, filter.ms = 2147483648 ∧ coordinator.ms = 1000000000 ∧
      setIntervalDelay filter.ms = 1 ∧
      ∀ origin, ¬ (⟨coordinator, none, none, nofun, nofun⟩ : NodePeriodConfig).KeepsWindow coordinator origin := by
  refine ⟨⟨2147483648, by decide +kernel⟩, ⟨1000000000, by decide +kernel⟩, rfl, rfl, by decide, ?_⟩
  intro origin
  have hTime : (⟨⟨1000000000, by decide +kernel⟩, none, none, nofun, nofun⟩ : NodePeriodConfig).coordinatorRotateTime
      ⟨1000000000, by decide +kernel⟩ origin = 1000000000 := by
    cases origin <;> decide +kernel
  have hRound : DoubleRounding.round (((1000000000 : Int) : ℚ) * (5 / 2)) = 2500000000 := by decide +kernel
  rw [keepsWindow_iff _ _ origin hTime]
  rintro (h | h | h | ⟨h, -⟩)
  · exact absurd h (by decide +kernel)
  · omega
  · rw [factor, Option.getD_none, hRound] at h
    norm_num [maxSafeInteger] at h
  · rw [factor, Option.getD_none, hRound] at h
    norm_num [timeoutMax] at h

end NodePeriodConfig

end TokenRevoker
