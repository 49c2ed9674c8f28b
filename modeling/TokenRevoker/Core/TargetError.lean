import TokenRevoker.Core.BloomFilter
import Mathlib.Analysis.SpecialFunctions.Log.Base
import Mathlib.Analysis.SpecialFunctions.Log.Deriv
import Mathlib.Analysis.Complex.ExponentialBounds

/-! The filter that a configuration gets. `withTargetError` is read in exact reals; the
schema admits configurations with more than 2^31 bits, of which the filter can address
only the first 2^31. -/
namespace TokenRevoker

open Text

/-- What `filterInputSchema` accepts for the two fields that size the filter. Other fields of
the schema do not enter into the size. -/
structure FilterInput where
  numItems : Nat
  fpRate : ℝ
  one_le : 1 ≤ numItems
  numItems_le : numItems ≤ 100000000
  fpRate_pos : 0 < fpRate
  fpRate_lt : fpRate < 1

namespace FilterInput

/-- `(-n * Math.log2(error)) / Math.LN2`. A real number here; the rounding of the two logarithms
is left out. -/
noncomputable def exactBits (input : FilterInput) : ℝ :=
  -input.numItems * Real.logb 2 input.fpRate / Real.log 2

/-- `m` of `withTargetError`, before the constructor rounds it up to whole buckets. -/
noncomputable def targetBits (input : FilterInput) : Nat := ⌈input.exactBits⌉₊

/-- `k` of `withTargetError`. -/
noncomputable def hashCount (input : FilterInput) : Nat :=
  ⌈Real.log 2 * input.targetBits / input.numItems⌉₊

/-- `Math.ceil(m / 32)` of the constructor. -/
noncomputable def bucketCount (input : FilterInput) : Nat := ⌈(input.targetBits : ℝ) / 32⌉₊

theorem numItems_pos (input : FilterInput) : (0 : ℝ) < input.numItems :=
  Nat.cast_pos.mpr input.one_le

theorem log_two_pos : 0 < Real.log 2 := Real.log_pos one_lt_two

theorem exactBits_pos (input : FilterInput) : 0 < input.exactBits := by
  have hLog : Real.logb 2 input.fpRate < 0 :=
    Real.logb_neg one_lt_two input.fpRate_pos input.fpRate_lt
  rw [exactBits, neg_mul, ← mul_neg]
  exact div_pos (mul_pos input.numItems_pos (neg_pos.mpr hLog)) log_two_pos

theorem targetBits_pos (input : FilterInput) : 0 < input.targetBits :=
  Nat.ceil_pos.mpr input.exactBits_pos

theorem hashCount_pos (input : FilterInput) : 0 < input.hashCount :=
  Nat.ceil_pos.mpr
    (div_pos (mul_pos log_two_pos (Nat.cast_pos.mpr input.targetBits_pos)) input.numItems_pos)

theorem bucketCount_pos (input : FilterInput) : 0 < input.bucketCount :=
  Nat.ceil_pos.mpr (div_pos (Nat.cast_pos.mpr input.targetBits_pos) (by norm_num))

/-- `BloomFilter.withTargetError`: the size and the hash count of every filter of this
configuration. -/
noncomputable def withTargetError (input : FilterInput) : Geometry :=
  ⟨input.bucketCount, input.hashCount, input.bucketCount_pos, input.hashCount_pos⟩

/-- Rounding adds less than a bit, and then less than a bucket. -/
theorem m_lt (input : FilterInput) : (input.withTargetError.m : ℝ) < input.exactBits + 33 := by
  have hBits : (input.targetBits : ℝ) < input.exactBits + 1 :=
    Nat.ceil_lt_add_one input.exactBits_pos.le
  have hBuckets : (input.bucketCount : ℝ) < input.targetBits / 32 + 1 :=
    Nat.ceil_lt_add_one (by positivity)
  have hSize : (input.withTargetError.m : ℝ) = input.bucketCount * 32 := by
    simp [withTargetError, Geometry.m]
  rw [hSize]
  linarith

theorem exactBits_le_m (input : FilterInput) : input.exactBits ≤ input.withTargetError.m := by
  have hBits : input.exactBits ≤ input.targetBits := Nat.le_ceil _
  have hBuckets : (input.targetBits : ℝ) / 32 ≤ input.bucketCount := Nat.le_ceil _
  have hSize : (input.withTargetError.m : ℝ) = input.bucketCount * 32 := by
    simp [withTargetError, Geometry.m]
  rw [hSize]
  linarith

/-- Every configuration with a rate of at least 2^-14 can address all of its bits. -/
theorem m_le_of_fpRate (input : FilterInput) (hRate : ((2 : ℝ) ^ 14)⁻¹ ≤ input.fpRate) :
    input.withTargetError.m ≤ 2 ^ 31 := by
  have hLog : -14 ≤ Real.logb 2 input.fpRate := by
    have hLe := Real.logb_le_logb_of_le one_lt_two (by positivity) hRate
    rwa [Real.logb_inv, Real.logb_pow, Real.logb_self_eq_one one_lt_two, mul_one, Nat.cast_ofNat] at hLe
  have hItems : (input.numItems : ℝ) ≤ 100000000 := by exact_mod_cast input.numItems_le
  have hTop : input.exactBits ≤ 1400000000 / Real.log 2 := by
    rw [exactBits]
    refine div_le_div_of_nonneg_right ?_ log_two_pos.le
    nlinarith [input.numItems_pos]
  have hQuotient : 1400000000 / Real.log 2 < 2100000000 := by
    rw [div_lt_iff₀ log_two_pos]
    linarith [Real.log_two_gt_d9]
  have hLt : (input.withTargetError.m : ℝ) < 2147483648 := by linarith [input.m_lt]
  exact_mod_cast hLt.le

end FilterInput

namespace SizedFilter

variable {g : Geometry}

/-- Strings are added to one filter in turn, and each is reported from its own `add` on. No
other step is part of this: the filter is neither rotated nor restored. -/
def Reports (filter : SizedFilter g) (values : List JsString) : Prop :=
  ∀ before v after rest, values = before ++ v :: after ++ rest →
    ((before ++ v :: after).foldl SizedFilter.add filter).test v = true

theorem test_foldl_add (values : List JsString) {filter : SizedFilter g} {v : JsString}
    (hTest : filter.test v = true) : (values.foldl SizedFilter.add filter).test v = true := by
  induction values generalizing filter with
  | nil => exact hTest
  | cons w rest ih => exact ih (test_add_of_test hTest w)

/-- A filter never forgets what it can address, and never reports what it cannot. -/
theorem reports_iff (filter : SizedFilter g) (values : List JsString) :
    filter.Reports values ↔ ∀ v ∈ values, BloomFilter.Addressable g.m g.k v := by
  constructor
  · intro hReports v hMem
    obtain ⟨before, after, hSplit⟩ := List.append_of_mem hMem
    have hTest := hReports before v after [] (by rw [hSplit, List.append_nil])
    exact (test_eq_true_iff.mp hTest).1
  · intro hAddressable before v after rest hSplit
    rw [List.foldl_append, List.foldl_cons]
    refine test_foldl_add after (test_add (hAddressable v ?_) _)
    rw [hSplit]
    simp

end SizedFilter

namespace FilterInput

/-- For every accepted configuration, every filter of its size and every sequence of strings: no
string is lost exactly if no position of a string is 2^31 or more. How often a string is
reported that was not added is no part of it. -/
theorem reports_iff_addressable (input : FilterInput) (filter : SizedFilter input.withTargetError)
    (values : List JsString) :
    filter.Reports values ↔ ∀ v ∈ values,
      BloomFilter.Addressable input.withTargetError.m input.withTargetError.k v :=
  SizedFilter.reports_iff filter values

theorem reports_of_fpRate (input : FilterInput) (hRate : ((2 : ℝ) ^ 14)⁻¹ ≤ input.fpRate)
    (filter : SizedFilter input.withTargetError) (values : List JsString) : filter.Reports values :=
  (SizedFilter.reports_iff filter values).mpr fun v _ =>
    SizedFilter.addressable (input.m_le_of_fpRate hRate) v

/-- A hundred million items at a rate of 2^-20. -/
noncomputable def large : FilterInput where
  numItems := 100000000
  fpRate := ((2 : ℝ) ^ 20)⁻¹
  one_le := by norm_num
  numItems_le := le_refl _
  fpRate_pos := by positivity
  fpRate_lt := by norm_num

theorem large_m : 2880000000 ≤ large.withTargetError.m ∧ large.withTargetError.m ≤ 2 ^ 32 := by
  have hExact : large.exactBits = 2000000000 / Real.log 2 := by
    rw [exactBits, large, Real.logb_inv, Real.logb_pow, Real.logb_self_eq_one one_lt_two]
    norm_num
  have hLow : 2880000000 ≤ large.exactBits := by
    rw [hExact, le_div_iff₀ log_two_pos]
    linarith [Real.log_two_lt_d9]
  have hHigh : large.exactBits + 33 < 2 ^ 32 := by
    rw [hExact]
    have hQuotient : 2000000000 / Real.log 2 < 2900000000 := by
      rw [div_lt_iff₀ log_two_pos]
      linarith [Real.log_two_gt_d9]
    norm_num
    linarith
  constructor
  · exact_mod_cast hLow.trans large.exactBits_le_m
  · exact_mod_cast (large.m_lt.trans hHigh).le

/-- The first position of the string is 417547239 below the top of the filter. -/
theorem not_addressable_aaa {m k : Nat} (hk : 0 < k) (hLow : 2880000000 ≤ m) (hHigh : m ≤ 2 ^ 32) :
    ¬ BloomFilter.Addressable m k [0x61, 0x61, 0x61] := by
  intro hAddressable
  have hWidth : BloomFilter.locationWidth m = 32 := by
    rw [BloomFilter.locationWidth, if_neg (by omega), if_neg (by omega)]
  have hHash : BloomFilter.signedWord
      (([0x61, 0x61, 0x61] : JsString).foldl BloomFilter.fnvStep BloomFilter.fnvOffset).v3
      (([0x61, 0x61, 0x61] : JsString).foldl BloomFilter.fnvStep BloomFilter.fnvOffset).v2 =
        -417547239 := by decide
  have hReduce : BloomFilter.reduce (-417547239) m = m - 417547239 := by
    have hRem : Int.tmod (-417547239) m = -417547239 := by
      rw [Int.neg_tmod, Int.tmod_eq_of_lt (by norm_num) (by omega)]
    rw [BloomFilter.reduce, hRem, Int.tmod_eq_of_lt (by omega) (by omega)]
    omega
  obtain ⟨count, rfl⟩ := Nat.exists_eq_add_of_lt hk
  have hLoc : (m - 417547239) % 2 ^ 32 ∈ BloomFilter.locations m (0 + count + 1) [0x61, 0x61, 0x61] := by
    rw [BloomFilter.locations, hWidth, hHash, hReduce]
    exact List.mem_map_of_mem (by simp)
  have hLt := hAddressable _ hLoc
  omega

/-- The schema accepts a configuration that loses an added string. The size of such a filter is
above 2^31 bits, where a shift turns negative. -/
theorem not_reports :
    ¬ ∀ (input : FilterInput) (filter : SizedFilter input.withTargetError) (values : List JsString),
      filter.Reports values := by
  intro h
  have hReports := h large (SizedFilter.create _) [[0x61, 0x61, 0x61]]
  exact not_addressable_aaa large.hashCount_pos large_m.1 large_m.2
    ((SizedFilter.reports_iff _ _).mp hReports _ (by simp))

/-- A thousand items at a rate of 1/16. -/
noncomputable def coarse : FilterInput where
  numItems := 1000
  fpRate := ((2 : ℝ) ^ 4)⁻¹
  one_le := by norm_num
  numItems_le := by norm_num
  fpRate_pos := by positivity
  fpRate_lt := by norm_num

/-- Five hundred items at a rate of 1/256, which takes as many bits. -/
noncomputable def fine : FilterInput where
  numItems := 500
  fpRate := ((2 : ℝ) ^ 8)⁻¹
  one_le := by norm_num
  numItems_le := by norm_num
  fpRate_pos := by positivity
  fpRate_lt := by norm_num

end FilterInput

end TokenRevoker
