import TokenRevoker.Core.BackupManager
import TokenRevoker.Core.TargetError

/-! A blob that is read back under another configuration. The check on a blob compares the
number of buckets, and configurations that agree on it may differ in the hash count. -/
namespace TokenRevoker

open Text

namespace BloomFilter

theorem doubleHash_isPrefix (m a b i count more : Nat) :
    doubleHash m a b i count <+: doubleHash m a b i (count + more) := by
  induction count generalizing a b i with
  | zero => exact List.nil_prefix
  | succ count ih =>
      rw [Nat.succ_add, doubleHash, doubleHash]
      exact (List.prefix_cons_inj _).mpr (ih _ _ _)

/-- More hash functions only add positions behind the ones there are. -/
theorem locations_isPrefix (m : Nat) {k k' : Nat} (h : k ≤ k') (v : JsString) :
    locations m k v <+: locations m k' v := by
  simp only [locations]
  generalize reduce (signedWord (v.foldl fnvStep fnvOffset).v3 (v.foldl fnvStep fnvOffset).v2) m = a
  generalize reduce (signedWord (v.foldl fnvStep fnvOffset).v1 (v.foldl fnvStep fnvOffset).v0) m = b
  obtain ⟨more, hMore⟩ := Nat.exists_eq_add_of_le (show k - 1 ≤ k' - 1 by omega)
  have hHash : a :: doubleHash m a b 1 (k - 1) <+: a :: doubleHash m a b 1 (k' - 1) := by
    rw [hMore]
    exact (List.prefix_cons_inj a).mpr (doubleHash_isPrefix m a b 1 _ more)
  exact ((hHash.take k).trans (List.take_prefix_take_left h)).map _

/-- A position that only the larger hash count reads stands behind the others. -/
theorem mem_locations_or_drop {m k' : Nat} (k : Nat) {v : JsString} {loc : Nat}
    (hLoc : loc ∈ locations m k' v) : loc ∈ locations m k v ∨ loc ∈ (locations m k' v).drop k := by
  rcases Nat.le_total k k' with h | h
  · have hTake : locations m k v = (locations m k' v).take k := by
      rw [List.prefix_iff_eq_take.mp (locations_isPrefix m h v), length_locations]
    rwa [hTake, ← List.mem_append, List.take_append_drop]
  · exact .inl ((locations_isPrefix m h v).subset hLoc)

end BloomFilter

namespace SizedFilter

variable {g : Geometry}

/-- The bits of a filter are those of the strings that were added to it. -/
theorem mem_bits_foldl_add (values : List JsString) {filter : SizedFilter g} {p : Nat} :
    p ∈ (values.foldl SizedFilter.add filter).bits ↔ p ∈ filter.bits ∨ ∃ v ∈ values, p ∈ signature g v := by
  induction values generalizing filter with
  | nil => simp
  | cons v rest ih =>
      have hFirst : p ∈ (filter.add v).bits ↔ p ∈ filter.bits ∨ p ∈ signature g v := by
        rw [bits_add]
        exact Iff.rfl
      rw [List.foldl_cons, ih, hFirst, or_assoc]
      simp only [List.mem_cons, exists_eq_or_imp]

end SizedFilter

namespace FilterInput

/-- The blob of a filter with these items, written under one configuration, reports each
of them where another configuration accepts it. -/
def Survives (before after : FilterInput) (items : List JsString) : Prop :=
  ∀ restored, restoreFilterFromFile after.withTargetError
      (some (blobOfBuckets (items.foldl SizedFilter.add (.create before.withTargetError)).buckets)) =
        some restored →
    ∀ x ∈ items, restored.test x = true

/-- A blob is accepted where the bucket counts agree, and is read as it was written. Nothing
else of the configuration is compared. -/
theorem restoreFilterFromFile_blob_iff {g g' : Geometry} {filter : SizedFilter g} {restored : SizedFilter g'} :
    restoreFilterFromFile g' (some (blobOfBuckets filter.buckets)) = some restored ↔
      g.bucketCount = g'.bucketCount ∧ restored.buckets = filter.buckets := by
  have hGeometry : hasExpectedGeometry g' (blobOfBuckets filter.buckets) = true ↔
      g.bucketCount = g'.bucketCount := by
    simp only [hasExpectedGeometry, length_blobOfBuckets, filter.fits.2, Bool.and_eq_true, beq_iff_eq]
    omega
  by_cases h : hasExpectedGeometry g' (blobOfBuckets filter.buckets) = true
  · simp only [restoreFilterFromFile, dif_pos h, bucketsOfBlob_blobOfBuckets, Option.some.injEq,
      hGeometry.mp h, true_and]
    constructor
    · rintro rfl
      rfl
    · intro hBuckets
      obtain ⟨⟨k, buckets⟩, hFits⟩ := restored
      simp only at hBuckets
      subst hBuckets
      simp only [SizedFilter.ofBuckets, BloomFilter.createFromBuckets, SizedFilter.mk.injEq,
        BloomFilter.mk.injEq, and_true]
      exact hFits.1.symm
  · simp only [restoreFilterFromFile, dif_neg h, reduceCtorEq, false_iff, not_and]
    exact fun hCount => absurd (hGeometry.mpr hCount) h

/-- Under an accepted configuration an item survives exactly if every position that only this
configuration reads for it belongs to some item, and all of its positions can be addressed.
Where the numbers of buckets differ the blob is refused, and nothing has to survive. -/
theorem survives_iff (before after : FilterInput) (items : List JsString) :
    before.Survives after items ↔
      before.bucketCount = after.bucketCount → ∀ x ∈ items,
        BloomFilter.Addressable after.withTargetError.m after.hashCount x ∧
        ∀ loc ∈ (BloomFilter.locations after.withTargetError.m after.hashCount x).drop before.hashCount,
          ∃ y ∈ items, loc ∈ BloomFilter.locations after.withTargetError.m before.hashCount y := by
  have hSize : before.bucketCount = after.bucketCount →
      before.withTargetError.m = after.withTargetError.m := fun hCount => by
    simp only [Geometry.m, withTargetError, hCount]
  -- the bits of the blob, wherever it is accepted
  have hTest : ∀ restored : SizedFilter after.withTargetError, before.bucketCount = after.bucketCount →
      restored.buckets = (items.foldl SizedFilter.add (.create before.withTargetError)).buckets →
      ∀ x, restored.test x = true ↔ BloomFilter.Addressable after.withTargetError.m after.hashCount x ∧
        ∀ loc ∈ BloomFilter.locations after.withTargetError.m after.hashCount x,
          ∃ y ∈ items, loc ∈ BloomFilter.locations after.withTargetError.m before.hashCount y := by
    intro restored hCount hBuckets x
    have hBits : restored.bits = (items.foldl SizedFilter.add (.create before.withTargetError)).bits := by
      rw [SizedFilter.bits, hBuckets, SizedFilter.bits]
    rw [SizedFilter.test_eq_true_iff, hBits]
    refine and_congr_right fun hAddressable => ?_
    constructor
    · intro hCovers loc hLoc
      have hMem := hCovers (show loc ∈ SizedFilter.signature after.withTargetError x from
        ⟨hLoc, hAddressable loc hLoc⟩)
      rw [SizedFilter.mem_bits_foldl_add, SizedFilter.bits_create] at hMem
      obtain ⟨y, hy, hSignature⟩ := hMem.resolve_left (by simp)
      rw [← hSize hCount]
      exact ⟨y, hy, hSignature.1⟩
    · rintro hAll loc ⟨hLoc, hLt⟩
      rw [SizedFilter.mem_bits_foldl_add]
      obtain ⟨y, hy, hLoc'⟩ := hAll loc hLoc
      rw [← hSize hCount] at hLoc'
      exact .inr ⟨y, hy, hLoc', hLt⟩
  constructor
  · intro h hCount x hx
    obtain ⟨restored, hRestored⟩ : ∃ restored : SizedFilter after.withTargetError,
        restored.buckets = (items.foldl SizedFilter.add (.create before.withTargetError)).buckets :=
      ⟨.ofBuckets _ _ ((SizedFilter.fits _).2.trans hCount), rfl⟩
    obtain ⟨hAddressable, hAll⟩ := (hTest restored hCount hRestored x).mp
      (h restored (restoreFilterFromFile_blob_iff.mpr ⟨hCount, hRestored⟩) x hx)
    exact ⟨hAddressable, fun loc hLoc => hAll loc (List.mem_of_mem_drop hLoc)⟩
  · intro h restored hRestore x hx
    obtain ⟨hCount, hBuckets⟩ := restoreFilterFromFile_blob_iff.mp hRestore
    obtain ⟨hAddressable, hBeyond⟩ := h hCount x hx
    refine (hTest restored hCount hBuckets x).mpr ⟨hAddressable, fun loc hLoc => ?_⟩
    rcases BloomFilter.mem_locations_or_drop before.hashCount hLoc with hOwn | hDrop
    · exact ⟨x, hx, hOwn⟩
    · exact hBeyond loc hDrop

/-- A hash count that is not larger loses nothing that can be addressed. -/
theorem survives_of_hashCount_le {before after : FilterInput} (h : after.hashCount ≤ before.hashCount)
    {items : List JsString}
    (hAddressable : ∀ x ∈ items, BloomFilter.Addressable after.withTargetError.m after.hashCount x) :
    before.Survives after items := by
  rw [survives_iff]
  intro _ x hx
  rw [List.drop_eq_nil_of_le (by rwa [BloomFilter.length_locations])]
  exact ⟨hAddressable x hx, by simp⟩

theorem exactBits_of_two_pow {input : FilterInput} {e : Nat} (h : input.fpRate = ((2 : ℝ) ^ e)⁻¹) :
    input.exactBits = input.numItems * e / Real.log 2 := by
  rw [exactBits, h, Real.logb_inv, Real.logb_pow, Real.logb_self_eq_one one_lt_two]
  ring

theorem targetBits_of_exactBits {input : FilterInput} (h : input.exactBits = 4000 / Real.log 2) :
    input.targetBits = 5771 := by
  rw [targetBits, h, Nat.ceil_eq_iff (by norm_num)]
  have hLow := Real.log_two_gt_d9
  have hHigh := Real.log_two_lt_d9
  refine ⟨?_, ?_⟩
  · rw [lt_div_iff₀ log_two_pos]
    norm_num
    linarith
  · rw [div_le_iff₀ log_two_pos]
    norm_num
    linarith

theorem coarse_targetBits : coarse.targetBits = 5771 :=
  targetBits_of_exactBits (by rw [exactBits_of_two_pow rfl, coarse]; norm_num)

theorem fine_targetBits : fine.targetBits = 5771 :=
  targetBits_of_exactBits (by rw [exactBits_of_two_pow rfl, fine]; norm_num)

theorem coarse_hashCount : coarse.hashCount = 5 := by
  have hLow := Real.log_two_gt_d9
  have hHigh := Real.log_two_lt_d9
  rw [hashCount, coarse_targetBits, Nat.ceil_eq_iff (by norm_num), coarse]
  refine ⟨?_, ?_⟩ <;> norm_num <;> linarith

theorem fine_hashCount : fine.hashCount = 9 := by
  have hLow := Real.log_two_gt_d9
  have hHigh := Real.log_two_lt_d9
  rw [hashCount, fine_targetBits, Nat.ceil_eq_iff (by norm_num), fine]
  refine ⟨?_, ?_⟩ <;> norm_num <;> linarith

theorem bucketCount_of_targetBits {input : FilterInput} (h : input.targetBits = 5771) :
    input.bucketCount = 181 := by
  rw [bucketCount, h, Nat.ceil_eq_iff (by norm_num)]
  norm_num

/-- The two configurations agree on the bucket count, and an item is lost. The rates differ, and
with them the numbers of hash functions. -/
theorem not_survives : coarse.bucketCount = fine.bucketCount ∧ ¬ coarse.Survives fine [[97]] := by
  have hCoarse := bucketCount_of_targetBits coarse_targetBits
  have hFine := bucketCount_of_targetBits fine_targetBits
  refine ⟨by rw [hCoarse, hFine], fun h => ?_⟩
  obtain ⟨-, hBeyond⟩ := (survives_iff coarse fine [[97]]).mp h (by rw [hCoarse, hFine]) [97] (by simp)
  have hSize : fine.withTargetError.m = 5792 := by
    change fine.bucketCount * 32 = 5792
    rw [hFine]
  rw [hSize, coarse_hashCount, fine_hashCount] at hBeyond
  revert hBeyond
  decide +kernel

end FilterInput

end TokenRevoker
