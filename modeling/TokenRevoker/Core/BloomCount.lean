import TokenRevoker.Core.BloomFilter
import TokenRevoker.Library.BitCount

/-! The bits of a filter, counted and combined. `popcnt` counts the bits of a signed word in
parallel, and union and intersection work bucket by bucket. -/
namespace TokenRevoker

open Text

namespace BloomFilter

/-- A number as a bitwise operator takes it. -/
def toInt32 (n : Int) : BitVec 32 := BitVec.ofInt 32 n

/-- `popcnt`; a difference, a sum or a product may leave the range of a signed word until the
next bitwise operator. -/
def popcnt (v : BitVec 32) : Int :=
  let pairs := v.toInt - (v.sshiftRight 1 &&& 0x55555555#32).toInt
  let nibbles := (toInt32 pairs &&& 0x33333333#32).toInt + ((toInt32 pairs).sshiftRight 2 &&& 0x33333333#32).toInt
  let bytes := toInt32 (nibbles + ((toInt32 nibbles).sshiftRight 4).toInt) &&& 0xf0f0f0f#32
  ((toInt32 (bytes.toInt * 0x1010101)).sshiftRight 24).toInt

def countBits (filter : BloomFilter) : Int := (filter.buckets.map popcnt).sum

/-- `union` and `intersection`: a new filter with the buckets of both combined. -/
def combine (op : BitVec 32 → BitVec 32 → BitVec 32) (a b : BloomFilter) : Except String BloomFilter :=
  if a.m = b.m ∧ a.k = b.k then
    match bucketIndex a.m with
    | .ofNat length => .ok (createFromBuckets
        ((List.range length).map fun i => op (a.buckets[i]?.getD 0) (b.buckets[i]?.getD 0)) a.k)
    | .negSucc length => .error s!"Invalid typed array length: {Int.negSucc length}"
  else .error "Bloom filters must have identical \x7bm, k\x7d."

def union : BloomFilter → BloomFilter → Except String BloomFilter := combine (· ||| ·)

def intersection : BloomFilter → BloomFilter → Except String BloomFilter := combine (· &&& ·)

section Popcnt

theorem toInt32_toInt (v : BitVec 32) : toInt32 v.toInt = v := BitVec.ofInt_toInt

theorem toInt32_sub (v w : BitVec 32) : toInt32 (v.toInt - w.toInt) = v - w := by
  apply BitVec.eq_of_toInt_eq
  simp [toInt32, BitVec.toInt_sub, BitVec.toInt_ofInt]

theorem toInt32_add (x y : Int) : toInt32 (x + y) = toInt32 x + toInt32 y := BitVec.ofInt_add x y

theorem toInt32_mul (x y : Int) : toInt32 (x * y) = toInt32 x * toInt32 y := BitVec.ofInt_mul x y

/-- Under a mask without its sign bits a signed shift is an unsigned one. -/
theorem sshiftRight_and {v mask : BitVec 32} {n : Nat} (h : mask.toNat < 2 ^ (32 - n)) :
    v.sshiftRight n &&& mask = (v >>> n) &&& mask := by
  apply BitVec.eq_of_getLsbD_eq
  intro i hi
  rw [BitVec.getLsbD_and, BitVec.getLsbD_and, BitVec.getLsbD_sshiftRight, BitVec.getLsbD_ushiftRight]
  by_cases hShort : n + i < 32
  · simp [hShort, Nat.not_le.mpr hi]
  · have hMask : mask.getLsbD i = false := by
      rw [BitVec.getLsbD]
      exact Nat.testBit_lt_two_pow (Nat.lt_of_lt_of_le h (Nat.pow_le_pow_right (by decide) (by omega)))
    rw [hMask, Bool.and_false, Bool.and_false]

/-- So it is for a word that is not negative. -/
theorem sshiftRight_of_lt {v : BitVec 32} (h : v.toNat < 2 ^ 31) (n : Nat) : v.sshiftRight n = v >>> n :=
  BitVec.sshiftRight_eq_of_msb_false (BitVec.msb_eq_false_iff_two_mul_lt.mpr (by omega))

theorem toNat_pairs (v : BitVec 32) :
    (v - (v.sshiftRight 1 &&& 0x55555555#32)).toNat = BitCount.pairs 0x55555555 v.toNat := by
  have hMasked : (v.sshiftRight 1 &&& 0x55555555#32).toNat = v.toNat / 2 &&& 0x55555555 := by
    rw [sshiftRight_and (by decide), BitVec.toNat_and, BitVec.toNat_ushiftRight, Nat.shiftRight_eq_div_pow]
    rfl
  have hLe : v.toNat / 2 &&& 0x55555555 ≤ v.toNat := Nat.le_trans Nat.and_le_left (Nat.div_le_self _ _)
  rw [BitVec.toNat_sub_of_le (by rw [BitVec.le_def, hMasked]; exact hLe), hMasked, BitCount.pairs]

theorem toNat_nibbles (v : BitVec 32) :
    ((v &&& 0x33333333#32) + (v.sshiftRight 2 &&& 0x33333333#32)).toNat = BitCount.nibbles 0x33333333 v.toNat ∧
      BitCount.nibbles 0x33333333 v.toNat < 2 ^ 31 := by
  have hMasked : (v.sshiftRight 2 &&& 0x33333333#32).toNat = v.toNat / 4 &&& 0x33333333 := by
    rw [sshiftRight_and (by decide), BitVec.toNat_and, BitVec.toNat_ushiftRight, Nat.shiftRight_eq_div_pow]
    rfl
  have hFirst : (v &&& 0x33333333#32).toNat = v.toNat &&& 0x33333333 := by
    rw [BitVec.toNat_and]
    rfl
  have hLeft : v.toNat &&& 0x33333333 ≤ 0x33333333 := Nat.and_le_right
  have hRight : v.toNat / 4 &&& 0x33333333 ≤ 0x33333333 := Nat.and_le_right
  rw [BitVec.toNat_add, hFirst, hMasked, BitCount.nibbles]
  exact ⟨Nat.mod_eq_of_lt (by omega), by omega⟩

theorem toNat_bytes {v : BitVec 32} (h : v.toNat < 2 ^ 31) :
    (v + v.sshiftRight 4 &&& 0xf0f0f0f#32).toNat = BitCount.bytes 0x0f0f0f0f v.toNat := by
  rw [sshiftRight_of_lt h, BitVec.toNat_and, BitVec.toNat_add, BitVec.toNat_ushiftRight,
    Nat.shiftRight_eq_div_pow, BitCount.bytes, Nat.mod_eq_of_lt (by omega)]
  rfl

/-- `popcnt` counts the bits of every word, a negative one too. The steps of the source are
those of `BitCount`, on signed words. -/
theorem popcnt_eq (v : BitVec 32) : popcnt v = BitCount.count 32 v.toNat := by
  have hCount := BitCount.parallel_eq v.isLt
  have hLe := BitCount.count_le 32 v.toNat
  unfold popcnt
  simp only [toInt32_sub, toInt32_add, toInt32_mul, toInt32_toInt]
  obtain ⟨hNibbles, hSmall⟩ := toNat_nibbles (v - (v.sshiftRight 1 &&& 0x55555555#32))
  generalize hWord : (v - (v.sshiftRight 1 &&& 0x55555555#32) &&& 0x33333333#32) +
    ((v - (v.sshiftRight 1 &&& 0x55555555#32)).sshiftRight 2 &&& 0x33333333#32) = nibbles at hNibbles
  have hBytes : (nibbles + nibbles.sshiftRight 4 &&& 0xf0f0f0f#32).toNat =
      BitCount.bytes 0x0f0f0f0f (BitCount.nibbles 0x33333333 (BitCount.pairs 0x55555555 v.toNat)) := by
    rw [toNat_bytes (by omega), hNibbles, toNat_pairs]
  generalize nibbles + nibbles.sshiftRight 4 &&& 0xf0f0f0f#32 = bytes at hBytes
  have hProduct : (bytes * toInt32 0x1010101).toNat / 2 ^ 24 = BitCount.count 32 v.toNat := by
    rw [BitVec.toNat_mul, hBytes, ← hCount]
    rfl
  have hPositive : (bytes * toInt32 0x1010101).toNat < 2 ^ 31 := by omega
  have hShift : ((bytes * toInt32 0x1010101) >>> 24).toNat = BitCount.count 32 v.toNat := by
    rw [BitVec.toNat_ushiftRight, Nat.shiftRight_eq_div_pow, hProduct]
  rw [sshiftRight_of_lt hPositive, BitVec.toInt_eq_toNat_of_lt (by omega), hShift]

end Popcnt

instance (buckets : List (BitVec 32)) : DecidablePred (· ∈ bits buckets) :=
  fun p => inferInstanceAs (Decidable ((buckets[p / 32]?.getD 0).getLsbD (p % 32) = true))

/-- `countBits` is the number of the bits that are set, for every filter: the sign of a bucket
and the shifts that keep it do no harm. The estimates that are computed from the count in
floating point are left out. -/
theorem countBits_eq (filter : BloomFilter) :
    filter.countBits = Nat.count (· ∈ bits filter.buckets) filter.m := by
  obtain ⟨k, buckets⟩ := filter
  simp only [countBits, m]
  induction buckets with
  | nil => rfl
  | cons bucket rest ih =>
      rw [List.map_cons, List.sum_cons, ih, popcnt_eq, List.length_cons, Nat.add_one_mul, Nat.add_comm _ 32,
        Nat.count_add, Nat.cast_add, BitCount.count]
      refine congrArg₂ (fun x y : Nat => (x : Int) + y) (BitCount.count_congr fun p hp => ?_)
        (BitCount.count_congr fun p _ => ?_)
      · rw [bits, Set.mem_ofPred_eq, Nat.div_eq_of_lt hp, Nat.mod_eq_of_lt hp]
        rfl
      · rw [bits, bits, Set.mem_ofPred_eq, Set.mem_ofPred_eq, Nat.add_div_left p (by decide), Nat.add_mod_left]
        rfl

section Combine

variable {g : Geometry} {a b filter : BloomFilter}

/-- Filters of one geometry with the same bits are equal. -/
theorem Fits.eq_of_bits (ha : Fits g a) (hb : Fits g b) (h : bits a.buckets = bits b.buckets) : a = b := by
  obtain ⟨k, buckets⟩ := a
  obtain ⟨k', buckets'⟩ := b
  obtain ⟨rfl, hLength⟩ := ha
  obtain ⟨rfl, hLength'⟩ := hb
  congr 1
  refine List.ext_getElem (hLength.trans hLength'.symm) fun i hi hi' => ?_
  apply BitVec.eq_of_getLsbD_eq
  intro j hj
  have hMem : i * 32 + j ∈ bits buckets ↔ i * 32 + j ∈ bits buckets' := by
    have h : bits buckets = bits buckets' := h
    rw [h]
  have hIndex : (i * 32 + j) / 32 = i := by omega
  have hBit : (i * 32 + j) % 32 = j := by omega
  simp only [bits, Set.mem_ofPred_eq, hIndex, hBit, List.getElem?_eq_getElem hi, List.getElem?_eq_getElem hi',
    Option.getD_some] at hMem
  exact Bool.eq_iff_iff.mpr hMem

/-- Filters of one geometry are combined bit by bit. The bound is that of the shift that
computes the number of buckets. -/
theorem combine_ok (ha : Fits g a) (hb : Fits g b) (hm : g.m < 2 ^ 31) {op : BitVec 32 → BitVec 32 → BitVec 32}
    {P : Prop → Prop → Prop} (hFalse : ¬ P False False)
    (hOp : ∀ x y i, (op x y).getLsbD i = true ↔ P (x.getLsbD i = true) (y.getLsbD i = true)) :
    ∃ c, combine op a b = .ok c ∧ Fits g c ∧
      ∀ p, (p ∈ bits c.buckets ↔ P (p ∈ bits a.buckets) (p ∈ bits b.buckets)) := by
  have hSame : a.m = b.m ∧ a.k = b.k := ⟨ha.m_eq.trans hb.m_eq.symm, ha.1.trans hb.1.symm⟩
  have hIndex : bucketIndex a.m = Int.ofNat g.bucketCount := by
    rw [bucketIndex_of_lt (ha.m_eq ▸ hm), ha.m_eq, Geometry.m, Nat.mul_div_cancel _ (by decide)]
    rfl
  refine ⟨createFromBuckets
    ((List.range g.bucketCount).map fun i => op (a.buckets[i]?.getD 0) (b.buckets[i]?.getD 0)) a.k, ?_,
    ⟨ha.1, by simp [createFromBuckets]⟩, fun p => ?_⟩
  · rw [combine, if_pos hSame, hIndex]
  · simp only [createFromBuckets, bits, Set.mem_ofPred_eq, List.getElem?_map]
    by_cases hRange : p / 32 < g.bucketCount
    · rw [List.getElem?_range hRange, Option.map_some, Option.getD_some, hOp]
    · have hNone : (List.range g.bucketCount)[p / 32]? = none := by
        rw [List.getElem?_eq_none_iff, List.length_range]
        exact Nat.le_of_not_lt hRange
      rw [hNone, List.getElem?_eq_none (ha.2 ▸ Nat.le_of_not_lt hRange),
        List.getElem?_eq_none (hb.2 ▸ Nat.le_of_not_lt hRange)]
      simp [hFalse]

theorem union_ok (ha : Fits g a) (hb : Fits g b) (hm : g.m < 2 ^ 31) :
    ∃ u, union a b = .ok u ∧ Fits g u ∧ bits u.buckets = bits a.buckets ∪ bits b.buckets := by
  obtain ⟨u, hUnion, hFits, hBits⟩ := combine_ok (P := Or) ha hb hm (by simp) fun x y i => by
    rw [BitVec.getLsbD_or, Bool.or_eq_true]
  exact ⟨u, hUnion, hFits, Set.ext hBits⟩

theorem intersection_ok (ha : Fits g a) (hb : Fits g b) (hm : g.m < 2 ^ 31) :
    ∃ i, intersection a b = .ok i ∧ Fits g i ∧ bits i.buckets = bits a.buckets ∩ bits b.buckets := by
  obtain ⟨i, hIntersection, hFits, hBits⟩ := combine_ok (P := And) ha hb hm (by simp) fun x y i => by
    rw [BitVec.getLsbD_and, Bool.and_eq_true]
  exact ⟨i, hIntersection, hFits, Set.ext hBits⟩

/-- What is counted in two filters is counted in their union and their intersection. -/
theorem count_union_add_count_inter {s t : Set Nat} (bound : Nat) [DecidablePred (· ∈ s)]
    [DecidablePred (· ∈ t)] [DecidablePred (· ∈ s ∪ t)] [DecidablePred (· ∈ s ∩ t)] :
    Nat.count (· ∈ s ∪ t) bound + Nat.count (· ∈ s ∩ t) bound =
      Nat.count (· ∈ s) bound + Nat.count (· ∈ t) bound := by
  induction bound with
  | zero => rfl
  | succ bound ih =>
      rw [Nat.count_succ, Nat.count_succ, Nat.count_succ, Nat.count_succ]
      generalize Nat.count (· ∈ s ∪ t) bound = union at ih ⊢
      generalize Nat.count (· ∈ s ∩ t) bound = common at ih ⊢
      simp only [Set.mem_union, Set.mem_inter_iff]
      by_cases hs : bound ∈ s <;> by_cases ht : bound ∈ t <;> simp [hs, ht] <;> omega

/-- A new filter with some strings added. -/
def ofItems (g : Geometry) (items : List JsString) : BloomFilter := items.foldl add (create g)

theorem fits_foldl_add (items : List JsString) (h : Fits g filter) :
    Fits g (items.foldl add filter) ∧ bits (items.foldl add filter).buckets =
      bits filter.buckets ∪ {p | ∃ v ∈ items, p ∈ signature g.m g.k v} := by
  induction items generalizing filter with
  | nil => exact ⟨h, by simp⟩
  | cons v items ih =>
      obtain ⟨hFits, hBits⟩ := ih (h.add v)
      refine ⟨hFits, ?_⟩
      rw [List.foldl_cons, hBits, (bits_add h.m_pos v).1, SignatureFilter.insert, h.m_eq, h.1]
      ext p
      simp only [Set.sup_eq_union, Set.mem_union, Set.mem_ofPred_eq, List.mem_cons, or_and_right, exists_or,
        exists_eq_left, or_assoc]

theorem ofItems_fits (g : Geometry) (items : List JsString) : Fits g (ofItems g items) ∧
    bits (ofItems g items).buckets = {p | ∃ v ∈ items, p ∈ signature g.m g.k v} := by
  obtain ⟨hFits, hBits⟩ := fits_foldl_add items (fits_create g)
  rw [bits_create, Set.empty_union] at hBits
  exact ⟨hFits, hBits⟩

/-- Filters of one geometry have a union and an intersection. The union of the filters of two
lists is the filter of the joined list, the intersection knows what both know, and between them
they have as many bits as the two filters. From 2^31 bits on the source computes a negative
number of buckets, hence the bound; and the intersection may know more than the filter of the
common items. -/
theorem union_intersection (ha : Fits g a) (hb : Fits g b) (hm : g.m < 2 ^ 31) :
    ∃ u i, union a b = .ok u ∧ intersection a b = .ok i ∧ Fits g u ∧ Fits g i ∧
      (∀ xs ys, a = ofItems g xs → b = ofItems g ys → u = ofItems g (xs ++ ys)) ∧
      (∀ v, a.test v = true ∨ b.test v = true → u.test v = true) ∧
      (∀ v, i.test v = (a.test v && b.test v)) ∧
      u.countBits + i.countBits = a.countBits + b.countBits := by
  obtain ⟨u, hUnion, hu, hUnionBits⟩ := union_ok ha hb hm
  obtain ⟨i, hIntersection, hi, hCommonBits⟩ := intersection_ok ha hb hm
  have hTest : ∀ {filter : BloomFilter}, Fits g filter → ∀ v, (filter.test v = true ↔
      SignatureFilter.Covers (signature g.m g.k) (bits filter.buckets) v) := by
    intro filter h v
    have hPos := h.m_pos
    rw [test_eq_true_iff hPos, h.m_eq, h.1, and_iff_right]
    exact addressable_of_le (h.m_eq ▸ hPos) (Nat.le_of_lt hm) v
  refine ⟨u, i, hUnion, hIntersection, hu, hi, ?_, fun v hEither => ?_, fun v => ?_, ?_⟩
  · rintro xs ys rfl rfl
    obtain ⟨hFits, hBits⟩ := ofItems_fits g (xs ++ ys)
    refine hu.eq_of_bits hFits ?_
    rw [hUnionBits, hBits, (ofItems_fits g xs).2, (ofItems_fits g ys).2]
    ext p
    simp only [Set.mem_union, Set.mem_ofPred_eq, List.mem_append, or_and_right, exists_or]
  · rw [hTest hu, hUnionBits]
    rcases hEither with hLeft | hRight
    · exact ((hTest ha v).mp hLeft).trans Set.subset_union_left
    · exact ((hTest hb v).mp hRight).trans Set.subset_union_right
  · rw [Bool.eq_iff_iff, Bool.and_eq_true, hTest hi, hTest ha, hTest hb, hCommonBits]
    exact Set.subset_inter_iff
  · classical
    have hUnionCount : Nat.count (· ∈ bits u.buckets) g.m = Nat.count (· ∈ bits a.buckets ∪ bits b.buckets) g.m :=
      BitCount.count_congr fun p _ => by rw [hUnionBits]
    have hCommonCount : Nat.count (· ∈ bits i.buckets) g.m = Nat.count (· ∈ bits a.buckets ∩ bits b.buckets) g.m :=
      BitCount.count_congr fun p _ => by rw [hCommonBits]
    rw [countBits_eq, countBits_eq, countBits_eq, countBits_eq, hu.m_eq, hi.m_eq, ha.m_eq, hb.m_eq,
      hUnionCount, hCommonCount, ← Nat.cast_add, ← Nat.cast_add, count_union_add_count_inter]

/-- Two filters of one bucket with one string each. -/
theorem union_intersection_oneBucket : ∃ u, union (ofItems .oneBucket [[0x61]]) (ofItems .oneBucket [[0x62]]) = .ok u ∧
    u = ofItems .oneBucket [[0x61], [0x62]] := by
  obtain ⟨u, i, hUnion, -, -, -, hItems, -⟩ := union_intersection (ofItems_fits .oneBucket [[0x61]]).1
    (ofItems_fits .oneBucket [[0x62]]).1 (by decide)
  exact ⟨u, hUnion, hItems _ _ rfl rfl⟩

end Combine

end BloomFilter

end TokenRevoker
