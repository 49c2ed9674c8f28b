import TokenRevoker.Library.Text
import TokenRevoker.Library.SignatureFilter
import Mathlib.Data.Set.Lattice
import Mathlib.Tactic

/-! The Bloom filter of `bloomfilter.ts`. Buckets are 32-bit words, written and
read through JavaScript's signed shift, so a position of 2^31 or more has a
negative bucket index: such a write is ignored and such a read finds nothing. -/
namespace TokenRevoker

open Text

/-- The size and hash count that `withTargetError` derives from a configuration.
Both are at least one for every accepted `numItems` and `fpRate`. -/
structure Geometry where
  bucketCount : Nat
  k : Nat
  bucketCount_pos : 0 < bucketCount
  k_pos : 0 < k
  deriving DecidableEq

/-- Number of bits. -/
def Geometry.m (g : Geometry) : Nat := g.bucketCount * 32

/-- The geometry of one item at a rate of 0.9. -/
def Geometry.oneBucket : Geometry := ⟨1, 1, by decide, by decide⟩

structure BloomFilter where
  k : Nat
  buckets : List (BitVec 32)
  deriving DecidableEq

namespace BloomFilter

/-- `this.m`, which the constructor rounds up to whole buckets. -/
def m (filter : BloomFilter) : Nat := filter.buckets.length * 32

/-- The four 16-bit limbs of the FNV-1a state, least significant first. Products of limbs stay
exact in a double, which is why the source splits the state. -/
structure Limbs where
  v0 : Nat
  v1 : Nat
  v2 : Nat
  v3 : Nat
  deriving DecidableEq

def fnvOffset : Limbs := ⟨0x2325, 0x8422, 0x9ce4, 0xcbf2⟩

def fnv64PrimeX : Nat := 0x01b3

/-- One character of the FNV-1a loop. No intermediate value leaves the range
in which the source's arithmetic is exact. -/
def fnvStep (h : Limbs) (charCode : UInt16) : Limbs :=
  let v0 := h.v0 ^^^ charCode.toNat
  let t0 := v0 * fnv64PrimeX
  let t1 := h.v1 * fnv64PrimeX + (t0 >>> 16)
  let t2 := h.v2 * fnv64PrimeX + (v0 <<< 8) + (t1 >>> 16)
  let t3 := h.v3 * fnv64PrimeX + (h.v1 <<< 8) + (t2 >>> 16)
  ⟨t0 &&& 0xffff, t1 &&& 0xffff, t2 &&& 0xffff, t3 &&& 0xffff⟩

/-- `(high << 16) | low` as a signed 32-bit integer. -/
def signedWord (high low : Nat) : Int := (BitVec.ofNat 32 ((high <<< 16) ||| low)).toInt

/-- `((a % m) + m) % m` with JavaScript's remainder. -/
def reduce (a : Int) (m : Nat) : Nat := (((a.tmod m) + m).tmod m).toNat

/-- The positions of the double-hashing loop from index `i` on. Each step adds `b` to `a` and
its index to `b`, and reduces both. -/
def doubleHash (m a b i : Nat) : Nat → List Nat
  | 0 => []
  | count + 1 =>
      let a' := (a + b) % m
      a' :: doubleHash m a' ((b + i) % m) (i + 1) count

/-- Bits per element of `_locations`: one byte up to 2^8 positions, two up to
2^16, and a `Uint32Array` for everything larger. -/
def locationWidth (m : Nat) : Nat := if m ≤ 2 ^ 8 then 8 else if m ≤ 2 ^ 16 then 16 else 32

/-- The first `k` bit positions of a string, as stored in `_locations`. -/
def locations (m k : Nat) (v : JsString) : List Nat :=
  let h := v.foldl fnvStep fnvOffset
  let a := reduce (signedWord h.v3 h.v2) m
  let b := reduce (signedWord h.v1 h.v0) m
  ((a :: doubleHash m a b 1 (k - 1)).take k).map fun loc => loc % 2 ^ locationWidth m

/-- `loc >> 5` on a signed 32-bit integer. -/
def bucketIndex (loc : Nat) : Int := (BitVec.ofNat 32 loc).toInt / 32

/-- `1 << (loc & 0x1f)`. -/
def bucketMask (loc : Nat) : BitVec 32 := 1#32 <<< (loc &&& 0x1f)

/-- `buckets[loc >> 5] |= 1 << (loc & 0x1f)`; a write out of range is ignored. From bit 2^31 on
the shift is negative, and so the write is lost. -/
def setBit (buckets : List (BitVec 32)) (loc : Nat) : List (BitVec 32) :=
  match bucketIndex loc with
  | .ofNat i => buckets.modify i (· ||| bucketMask loc)
  | .negSucc _ => buckets

/-- `buckets[loc >> 5] & (1 << (loc & 0x1f))` is not zero; a read out of range
gives `undefined`, which no mask meets. -/
def getBit (buckets : List (BitVec 32)) (loc : Nat) : Bool :=
  match bucketIndex loc with
  | .ofNat i => (buckets[i]?.getD 0 &&& bucketMask loc) != 0
  | .negSucc _ => false

def add (filter : BloomFilter) (v : JsString) : BloomFilter :=
  { filter with buckets := (locations filter.m filter.k v).foldl setBit filter.buckets }

def test (filter : BloomFilter) (v : JsString) : Bool :=
  (locations filter.m filter.k v).all (getBit filter.buckets)

/-- `BloomFilterFactory.create`: an empty filter of the configured geometry. -/
def create (g : Geometry) : BloomFilter := ⟨g.k, List.replicate g.bucketCount 0⟩

/-- `BloomFilterFactory.createFromBuckets`. -/
def createFromBuckets (buckets : List (BitVec 32)) (k : Nat) : BloomFilter := ⟨k, buckets⟩

/-- A filter of the configured geometry. Its buckets and its hash count are those that the
configuration gives. -/
def Fits (g : Geometry) (filter : BloomFilter) : Prop :=
  filter.k = g.k ∧ filter.buckets.length = g.bucketCount

/-- The bits that are set in a bucket array. Positions outside of the array are not among them.
-/
def bits (buckets : List (BitVec 32)) : Set Nat :=
  {p | (buckets[p / 32]?.getD 0).getLsbD (p % 32) = true}

theorem mask_eq (loc : Nat) : bucketMask loc = BitVec.twoPow 32 (loc % 32) := by
  rw [bucketMask, show (0x1f : Nat) = 2 ^ 5 - 1 from rfl, Nat.and_two_pow_sub_one_eq_mod]
  simp [BitVec.twoPow]

theorem bucketIndex_of_lt {loc : Nat} (h : loc < 2 ^ 31) : bucketIndex loc = (loc / 32 : Nat) := by
  have hInt : (BitVec.ofNat 32 loc).toInt = loc := by
    rw [BitVec.toInt_eq_toNat_cond, BitVec.toNat_ofNat, Nat.mod_eq_of_lt (by omega), if_pos (by omega)]
  rw [bucketIndex, hInt]
  omega

theorem bucketIndex_of_le {loc : Nat} (h : 2 ^ 31 ≤ loc) (hLt : loc < 2 ^ 32) :
    bucketIndex loc < 0 := by
  have hInt : (BitVec.ofNat 32 loc).toInt = (loc : Int) - 2 ^ 32 := by
    rw [BitVec.toInt_eq_toNat_cond, BitVec.toNat_ofNat, Nat.mod_eq_of_lt (by omega), if_neg (by omega)]
    omega
  rw [bucketIndex, hInt]
  omega

theorem getBit_eq_true_iff {buckets : List (BitVec 32)} {loc : Nat} (hLt : loc < 2 ^ 32) :
    getBit buckets loc = true ↔ loc < 2 ^ 31 ∧ loc ∈ bits buckets := by
  by_cases h : loc < 2 ^ 31
  · simp only [getBit, bucketIndex_of_lt h, mask_eq, BitVec.and_twoPow, bits, Set.mem_ofPred_eq, h,
      true_and]
    split_ifs with hBit
    · simp only [hBit, iff_true, bne_iff_ne, ne_eq]
      intro hZero
      have := congrArg (fun w => BitVec.getLsbD w (loc % 32)) hZero
      simp at this
      omega
    · simpa using hBit
  · have hNeg := bucketIndex_of_le (by omega) hLt
    simp only [h, false_and, iff_false, getBit]
    match hIndex : bucketIndex loc with
    | .ofNat i => rw [hIndex] at hNeg; exact absurd hNeg (by simp)
    | .negSucc i => simp

theorem length_setBit (buckets : List (BitVec 32)) (loc : Nat) :
    (setBit buckets loc).length = buckets.length := by
  unfold setBit
  split <;> simp

theorem bits_setBit {buckets : List (BitVec 32)} {loc : Nat} (hRange : loc < buckets.length * 32)
    (hLt : loc < 2 ^ 32) :
    bits (setBit buckets loc) = bits buckets ∪ {p | p = loc ∧ p < 2 ^ 31} := by
  ext p
  by_cases h : loc < 2 ^ 31
  · simp only [setBit, bucketIndex_of_lt h, bits, Set.mem_ofPred_eq, Set.mem_union, mask_eq]
    have hIndex : loc / 32 < buckets.length := by omega
    by_cases hSame : loc / 32 = p / 32
    · have hp : p / 32 < buckets.length := by omega
      have hMod : (loc % 32 < 32 ∧ loc % 32 = p % 32) ↔ (p = loc ∧ p < 2 ^ 31) := by omega
      rw [List.getElem?_modify]
      simp only [hSame, if_true, List.getElem?_eq_getElem hp, Option.map_eq_map, Option.map_some,
        Option.getD_some, BitVec.getLsbD_or, BitVec.getLsbD_twoPow, Bool.or_eq_true,
        Bool.and_eq_true, decide_eq_true_eq, hMod]
    · have hp : p ≠ loc := by rintro rfl; exact hSame rfl
      rw [List.getElem?_modify]
      simp [hSame, hp]
  · have hNeg := bucketIndex_of_le (by omega) hLt
    have hNone : {p | p = loc ∧ p < 2 ^ 31} = (∅ : Set Nat) := by
      ext p; simp; omega
    rw [hNone, Set.union_empty]
    unfold setBit
    match hIndex : bucketIndex loc with
    | .ofNat i => rw [hIndex] at hNeg; exact absurd hNeg (by simp)
    | .negSucc i => rfl


/-- `reduce` is the residue of the signed word, so it lies below `m`. -/
theorem reduce_lt {m : Nat} (hm : 0 < m) (a : Int) : reduce a m < m := by
  have hPos : (0 : Int) < m := by exact_mod_cast hm
  have hInner : 0 ≤ a.tmod m + m := by
    have := Int.lt_tmod_of_pos a hPos
    omega
  rw [reduce, Int.tmod_eq_emod_of_nonneg hInner]
  have hNonneg := Int.emod_nonneg (a.tmod m + m) hPos.ne'
  have hLt := Int.emod_lt_of_pos (a.tmod m + m) hPos
  omega

theorem doubleHash_lt {m : Nat} (hm : 0 < m) {a b i count loc : Nat}
    (h : loc ∈ doubleHash m a b i count) : loc < m := by
  induction count generalizing a b i with
  | zero => simp [doubleHash] at h
  | succ count ih =>
      simp only [doubleHash, List.mem_cons] at h
      rcases h with rfl | h
      · exact Nat.mod_lt _ hm
      · exact ih h

theorem locations_lt {m k : Nat} (hm : 0 < m) {v : JsString} {loc : Nat}
    (h : loc ∈ locations m k v) : loc < m ∧ loc < 2 ^ 32 := by
  simp only [locations, List.mem_map] at h
  obtain ⟨raw, hRaw, rfl⟩ := h
  have hRange : raw < m := by
    rcases List.mem_cons.mp (List.mem_of_mem_take hRaw) with rfl | hTail
    · exact reduce_lt hm _
    · exact doubleHash_lt hm hTail
  refine ⟨(Nat.mod_le _ _).trans_lt hRange, (Nat.mod_lt _ (by positivity)).trans_le ?_⟩
  exact Nat.pow_le_pow_right (by decide) (by unfold locationWidth; split_ifs <;> decide)

theorem length_locations (m k : Nat) (v : JsString) : (locations m k v).length = k := by
  have hHash : ∀ a b i count, (doubleHash m a b i count).length = count := by
    intro a b i count
    induction count generalizing a b i with
    | zero => rfl
    | succ count ih => simp [doubleHash, ih]
  simp only [locations, List.length_map, List.length_take, List.length_cons, hHash]
  omega

/-- Every position of the string is one the signed shift can address. This holds
of every string when the filter has at most 2^31 bits. -/
def Addressable (m k : Nat) (v : JsString) : Prop := ∀ loc ∈ locations m k v, loc < 2 ^ 31

instance (m k : Nat) (v : JsString) : Decidable (Addressable m k v) :=
  inferInstanceAs (Decidable (∀ loc ∈ locations m k v, loc < 2 ^ 31))

theorem addressable_of_le {m k : Nat} (hm : 0 < m) (hLe : m ≤ 2 ^ 31) (v : JsString) :
    Addressable m k v := fun _ h => (locations_lt hm h).1.trans_le hLe

/-- The bits that adding a string sets. Duplicate positions count once. -/
def signature (m k : Nat) (v : JsString) : Set Nat := {p | p ∈ locations m k v ∧ p < 2 ^ 31}

theorem bits_foldl_setBit (locs : List Nat) {buckets : List (BitVec 32)}
    (h : ∀ loc ∈ locs, loc < buckets.length * 32 ∧ loc < 2 ^ 32) :
    bits (locs.foldl setBit buckets) = bits buckets ∪ {p | p ∈ locs ∧ p < 2 ^ 31} ∧
      (locs.foldl setBit buckets).length = buckets.length := by
  induction locs generalizing buckets with
  | nil => simp
  | cons loc locs ih =>
      have hHead := h loc (by simp)
      have hRest : ∀ l ∈ locs, l < (setBit buckets loc).length * 32 ∧ l < 2 ^ 32 := by
        rw [length_setBit]
        exact fun l hl => h l (by simp [hl])
      have hTail := ih hRest
      refine ⟨?_, by rw [List.foldl_cons, hTail.2, length_setBit]⟩
      rw [List.foldl_cons, hTail.1, bits_setBit hHead.1 hHead.2, Set.union_assoc]
      congr 1
      ext p
      simp only [Set.mem_union, Set.mem_ofPred_eq, List.mem_cons]
      tauto

variable {g : Geometry} {filter : BloomFilter}

theorem Fits.m_eq (h : Fits g filter) : filter.m = g.m := by rw [m, h.2, Geometry.m]

theorem Fits.m_pos (h : Fits g filter) : 0 < filter.m := by
  rw [h.m_eq]
  exact Nat.mul_pos g.bucketCount_pos (by decide)

theorem fits_create (g : Geometry) : Fits g (create g) := ⟨rfl, by simp [create]⟩

/-- Adding a string joins its signature to the bits of the filter. -/
theorem bits_add (h : 0 < filter.m) (v : JsString) :
    bits (filter.add v).buckets =
      SignatureFilter.insert (signature filter.m filter.k) (bits filter.buckets) v ∧
    (filter.add v).buckets.length = filter.buckets.length :=
  bits_foldl_setBit _ fun _ hLoc => locations_lt h hLoc

theorem Fits.add (h : Fits g filter) (v : JsString) : Fits g (filter.add v) :=
  ⟨h.1, (bits_add h.m_pos v).2.trans h.2⟩

/-- A string tests true exactly when all its positions can be addressed and its
signature lies in the bits of the filter. -/
theorem test_eq_true_iff (h : 0 < filter.m) (v : JsString) :
    filter.test v = true ↔ Addressable filter.m filter.k v ∧
      SignatureFilter.Covers (signature filter.m filter.k) (bits filter.buckets) v := by
  have hGet : ∀ loc ∈ locations filter.m filter.k v,
      (getBit filter.buckets loc = true ↔ loc < 2 ^ 31 ∧ loc ∈ bits filter.buckets) :=
    fun loc hLoc => getBit_eq_true_iff (locations_lt h hLoc).2
  rw [test, List.all_eq_true]
  constructor
  · intro hAll
    exact ⟨fun loc hLoc => ((hGet loc hLoc).mp (hAll loc hLoc)).1,
      fun loc hLoc => ((hGet loc hLoc.1).mp (hAll loc hLoc.1)).2⟩
  · rintro ⟨hAddressable, hCovers⟩ loc hLoc
    exact (hGet loc hLoc).mpr ⟨hAddressable loc hLoc, hCovers ⟨hLoc, hAddressable loc hLoc⟩⟩

/-- No bit of a new filter is set. -/
theorem bits_create (g : Geometry) : bits (create g).buckets = ∅ := by
  ext p
  simp only [create, bits, Set.mem_ofPred_eq, List.getElem?_replicate]
  split_ifs <;> simp

theorem test_create (g : Geometry) (v : JsString) : (create g).test v = false := by
  rw [Bool.eq_false_iff]
  intro h
  obtain ⟨hAddressable, hCovers⟩ := (test_eq_true_iff (fits_create g).m_pos v).mp h
  have hPos : 0 < (locations (create g).m (create g).k v).length := by
    rw [length_locations]
    exact g.k_pos
  obtain ⟨loc, hLoc⟩ := List.exists_mem_of_length_pos hPos
  have := hCovers ⟨hLoc, hAddressable loc hLoc⟩
  rw [bits_create] at this
  exact this

/-- An added string tests true, provided its positions can be addressed. Without that proviso a
position past the buckets is never set and never found. -/
theorem test_add (h : Fits g filter) {v : JsString} (hAddressable : Addressable g.m g.k v) :
    (filter.add v).test v = true := by
  rw [test_eq_true_iff (h.add v).m_pos, (h.add v).m_eq, (h.add v).1, (bits_add h.m_pos v).1,
    h.m_eq, h.1]
  exact ⟨hAddressable, SignatureFilter.covers_insert _ _ _⟩

/-- Every bit of the first array is set in the second. -/
def within : List (BitVec 32) → List (BitVec 32) → Bool
  | [], [] => true
  | a :: as, b :: bs => (a &&& b) == a && within as bs
  | _, _ => false

theorem within_spec {as bs : List (BitVec 32)} (h : within as bs = true) :
    as.length = bs.length ∧ bits as ⊆ bits bs := by
  have hWord : ∀ i j : Nat, (as[i]?.getD 0).getLsbD j = true → (bs[i]?.getD 0).getLsbD j = true := by
    induction as generalizing bs with
    | nil => intro i j hBit; simp at hBit
    | cons a as ih =>
        cases bs with
        | nil => simp [within] at h
        | cons b bs =>
            simp only [within, Bool.and_eq_true, beq_iff_eq] at h
            intro i j hBit
            cases i with
            | zero =>
                have hBoth := congrArg (fun w => w.getLsbD j) h.1
                simp only [BitVec.getLsbD_and] at hBoth
                simp only [List.getElem?_cons_zero, Option.getD_some] at hBit ⊢
                simpa [hBit] using hBoth
            | succ i => exact ih h.2 i j (by simpa using hBit)
  refine ⟨?_, fun p hp => hWord _ _ hp⟩
  clear hWord
  induction as generalizing bs with
  | nil => cases bs <;> simp_all [within]
  | cons a as ih =>
      cases bs with
      | nil => simp [within] at h
      | cons b bs =>
          simp only [within, Bool.and_eq_true] at h
          simp [ih h.2]

end BloomFilter

/-- A Bloom filter of the configured geometry. The factory creates no other, and
a blob of another size is not restored. -/
structure SizedFilter (g : Geometry) extends BloomFilter where
  fits : BloomFilter.Fits g toBloomFilter
  deriving DecidableEq

namespace SizedFilter

variable {g : Geometry}

/-- `BloomFilterFactory.create` for the configured geometry. -/
def create (g : Geometry) : SizedFilter g := ⟨BloomFilter.create g, BloomFilter.fits_create g⟩

def add (filter : SizedFilter g) (v : JsString) : SizedFilter g :=
  ⟨filter.toBloomFilter.add v, filter.fits.add v⟩

def test (filter : SizedFilter g) (v : JsString) : Bool := filter.toBloomFilter.test v

def bits (filter : SizedFilter g) : Set Nat := BloomFilter.bits filter.buckets

/-- The bits that adding a string to any filter of this geometry sets. -/
def signature (g : Geometry) (v : JsString) : Set Nat := BloomFilter.signature g.m g.k v

variable {filter other : SizedFilter g} {v : JsString}

/-- `createFromBuckets` on a blob that passed the geometry check. -/
def ofBuckets (g : Geometry) (buckets : List (BitVec 32)) (h : buckets.length = g.bucketCount) :
    SizedFilter g :=
  ⟨BloomFilter.createFromBuckets buckets g.k, rfl, h⟩

theorem ofBuckets_buckets (filter : SizedFilter g) :
    ofBuckets g filter.buckets filter.fits.2 = filter := by
  obtain ⟨⟨k, buckets⟩, hFits⟩ := filter
  simp only [ofBuckets, BloomFilter.createFromBuckets, mk.injEq, BloomFilter.mk.injEq, and_true]
  exact hFits.1.symm

theorem bits_create (g : Geometry) : (create g).bits = ∅ := BloomFilter.bits_create g

theorem bits_add (filter : SizedFilter g) (v : JsString) :
    (filter.add v).bits = SignatureFilter.insert (signature g) filter.bits v := by
  have h := (BloomFilter.bits_add filter.fits.m_pos v).1
  rw [filter.fits.m_eq, filter.fits.1] at h
  exact h

theorem test_eq_true_iff : filter.test v = true ↔
    BloomFilter.Addressable g.m g.k v ∧ SignatureFilter.Covers (signature g) filter.bits v := by
  have h := BloomFilter.test_eq_true_iff filter.fits.m_pos v
  rw [filter.fits.m_eq, filter.fits.1] at h
  exact h

theorem test_create (g : Geometry) (v : JsString) : (create g).test v = false :=
  BloomFilter.test_create g v

theorem test_mono (hLe : filter.bits ⊆ other.bits) (hTest : filter.test v = true) :
    other.test v = true := by
  rw [test_eq_true_iff] at hTest ⊢
  exact ⟨hTest.1, hTest.2.mono hLe⟩

theorem bits_subset_add (filter : SizedFilter g) (v : JsString) : filter.bits ⊆ (filter.add v).bits := by
  rw [bits_add]
  exact SignatureFilter.le_insert _ _ _

theorem test_add_of_test (hTest : filter.test v = true) (w : JsString) :
    (filter.add w).test v = true :=
  test_mono (bits_subset_add filter w) hTest

theorem test_add (hAddressable : BloomFilter.Addressable g.m g.k v) (filter : SizedFilter g) :
    (filter.add v).test v = true :=
  BloomFilter.test_add filter.fits hAddressable

/-- A filter of at most 2^31 bits can address every position. -/
theorem addressable (hLe : g.m ≤ 2 ^ 31) (v : JsString) : BloomFilter.Addressable g.m g.k v :=
  BloomFilter.addressable_of_le (Nat.mul_pos g.bucketCount_pos (by decide)) hLe v

end SizedFilter

end TokenRevoker
