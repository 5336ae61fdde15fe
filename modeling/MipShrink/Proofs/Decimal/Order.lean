/-
# The order of the doubles

Machine numbers are compared field by field, first the exponents and then the mantissas.  So their
order is that of integers: the exponent field and the fraction of an encoding, read as one number
with the sign in front of it, are the `rank?` of a double (`lt_iff_rank`, `le_iff_rank`).  Both
zeros have the rank zero, the infinities stand next to the largest finite doubles, and what is no
number has no rank: it is neither below anything nor above it (`not_lt_iff`).

Finite doubles are in the order of their values (`value_le`), and so a machine number between two
finite ones has a value between theirs (`exists_value`).
-/

import MipShrink.Proofs.Decimal.RoundTrip

namespace MipShrink
namespace Binary64

open Float.Model

/-! ### What a machine number is compared by -/

/-- The sign of a magnitude. -/
def signOf (negative : Bool) : UnpackedFloat.Sign :=
  if negative then .negative else .positive

/-- **The form in which machine numbers are compared:** zero stands for itself. -/
def unpacked : Binary64 → UnpackedFloat
  | nan _ => .notANumber
  | infinite negative => .infinity (signOf negative)
  | finite negative m e =>
    if pos : 0 < m then .finite (signOf negative) m e pos else .zero (signOf negative)

variable {bits : UInt64} {negative : Bool} {biased fraction : Nat}

/-- The sign of an encoding. -/
theorem ofBitVec_unpackSign (exponent : biased < 2048) (small : fraction < Nat.pow 2 52)
    (fields : bits.toNat = joined negative biased fraction) :
    UnpackedFloat.Sign.ofBitVec
      (@UnpackedFloat.unpackSign Format.binary64 bits.toBitVec) = signOf negative := by
  have sign : @UnpackedFloat.unpackSign Format.binary64 bits.toBitVec =
      BitVec.ofBool negative := by
    apply BitVec.eq_of_toNat_eq
    rw [UnpackedFloat.unpackSign_def, BitVec.extractLsb'_toNat, Nat.shiftRight_eq_div_pow]
    show bits.toNat / 9223372036854775808 % 2 = (BitVec.ofBool negative).toNat
    rw [fields, joined_eq, BitVec.toNat_ofBool]
    rw [pow_52] at small
    cases negative
    · simp only [Bool.false_eq_true, if_false, Bool.toNat_false]
      omega
    · simp only [if_true, Bool.toNat_true]
      omega
  rw [sign]
  cases negative <;> rfl

/-- **An encoding is unpacked to what it stands for.** -/
theorem unpack_toBitVec (bits : UInt64) :
    UnpackedFloat.unpack Format.binary64 bits.toBitVec = (ofBits bits).unpacked := by
  obtain ⟨negative, biased, fraction, exponent, small, fields⟩ := exists_joined bits
  rw [ofBits_of_joined exponent small fields]
  have first := toNat_unpackExponent exponent small fields
  have rest := toNat_unpackMantissa small fields
  have sign := ofBitVec_unpackSign exponent small fields
  have bias : (Format.binary64.exponentBias : Int) = 1023 := rfl
  have places : (Format.binary64.mantissaBitsWithoutImplicit : Int) = 52 := rfl
  -- What is asked of the fields is asked of the numbers that they hold.
  have all : @UnpackedFloat.unpackExponent Format.binary64 bits.toBitVec = -1#_ ↔
      biased = 2047 := by
    rw [← BitVec.toNat_inj, first]
    rfl
  have none : @UnpackedFloat.unpackExponent Format.binary64 bits.toBitVec = 0#_ ↔
      biased = 0 := by
    rw [← BitVec.toNat_inj, first]
    rfl
  have whole : @UnpackedFloat.unpackMantissa Format.binary64 bits.toBitVec = 0#_ ↔
      fraction = 0 := by
    rw [← BitVec.toNat_inj, rest]
    rfl
  unfold UnpackedFloat.unpack
  dsimp only
  rw [sign, bias]
  by_cases last : biased = 2047
  · rw [if_pos (all.2 last), if_pos last]
    by_cases zero : fraction = 0
    · rw [if_pos (whole.2 zero), if_pos zero]
      rfl
    · rw [if_neg (mt whole.1 zero), if_neg zero]
      rfl
  rw [if_neg (mt all.1 last), if_neg last]
  by_cases least : biased = 0
  · rw [if_pos (none.2 least), if_pos least, unpacked]
    by_cases zero : fraction = 0
    · rw [dif_pos (whole.2 zero), dif_neg (by omega)]
    · rw [dif_neg (mt whole.1 zero), dif_pos (by omega), UnpackedFloat.finite.injEq]
      exact ⟨rfl, rest, by rw [first, places]; omega⟩
  · rw [if_neg (mt none.1 least), if_neg least, unpacked, dif_pos (by omega),
      UnpackedFloat.finite.injEq]
    refine ⟨rfl, ?_, by rw [first, places]; omega⟩
    rw [BitVec.toNat_append, rest, ← Nat.shiftLeft_add_eq_or_of_lt small, Nat.add_comm]
    rfl

/-- What a machine number is unpacked to tells its sign, mantissa and exponent. -/
theorem unpack_toModel (x : Float) : x.toModel.unpack = (ofFloat x).unpacked :=
  unpack_toBitVec x.toBits

/-! ### Ranks -/

/-- A number with a sign in front of it. -/
def signed (negative : Bool) (n : Int) : Int :=
  if negative then -n else n

theorem signed_false (n : Int) : signed false n = n := rfl

theorem signed_true (n : Int) : signed true n = -n := rfl

/-- The place of a magnitude among the magnitudes: its encoding. -/
def size (m : Nat) (e : Int) : Int :=
  (e + 1074) * 4503599627370496 + m

/-- The size of what is infinite. -/
def infiniteSize : Int := 2047 * 4503599627370496

/-- **The place of a double in the order of the doubles**, which what is no number does not have. -/
def rank? : Binary64 → Option Int
  | nan _ => none
  | infinite negative => some (signed negative infiniteSize)
  | finite negative m e => some (signed negative (size m e))

/-- Zero has size zero. -/
theorem Normal.size_zero {e : Int} (normal : Normal 0 e) : size 0 e = 0 := by
  have least := normal.full.resolve_left (by decide)
  rw [least]
  rfl

/-- A mantissa that is not zero has a positive size. -/
theorem Normal.size_pos {m : Nat} {e : Int} (normal : Normal m e) (pos : 0 < m) : 0 < size m e := by
  have least := normal.least
  unfold size
  omega

/-- No size is negative. -/
theorem Normal.size_nonneg {m : Nat} {e : Int} (normal : Normal m e) : 0 ≤ size m e := by
  have least := normal.least
  unfold size
  omega

/-- Infinity is larger than every finite size. -/
theorem Normal.size_lt {m : Nat} {e : Int} (normal : Normal m e) : size m e < infiniteSize := by
  have small := normal.small
  have greatest := normal.greatest
  unfold size infiniteSize
  omega

/-- Negating two integers turns their comparison. -/
theorem compare_neg (i j : Int) : compare (-i) (-j) = (compare i j).swap := by
  rcases lt_trichotomy i j with less | rfl | more
  · rw [compare_lt_iff_lt.2 less]
    exact compare_gt_iff_gt.2 (Int.neg_lt_neg less)
  · rw [compare_eq_iff_eq.2 rfl, compare_eq_iff_eq.2 rfl]
    rfl
  · rw [compare_gt_iff_gt.2 more]
    exact compare_lt_iff_lt.2 (Int.neg_lt_neg more)

/-- **Magnitudes are compared by their exponents first**, and so are their sizes. -/
theorem compare_size {m m' : Nat} {e e' : Int} (normal : Normal m e) (normal' : Normal m' e') :
    compare (size m e) (size m' e') = (compare e e').then (compare m m') := by
  obtain ⟨small, least, greatest, full⟩ := normal
  obtain ⟨small', least', greatest', full'⟩ := normal'
  unfold size
  rcases lt_trichotomy e e' with less | rfl | more
  · rw [compare_lt_iff_lt.2 less]
    exact compare_lt_iff_lt.2 (by omega)
  · rw [compare_eq_iff_eq.2 (Eq.refl e)]
    rcases lt_trichotomy m m' with less | rfl | more
    · rw [compare_lt_iff_lt.2 less]
      exact compare_lt_iff_lt.2 (by omega)
    · rw [compare_eq_iff_eq.2 (Eq.refl m)]
      exact compare_eq_iff_eq.2 rfl
    · rw [compare_gt_iff_gt.2 more]
      exact compare_gt_iff_gt.2 (by omega)
  · rw [compare_gt_iff_gt.2 more]
    exact compare_gt_iff_gt.2 (by omega)

/-- What machine numbers are compared by, with its rank. -/
inductive Ranked : UnpackedFloat → Int → Prop where
  | infinity (negative : Bool) : Ranked (.infinity (signOf negative)) (signed negative infiniteSize)
  | zero (negative : Bool) : Ranked (.zero (signOf negative)) 0
  | finite (negative : Bool) {m : Nat} {e : Int} (normal : Normal m e) (pos : 0 < m) :
      Ranked (.finite (signOf negative) m e pos) (signed negative (size m e))

/-- What has a rank is unpacked to what is ranked by it. -/
theorem ranked_unpacked {a : Binary64} (encoded : Encoded a) {i : Int} (rank : a.rank? = some i) :
    Ranked a.unpacked i := by
  cases encoded with
  | nan => cases rank
  | infinite negative =>
    cases rank
    exact .infinity negative
  | @finite negative m e normal =>
    cases rank
    rcases Nat.eq_zero_or_pos m with rfl | pos
    · rw [normal.size_zero]
      cases negative <;> exact .zero _
    · rw [unpacked, dif_pos pos]
      exact .finite negative normal pos

/-- **What has ranks is compared as its ranks are.** -/
theorem Ranked.compare_eq {u v : UnpackedFloat} {i j : Int} (hu : Ranked u i) (hv : Ranked v j) :
    u.compare v = some (compare i j) := by
  have less {i j : Int} (h : i < j) : some Ordering.lt = some (compare i j) :=
    congrArg some (compare_lt_iff_lt.2 h).symm
  have more {i j : Int} (h : j < i) : some Ordering.gt = some (compare i j) :=
    congrArg some (compare_gt_iff_gt.2 h).symm
  have top : 0 < infiniteSize := by decide
  -- Only two finite numbers of one sign need their mantissas; else signs and infinities decide.
  cases hu with
  | infinity s =>
    cases hv with
    | infinity s' => cases s <;> cases s' <;> rfl
    | zero s' => cases s <;> rfl
    | finite s' normal' pos' =>
      have lower := normal'.size_pos pos'
      have upper := normal'.size_lt
      cases s
      · exact more (by cases s' <;> simp only [signed_false, signed_true] <;> omega)
      · exact less (by cases s' <;> simp only [signed_false, signed_true] <;> omega)
  | zero s =>
    cases hv with
    | infinity s' => cases s' <;> rfl
    | zero s' => rfl
    | finite s' normal' pos' =>
      have lower := normal'.size_pos pos'
      cases s'
      · exact less lower
      · exact more (Int.neg_neg_of_pos lower)
  | finite s normal pos =>
    have lower := normal.size_pos pos
    have upper := normal.size_lt
    cases hv with
    | infinity s' =>
      cases s'
      · cases s
        · exact less upper
        · exact less (by simp only [signed_false, signed_true]; omega)
      · cases s
        · exact more (by simp only [signed_false, signed_true]; omega)
        · exact more (by simp only [signed_true]; omega)
    | zero s' =>
      cases s
      · exact more lower
      · exact less (Int.neg_neg_of_pos lower)
    | finite s' normal' pos' =>
      have lower' := normal'.size_pos pos'
      cases s <;> cases s'
      · exact congrArg some (compare_size normal normal').symm
      · exact more (by simp only [signed_false, signed_true]; omega)
      · exact less (by simp only [signed_false, signed_true]; omega)
      · show some ((compare _ _).then (compare _ _)).swap = some (compare (-size _ _) (-size _ _))
        rw [compare_neg, compare_size normal normal']

/-! ### The order of machine numbers -/

/-- **Machine numbers are compared as their ranks are**, and what has none with nothing. -/
theorem compare_unpack (x y : Float) : x.toModel.unpack.compare y.toModel.unpack =
    (ofFloat x).rank?.bind fun i => (ofFloat y).rank?.map fun j => compare i j := by
  rw [unpack_toModel, unpack_toModel]
  have hx := encoded_ofFloat x
  have hy := encoded_ofFloat y
  generalize ofFloat x = a at *
  generalize ofFloat y = b at *
  cases ranked : a.rank? with
  | none =>
    cases hx with
    | nan => rfl
    | _ => cases ranked
  | some i =>
    cases ranked' : b.rank? with
    | none =>
      cases hy with
      | nan => cases hu : a.unpacked <;> rfl
      | _ => cases ranked'
    | some j => exact (ranked_unpacked hx ranked).compare_eq (ranked_unpacked hy ranked')

/-- Machine numbers are in the strict order of their ranks. -/
theorem lt_iff_rank {x y : Float} : x < y ↔
    ∃ i j, (ofFloat x).rank? = some i ∧ (ofFloat y).rank? = some j ∧ i < j := by
  have unfolded : x < y ↔ (x.toModel.unpack.compare y.toModel.unpack == some .lt) = true :=
    decide_eq_true_iff
  rw [unfolded, compare_unpack, beq_iff_eq]
  constructor
  · intro less
    obtain ⟨i, hi, less⟩ := Option.bind_eq_some_iff.1 less
    obtain ⟨j, hj, less⟩ := Option.map_eq_some_iff.1 less
    exact ⟨i, j, hi, hj, compare_lt_iff_lt.1 less⟩
  · rintro ⟨i, j, hi, hj, less⟩
    rw [hi, hj]
    exact congrArg some (compare_lt_iff_lt.2 less)

/-- Machine numbers are in the order of their ranks. -/
theorem le_iff_rank {x y : Float} : x ≤ y ↔
    ∃ i j, (ofFloat x).rank? = some i ∧ (ofFloat y).rank? = some j ∧ i ≤ j := by
  have unfolded : x ≤ y ↔
      (x.toModel.unpack.compare y.toModel.unpack).any Ordering.isLE = true :=
    decide_eq_true_iff
  rw [unfolded, compare_unpack, Option.any_eq_true]
  constructor
  · rintro ⟨o, known, below⟩
    obtain ⟨i, hi, known⟩ := Option.bind_eq_some_iff.1 known
    obtain ⟨j, hj, rfl⟩ := Option.map_eq_some_iff.1 known
    exact ⟨i, j, hi, hj, Std.isLE_compare.1 below⟩
  · rintro ⟨i, j, hi, hj, below⟩
    rw [hi, hj]
    exact ⟨compare i j, rfl, Std.isLE_compare.2 below⟩

/-- What is no number is unpacked as such. -/
theorem unpacked_eq_notANumber_iff {a : Binary64} :
    a.unpacked = .notANumber ↔ ∃ negative, a = nan negative := by
  cases a with
  | nan negative => exact iff_of_true rfl ⟨negative, rfl⟩
  | infinite negative => exact iff_of_false nofun nofun
  | finite negative m e =>
    refine iff_of_false (fun same => ?_) fun ⟨_, other⟩ => nomatch other
    rw [unpacked] at same
    split at same <;> cases same

/-- What is no number has no rank. -/
theorem rank?_eq_none_iff {a : Binary64} : a.rank? = none ↔ ∃ negative, a = nan negative := by
  cases a with
  | nan negative => exact iff_of_true rfl ⟨negative, rfl⟩
  | _ => exact iff_of_false nofun nofun

/-- What has no rank is no number. -/
theorem isNaN_iff_rank {x : Float} : x.isNaN = true ↔ (ofFloat x).rank? = none := by
  have unfolded : x.isNaN = x.toModel.unpack.isNaN := rfl
  rw [unfolded, unpack_toModel, UnpackedFloat.isNaN_iff, unpacked_eq_notANumber_iff,
    rank?_eq_none_iff]

/-- **Either of two machine numbers is at most the other one**, if both are numbers. -/
theorem not_lt_iff {x y : Float} : ¬x < y ↔ x.isNaN = true ∨ y.isNaN = true ∨ y ≤ x := by
  rw [isNaN_iff_rank, isNaN_iff_rank, lt_iff_rank, le_iff_rank]
  cases (ofFloat x).rank? with
  | none => simp
  | some i =>
    cases (ofFloat y).rank? with
    | none => simp
    | some j => simp

/-- What is compared is a number. -/
theorem isNaN_of_le {x y : Float} (le : x ≤ y) : x.isNaN = false ∧ y.isNaN = false := by
  obtain ⟨i, j, rank, rank', -⟩ := le_iff_rank.1 le
  rw [← Bool.not_eq_true, ← Bool.not_eq_true, isNaN_iff_rank, isNaN_iff_rank, rank, rank']
  exact ⟨nofun, nofun⟩

/-! ### Encodings of numbers -/

/-- The machine number with an encoding has this encoding, unless it is none. -/
theorem toBits_float_ofBits {bits : UInt64} (number : ∀ negative, ofBits bits ≠ nan negative) :
    (Float.ofBits bits).toBits = bits := by
  have valid : Format.binary64.Valid bits.toBitVec := by
    refine ⟨fun all fractional => absurd ?_ (not_exists.2 number)⟩
    rw [← unpacked_eq_notANumber_iff, ← unpack_toBitVec]
    unfold UnpackedFloat.unpack
    dsimp only
    rw [if_pos all, if_neg fractional]
  exact UInt64.toBitVec_inj.1 (UnpackedFloat.pack_unpack_of_valid valid)

/-- **A double comes back from its machine number.** -/
theorem ofFloat_toFloat {b : Binary64} (encoded : Encoded b) : ofFloat b.toFloat = b := by
  cases encoded with
  | nan => decide +kernel
  | infinite negative => cases negative <;> decide +kernel
  | @finite negative m e normal =>
    have back := ofBits_toBits negative normal
    have number : ∀ sign, ofBits (finite negative m e).toBits ≠ nan sign := by
      intro sign same
      cases back.symm.trans same
    unfold ofFloat toFloat
    rw [toBits_float_ofBits number, back]

/-! ### The values -/

/-- **The ranks of magnitudes are ordered as their values.** -/
theorem le_of_size_le {m m' : Nat} {e e' : Int} (normal : Normal m e) (normal' : Normal m' e')
    (below : size m e ≤ size m' e') : (m * 2 ^ e : ℚ) ≤ m' * 2 ^ e' := by
  obtain ⟨small, least, greatest, full⟩ := normal
  obtain ⟨small', least', greatest', full'⟩ := normal'
  unfold size at below
  have weight : (0 : ℚ) < 2 ^ e := by positivity
  rcases lt_trichotomy e e' with less | rfl | more
  · have full : (4503599627370496 : ℚ) ≤ m' := by exact_mod_cast full'.resolve_right (by omega)
    have small : (m : ℚ) ≤ 9007199254740992 := by exact_mod_cast small.le
    have step : (2 : ℚ) * 2 ^ e ≤ 2 ^ e' := by
      rw [← zpow_one_add₀ two_ne_zero]
      exact zpow_le_zpow_right₀ one_le_two (by omega)
    calc (m * 2 ^ e : ℚ) ≤ 4503599627370496 * (2 * 2 ^ e) := by nlinarith
      _ ≤ m' * 2 ^ e' := mul_le_mul full step (by positivity) (by positivity)
  · have mantissa : (m : ℚ) ≤ m' := by exact_mod_cast (by omega : m ≤ m')
    exact mul_le_mul_of_nonneg_right mantissa weight.le
  · omega

/-- **The ranks of finite doubles are ordered as their values.** -/
theorem toRat?_le {a b : Binary64} (ha : Encoded a) (hb : Encoded b) {i j : Int} {x y : ℚ}
    (rank : a.rank? = some i) (rank' : b.rank? = some j) (below : i ≤ j)
    (value : a.toRat? = some x) (value' : b.toRat? = some y) : x ≤ y := by
  cases ha with
  | nan => cases value
  | infinite => cases value
  | @finite s m e normal =>
    cases hb with
    | nan => cases value'
    | infinite => cases value'
    | @finite s' m' e' normal' =>
      rw [toRat?_finite] at value value'
      cases rank
      cases rank'
      cases value
      cases value'
      have positive := normal.size_nonneg
      have positive' := normal'.size_nonneg
      have magnitude : (0 : ℚ) ≤ m * 2 ^ e := by positivity
      have magnitude' : (0 : ℚ) ≤ m' * 2 ^ e' := by positivity
      cases s with
      | false =>
        cases s' with
        | false => exact le_of_size_le normal normal' below
        | true =>
          -- Only the two zeros can be in this order.
          rw [signed_false, signed_true] at below
          have zero : ¬0 < m := fun pos => by
            have := normal.size_pos pos
            omega
          have zero' : ¬0 < m' := fun pos => by
            have := normal'.size_pos pos
            omega
          rw [Nat.eq_zero_of_not_pos zero, Nat.eq_zero_of_not_pos zero', Nat.cast_zero, zero_mul,
            zero_mul, neg_zero]
          exact (ite_self _).le.trans (ite_self _).ge
      | true =>
        cases s' with
        | false => exact (neg_nonpos.2 magnitude).trans magnitude'
        | true =>
          rw [signed_true, signed_true] at below
          exact neg_le_neg (le_of_size_le normal' normal (Int.neg_le_neg_iff.1 below))

/-- **Finite machine numbers are ordered as their values.** -/
theorem value_le {x y : Float} {p q : ℚ} (below : x ≤ y) (value : (ofFloat x).toRat? = some p)
    (value' : (ofFloat y).toRat? = some q) : p ≤ q := by
  obtain ⟨i, j, rank, rank', order⟩ := le_iff_rank.1 below
  exact toRat?_le (encoded_ofFloat x) (encoded_ofFloat y) rank rank' order value value'

/-- Finite doubles stand between the infinities. -/
theorem rank_of_finite {b : Binary64} (encoded : Encoded b) {i : Int} {p : ℚ}
    (rank : b.rank? = some i) (value : b.toRat? = some p) :
    -infiniteSize < i ∧ i < infiniteSize := by
  cases encoded with
  | nan => cases value
  | infinite => cases value
  | finite negative normal =>
    cases rank
    have positive := normal.size_nonneg
    have upper := normal.size_lt
    cases negative
    · rw [signed_false]
      omega
    · rw [signed_true]
      omega

/-- **A machine number between two finite ones is finite**, and its value lies between theirs. -/
theorem exists_value {x y z : Float} {p q : ℚ} (lower : x ≤ y) (upper : y ≤ z)
    (value : (ofFloat x).toRat? = some p) (value' : (ofFloat z).toRat? = some q) :
    ∃ r, (ofFloat y).toRat? = some r ∧ p ≤ r ∧ r ≤ q := by
  obtain ⟨i, j, least, rank, below⟩ := le_iff_rank.1 lower
  obtain ⟨j', k, rank', greatest, above⟩ := le_iff_rank.1 upper
  obtain rfl := Option.some.inj (rank.symm.trans rank')
  have first := rank_of_finite (encoded_ofFloat x) least value
  have last := rank_of_finite (encoded_ofFloat z) greatest value'
  cases shape : ofFloat y with
  | nan negative =>
    rw [shape] at rank
    cases rank
  | infinite negative =>
    rw [shape] at rank
    cases rank
    cases negative
    · rw [signed_false] at above
      omega
    · rw [signed_true] at below
      omega
  | finite negative m e =>
    have inner := toRat?_finite negative m e
    rw [← shape] at inner
    exact ⟨_, shape ▸ inner, value_le lower value inner, value_le upper inner value'⟩

end Binary64
end MipShrink
