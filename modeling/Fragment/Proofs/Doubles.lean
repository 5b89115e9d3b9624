import Fragment.Number
import Mathlib

/-! Doubles taken apart.
A double is not a number, an infinity, or a sign with a mantissa and an exponent. Two doubles with the same parts are
the same double, and the bits of a double say what its parts are. -/
namespace Fragment.Double

open Float.Model (UnpackedFloat Format)
open Float.Model.UnpackedFloat (Sign)

def signOf (negative : Bool) : Sign := if negative then .negative else .positive

/-- A finite double. -/
def made (s : Sign) (m : Nat) (e : Int) : UnpackedFloat :=
  if h : m = 0 then .zero s else .finite s m e (Nat.pos_of_ne_zero h)

/-- What the fields of a double say. -/
def ofParts (negative : Bool) (biased fraction : Nat) : UnpackedFloat :=
  if biased = 2047 then if fraction = 0 then .infinity (signOf negative) else .notANumber
  else if biased = 0 then made (signOf negative) fraction (-1074)
  else made (signOf negative) (fraction + 2 ^ 52) ((biased : Int) - 1075)

/-- A double by sign, mantissa and exponent. -/
def parts (x : Float) : UnpackedFloat := x.toModel.unpack

theorem partsInjective {x y : Float} (same : parts x = parts y) : x = y := by
  have bits := (UnpackedFloat.unpack_inj_of_valid x.toModel.valid y.toModel.valid).mp same
  exact Float.toBits_inj.mp (UInt64.toBitVec_inj.mp bits)

section Bits

variable (b : BitVec Format.binary64.numBits)

theorem bitsBound : b.toNat < 2 ^ 64 := b.isLt

theorem signOfBit (v : BitVec 1) : Sign.ofBitVec v = signOf (v.toNat = 1) := by
  obtain rfl | rfl := BitVec.eq_zero_or_eq_one v
  · rfl
  · rfl

theorem signBit : Sign.ofBitVec (UnpackedFloat.unpackSign b) = signOf (b.toNat / 2 ^ 63 = 1) := by
  have bound := bitsBound b
  have value : (UnpackedFloat.unpackSign b).toNat = b.toNat / 2 ^ 63 := by
    rw [UnpackedFloat.unpackSign_def, BitVec.extractLsb'_toNat, Nat.shiftRight_eq_div_pow]
    refine Nat.mod_eq_of_lt ?_
    change b.toNat / 2 ^ 63 < 2
    omega
  rw [← value]
  exact signOfBit _

theorem exponentBits : (UnpackedFloat.unpackExponent b).toNat = b.toNat / 2 ^ 52 % 2 ^ 11 := by
  rw [UnpackedFloat.unpackExponent_def, BitVec.extractLsb'_toNat, Nat.shiftRight_eq_div_pow]

theorem mantissaBits : (UnpackedFloat.unpackMantissa b).toNat = b.toNat % 2 ^ 52 := by
  rw [UnpackedFloat.unpackMantissa_def, BitVec.extractLsb'_toNat]
  rfl

theorem unpackBits : UnpackedFloat.unpack .binary64 b =
    ofParts (b.toNat / 2 ^ 63 = 1) (b.toNat / 2 ^ 52 % 2 ^ 11) (b.toNat % 2 ^ 52) := by
  have ones : UnpackedFloat.unpackExponent b = -1#_ ↔ (UnpackedFloat.unpackExponent b).toNat = 2047 :=
    BitVec.toNat_inj.symm
  have zeros : UnpackedFloat.unpackExponent b = 0#_ ↔ (UnpackedFloat.unpackExponent b).toNat = 0 :=
    BitVec.toNat_inj.symm
  have whole : UnpackedFloat.unpackMantissa b = 0#_ ↔ (UnpackedFloat.unpackMantissa b).toNat = 0 :=
    BitVec.toNat_inj.symm
  have normal : (1#1 ++ UnpackedFloat.unpackMantissa b).toNat = (UnpackedFloat.unpackMantissa b).toNat + 2 ^ 52 := by
    rw [BitVec.toNat_append, ← Nat.shiftLeft_add_eq_or_of_lt (UnpackedFloat.unpackMantissa b).isLt, Nat.add_comm]
    rfl
  have bias : ((Format.binary64.exponentBias : Nat) : Int) = 1023 := rfl
  have width : ((Format.binary64.mantissaBitsWithoutImplicit : Nat) : Int) = 52 := rfl
  rw [← exponentBits, ← mantissaBits, ofParts, ← signBit]
  simp only [UnpackedFloat.unpack, ones, zeros, whole, normal, bias, width, made]
  split
  case isTrue => rfl
  case isFalse =>
    split
    case isTrue none =>
      simp only [none]
      rfl
    case isFalse => simp

end Bits

theorem partsOfBits (b : UInt64) : parts (Float.ofBits b) = UnpackedFloat.unpack .binary64 b.toBitVec := by
  change UnpackedFloat.unpack .binary64 (UnpackedFloat.pack .binary64 (UnpackedFloat.unpack .binary64 b.toBitVec)) = _
  rw [UnpackedFloat.pack_unpack]
  split
  case isTrue nan =>
    rw [UnpackedFloat.unpack_packedNaN]
    simp only [UnpackedFloat.isNaNBits, decide_eq_true_eq] at nan
    simp only [UnpackedFloat.unpack, nan.1, nan.2, if_true, if_false]
  case isFalse => rfl

theorem partsFields {biased fraction : Nat} (negative : Bool) (low : biased < 2 ^ 11) (small : fraction < 2 ^ 52) :
    parts (ofFields negative biased fraction) = ofParts negative biased fraction := by
  have word : ((if negative then 2 ^ 63 else 0) + biased * 2 ^ 52 + fraction).toUInt64.toBitVec.toNat =
      (if negative then 2 ^ 63 else 0) + biased * 2 ^ 52 + fraction := by
    rw [UInt64.toNat_toBitVec, Nat.toUInt64_eq, UInt64.toNat_ofNat']
    refine Nat.mod_eq_of_lt ?_
    split <;> omega
  rw [ofFields, partsOfBits, unpackBits]
  simp only [Nat.pow_eq, word]
  congr 1
  · cases negative <;> simp <;> omega
  · cases negative <;> simp <;> omega
  · cases negative <;> simp <;> omega

/-- What a double is, told by its parts. -/
def kind : UnpackedFloat → FloatKind
  | .notANumber => .nan
  | .infinity s => .infinite (s == .negative)
  | .zero s => .finite ⟨s == .negative, 0, -1074⟩
  | .finite s m e _ => .finite ⟨s == .negative, m, e⟩

@[simp] theorem signOfNegative (negative : Bool) : (signOf negative == Sign.negative) = negative := by
  cases negative <;> rfl

theorem partsBits (x : Float) : parts x =
    ofParts (x.toBits.toNat / 2 ^ 63 = 1) (x.toBits.toNat / 2 ^ 52 % 2 ^ 11) (x.toBits.toNat % 2 ^ 52) := unpackBits _

theorem kindMade (negative : Bool) (m : Nat) (e : Int) (zero : m = 0 → e = -1074) :
    kind (made (signOf negative) m e) = .finite ⟨negative, m, e⟩ := by
  unfold made
  split
  case isTrue none => simp [kind, none, zero none]
  case isFalse => simp [kind]

theorem kindParts (x : Float) : floatKind x = kind (parts x) := by
  rw [partsBits, floatKind]
  simp only [Nat.pow_eq, ofParts]
  split
  · split <;> simp [kind]
  · split
    · rw [kindMade _ _ _ fun _ => rfl]
    · rw [kindMade _ _ _ fun none => absurd none (by omega)]

/-- Whether the sign of a double is a minus. -/
def isMinus : UnpackedFloat → Bool
  | .notANumber => false
  | .infinity s | .zero s | .finite s _ _ _ => s == .negative

theorem minusMade (negative : Bool) (m : Nat) (e : Int) : isMinus (made (signOf negative) m e) = negative := by
  unfold made
  split <;> simp [isMinus]

theorem minusParts (x : Float) (number : parts x ≠ .notANumber) : isNegative x = isMinus (parts x) := by
  rw [partsBits, ofParts] at number ⊢
  rw [isNegative, Nat.pow_eq]
  split
  case isTrue special =>
    rw [if_pos special] at number
    split
    case isTrue => simp [isMinus]
    case isFalse some => exact absurd (if_neg some) number
  case isFalse =>
    split
    case isTrue => rw [minusMade]
    case isFalse => rw [minusMade]

/-- The mantissa of a double fills its bits, unless its exponent is the least. -/
theorem partsCases (x : Float) : parts x = .notANumber ∨ (∃ s, parts x = .infinity s) ∨ ∃ s m e, parts x = made s m e ∧
    m < 2 ^ 53 ∧ -1074 ≤ e ∧ e ≤ 971 ∧ (2 ^ 52 ≤ m ∨ e = -1074) := by
  rw [partsBits, ofParts]
  split
  case isTrue =>
    split
    case isTrue => exact .inr (.inl ⟨_, rfl⟩)
    case isFalse => exact .inl rfl
  case isFalse other =>
    split
    case isTrue => exact .inr (.inr ⟨_, _, _, rfl, by omega, by omega, by omega, .inr rfl⟩)
    case isFalse => exact .inr (.inr ⟨_, _, _, rfl, by omega, by omega, by omega, .inl (by omega)⟩)

theorem partsInfinity (negative : Bool) : parts (infinity negative) = .infinity (signOf negative) :=
  partsFields negative (by decide) (by decide)

theorem partsNaN : parts nan = .notANumber := partsFields false (by decide) (by decide)

theorem partsZero (negative : Bool) : parts (ofFields negative 0 0) = .zero (signOf negative) :=
  partsFields negative (by decide) (by decide)

/-- A double with a mantissa that fills its bits. -/
theorem partsNormal (negative : Bool) {m : Nat} {e : Int} (least : 2 ^ 52 ≤ m) (most : m < 2 ^ 53) (low : -1074 ≤ e)
    (high : e ≤ 971) : parts (ofFields negative (e + 1075).toNat (m - 2 ^ 52)) = made (signOf negative) m e := by
  rw [partsFields negative (by omega) (by omega), ofParts, if_neg (by omega), if_neg (by omega)]
  congr 1
  · omega
  · omega

/-! Operations on doubles -/

section Operations

variable {x y z : Float}

theorem packed {u : UnpackedFloat} (same : u = parts z) : Float.ofModel (Float.Model.pack u) = z := by
  subst same
  refine partsInjective ?_
  change UnpackedFloat.unpack .binary64 (UnpackedFloat.pack .binary64 (parts z)) = parts z
  rw [parts, Float.Model.unpack, UnpackedFloat.pack_unpack_of_valid z.toModel.valid]

theorem addParts (same : UnpackedFloat.add .binary64 (parts x) (parts y) = parts z) : x + y = z := packed same

theorem mulParts (same : UnpackedFloat.mul .binary64 (parts x) (parts y) = parts z) : x * y = z := packed same

theorem divParts (same : UnpackedFloat.div .binary64 (parts x) (parts y) = parts z) : x / y = z := packed same

theorem negParts (same : (parts x).neg = parts z) : -x = z := packed same

theorem negOfParts (negative : Bool) (biased fraction : Nat) :
    (ofParts negative biased fraction).neg = ofParts (!negative) biased fraction := by
  have made (m : Nat) (e : Int) : (made (signOf negative) m e).neg = made (signOf !negative) m e := by
    unfold Double.made
    split <;> cases negative <;> rfl
  unfold ofParts
  split
  case isTrue =>
    split
    case isTrue => cases negative <;> rfl
    case isFalse => rfl
  case isFalse => split <;> exact made ..

theorem partsNeg (x : Float) : parts (-x) = (parts x).neg := by
  have flipped : (parts x).neg = parts (ofFields (!decide (x.toBits.toNat / 2 ^ 63 = 1))
      (x.toBits.toNat / 2 ^ 52 % 2 ^ 11) (x.toBits.toNat % 2 ^ 52)) := by
    rw [partsBits, negOfParts, partsFields _ (Nat.mod_lt _ (by decide)) (Nat.mod_lt _ (by decide))]
  rw [negParts flipped, flipped]

theorem subOfNeg (u v : UnpackedFloat) : UnpackedFloat.sub .binary64 u v = UnpackedFloat.add .binary64 u v.neg := by
  cases u <;> cases v <;> try rfl
  case finite.finite s a c _ t b d _ =>
    simp only [UnpackedFloat.sub, UnpackedFloat.neg, UnpackedFloat.add]
    cases t <;> simp [Sign.apply, Int.sub_eq_add_neg]

/-- A difference is the sum with the opposite. -/
theorem subNeg (x y : Float) : x - y = x + -y := by
  change Float.ofModel (Float.Model.pack (UnpackedFloat.sub .binary64 (parts x) (parts y))) =
    Float.ofModel (Float.Model.pack (UnpackedFloat.add .binary64 (parts x) (parts (-y))))
  rw [partsNeg, subOfNeg]

end Operations

end Fragment.Double

/-! Rounding of fractions to doubles.
An operation on doubles computes a fraction with more bits than a double has, and the bits that are left over say to
which side it is rounded. That is the rounding of integers. -/
namespace Fragment.Double

open Float.Model (UnpackedFloat Format)
open Float.Model.UnpackedFloat (Sign ExtendedMantissa)

/-- A fraction as a mantissa with the bits that decide how it is rounded. -/
def extended (num den : Nat) : ExtendedMantissa :=
  ⟨num / den, den ≤ 2 * (num % den), num % den ≠ 0 ∧ 2 * (num % den) ≠ den⟩

/-- A rounded mantissa that may have one bit too many. -/
def rounded (s : Sign) (m : Nat) (e : Int) : UnpackedFloat :=
  if m = 2 ^ 53 then made s (2 ^ 52) (e + 1) else made s m e

section Extended

variable {num den : Nat}

theorem extendedStart (positive : 0 < den) :
    ExtendedMantissa.ofMantissaAndAccuracy (num / den) (UnpackedFloat.accuracyOfFraction (num % den) den) =
      extended num den := by
  have small := Nat.mod_lt num positive
  unfold UnpackedFloat.accuracyOfFraction extended
  split
  case isTrue none =>
    simp [ExtendedMantissa.ofMantissaAndAccuracy, none]
    omega
  case isFalse some =>
    rcases Nat.lt_trichotomy (2 * (num % den)) den with side | side | side
    · rw [Nat.compare_eq_lt.mpr side]
      simp [ExtendedMantissa.ofMantissaAndAccuracy, some]
      omega
    · rw [Nat.compare_eq_eq.mpr side]
      simp [ExtendedMantissa.ofMantissaAndAccuracy, side]
    · rw [Nat.compare_eq_gt.mpr side]
      simp [ExtendedMantissa.ofMantissaAndAccuracy, some]
      omega

theorem extendedShiftOne (positive : 0 < den) : (extended num den).shiftRightOne = extended num (den * 2) := by
  have small := Nat.mod_lt num positive
  have whole := Nat.div_add_mod num den
  have rest : num % (den * 2) = num % den + den * (num / den % 2) := Nat.mod_mul
  have parity : num / den % 2 = 0 ∨ num / den % 2 = 1 := by omega
  unfold ExtendedMantissa.shiftRightOne extended
  congr 1
  · exact Nat.div_div_eq_div_mul ..
  · rcases parity with even | odd
    · simp [rest, even]
      omega
    · simp [rest, odd]
      omega
  · rw [← Bool.decide_or, decide_eq_decide, rest]
    rcases parity with even | odd
    · rw [even]
      omega
    · rw [odd]
      omega

theorem extendedShift (positive : 0 < den) (t : Nat) : extended num den >>> t = extended num (den * 2 ^ t) := by
  induction t with
  | zero =>
    rw [Nat.pow_zero, Nat.mul_one]
    rfl
  | succ t ih =>
    change (extended num den >>> t).shiftRightOne = _
    rw [ih, extendedShiftOne (by positivity), Nat.mul_assoc, ← Nat.pow_succ]

theorem extendedRound (positive : 0 < den) : (extended num den).roundedMantissa = roundDiv num den := by
  unfold roundDiv
  rcases Nat.lt_trichotomy (2 * (num % den)) den with side | side | side
  · have bit : decide (den ≤ 2 * (num % den)) = false := decide_eq_false (by omega)
    rw [extended, bit, if_pos side]
    cases decide (num % den ≠ 0 ∧ 2 * (num % den) ≠ den) <;> rfl
  · have bit : decide (den ≤ 2 * (num % den)) = true := decide_eq_true (by omega)
    have sticky : decide (num % den ≠ 0 ∧ 2 * (num % den) ≠ den) = false := decide_eq_false (by omega)
    rw [extended, bit, sticky, if_neg (by omega), if_neg (by omega)]
    change num / den + num / den % 2 = _
    split <;> omega
  · have bit : decide (den ≤ 2 * (num % den)) = true := decide_eq_true (by omega)
    have sticky : decide (num % den ≠ 0 ∧ 2 * (num % den) ≠ den) = true := decide_eq_true (by omega)
    rw [extended, bit, sticky, if_neg (by omega), if_pos side]
    rfl

/-- Rounding depends on the fraction alone. -/
theorem roundDivSame {a b c d : Nat} (first : 0 < b) (second : 0 < d) (same : a * d = c * b) :
    roundDiv a b = roundDiv c d := by
  have quotient : a / b = c / d := by
    rw [← Nat.mul_div_mul_right a b second, same, Nat.mul_comm b d, Nat.mul_div_mul_right c d first]
  have rest : a % b * d = c % d * b := by
    rw [← Nat.mul_mod_mul_right, same, Nat.mul_comm b d, Nat.mul_mod_mul_right]
  have twice : 2 * (a % b) * d = 2 * (c % d) * b := by rw [Nat.mul_assoc, rest, ← Nat.mul_assoc]
  have below : 2 * (a % b) < b ↔ 2 * (c % d) < d := by
    rw [← Nat.mul_lt_mul_right second, twice, Nat.mul_comm b d, Nat.mul_lt_mul_right first]
  have above : b < 2 * (a % b) ↔ d < 2 * (c % d) := by
    rw [← Nat.mul_lt_mul_right second, twice, Nat.mul_comm b d, Nat.mul_lt_mul_right first]
  simp only [roundDiv, quotient, below, above]

theorem roundDivBounds {least most : Nat} (positive : 0 < den) (low : least * den ≤ num) (high : num ≤ most * den) :
    least ≤ roundDiv num den ∧ roundDiv num den ≤ most := by
  have small := Nat.mod_lt num positive
  have whole := Nat.div_add_mod num den
  have first : least ≤ num / den := (Nat.le_div_iff_mul_le positive).mpr low
  have last : num / den + (if num % den = 0 then 0 else 1) ≤ most := by
    split
    case isTrue => exact Nat.div_le_of_le_mul (by rw [Nat.mul_comm]; exact high)
    case isFalse some =>
      by_contra beyond
      have : num / den = most := Nat.le_antisymm (Nat.div_le_of_le_mul (by rw [Nat.mul_comm]; exact high)) (by omega)
      rw [this, Nat.mul_comm] at whole
      omega
  simp only [roundDiv]
  split <;> split at last <;> (try split) <;> (try split) <;> omega

theorem targetSize (m : Nat) (e : Int) :
    Format.binary64.targetExponent (Float.Model.totalExponent m e) = max (m.log2 + e - 52) (-1074) := by
  simp only [Format.targetExponent, Float.Model.totalExponent, Format.mantissaBits, Format.minExponent]
  omega

/-- What is left to do for a rounded mantissa. -/
theorem shiftRounded (s : Sign) {m : Nat} {e : Int} (least : 2 ^ 52 ≤ m) (most : m ≤ 2 ^ 53) (low : -1074 ≤ e) :
    made s (UnpackedFloat.shiftToTargetExponent .binary64 m e .exact).1.mantissa
      (UnpackedFloat.shiftToTargetExponent .binary64 m e .exact).2 = rounded s m e := by
  unfold UnpackedFloat.shiftToTargetExponent rounded
  rw [targetSize]
  split
  case isTrue full =>
    subst full
    have size : max (((2 ^ 53 : Nat).log2 : Int) + e - 52) (-1074) = e + 1 := by
      rw [Nat.log2_two_pow]
      omega
    have one : (e + 1 - e).toNat = 1 := by omega
    simp only [size, UnpackedFloat.shiftToExponent, one]
    rfl
  case isFalse fits =>
    have size : max ((m.log2 : Int) + e - 52) (-1074) = e := by
      rw [(Nat.log2_eq_iff (by omega)).mpr ⟨least, by omega⟩]
      omega
    simp only [size, UnpackedFloat.shiftToExponent, Int.sub_self]
    rw [show ((e + (Int.toNat 0 : Nat)) : Int) = e by simp]
    rfl

theorem fractionBounds {t : Nat} (positive : 0 < den) (size : (num / den).log2 = 52 + t) :
    2 ^ 52 ≤ roundDiv num (den * 2 ^ t) ∧ roundDiv num (den * 2 ^ t) ≤ 2 ^ 53 := by
  have some : num / den ≠ 0 := by
    intro none
    rw [none, Nat.log2_zero] at size
    omega
  have least : 2 ^ (52 + t) ≤ num / den := size ▸ Nat.log2_self_le some
  have most : num / den < 2 ^ (52 + t + 1) := size ▸ Nat.lt_log2_self
  refine roundDivBounds (by positivity) ?_ ?_
  · rw [Nat.mul_left_comm, ← Nat.pow_add, Nat.mul_comm]
    exact (Nat.le_div_iff_mul_le positive).mp least
  · rw [Nat.mul_left_comm, ← Nat.pow_add, Nat.mul_comm, Nat.add_right_comm 52 1 t]
    exact ((Nat.div_lt_iff_lt_mul positive).mp most).le

/-- A fraction that has enough bits is rounded like an integer. -/
theorem roundFraction (s : Sign) {e : Int} {t : Nat} (positive : 0 < den) (size : (num / den).log2 = 52 + t)
    (low : -1074 ≤ e + t) :
    UnpackedFloat.roundWithAccuracy .binary64 s (num / den) e (UnpackedFloat.accuracyOfFraction (num % den) den) =
      rounded s (roundDiv num (den * 2 ^ t)) (e + t) := by
  have shift : (Format.binary64.targetExponent (Float.Model.totalExponent (num / den) e) - e).toNat = t := by
    rw [targetSize, size]
    omega
  have bounds := fractionBounds positive size
  have start : UnpackedFloat.shiftToTargetExponent .binary64 (num / den) e
      (UnpackedFloat.accuracyOfFraction (num % den) den) = (extended num (den * 2 ^ t), e + t) := by
    simp only [UnpackedFloat.shiftToTargetExponent, UnpackedFloat.shiftToExponent, shift, extendedStart positive,
      extendedShift positive]
  rw [UnpackedFloat.roundWithAccuracy, start]
  simp only [extendedRound (show 0 < den * 2 ^ t by positivity)]
  exact shiftRounded s bounds.1 bounds.2 low

/-- A mantissa with enough bits of which the last are zero is kept. -/
theorem roundExact (s : Sign) {c t : Nat} {e : Int} (least : 2 ^ 52 ≤ c) (most : c < 2 ^ 53) (low : -1074 ≤ e + t) :
    UnpackedFloat.roundWithAccuracy .binary64 s (c * 2 ^ t) e .exact = made s c (e + t) := by
  have size : (c * 2 ^ t / 1).log2 = 52 + t := by
    rw [Nat.div_one, Nat.log2_eq_iff (by positivity), Nat.add_right_comm 52 t 1, Nat.pow_add, Nat.pow_add 2 (52 + 1)]
    exact ⟨Nat.mul_le_mul_right _ least, Nat.mul_lt_mul_of_pos_right most (by positivity)⟩
  have whole : roundDiv (c * 2 ^ t) (1 * 2 ^ t) = c := by
    have bounds : c ≤ roundDiv (c * 2 ^ t) (1 * 2 ^ t) ∧ roundDiv (c * 2 ^ t) (1 * 2 ^ t) ≤ c :=
      roundDivBounds (by positivity) (by rw [Nat.one_mul]) (by rw [Nat.one_mul])
    omega
  have result := roundFraction s (by decide) size low
  rw [whole, rounded, if_neg (by omega), Nat.div_one, Nat.mod_one] at result
  exact result

end Extended

end Fragment.Double
