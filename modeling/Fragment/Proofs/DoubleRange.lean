import Fragment.Proofs.WholeDoubles

/-! The range of doubles.
An integer has a nearest double unless it is nearer to infinity than to the largest double. Whatever first takes an
integer for a double is refused exactly beyond that. -/
namespace Fragment

namespace Double

/-- The exponent of half the step between the largest doubles. -/
@[irreducible] def halfStep : Nat := 970

/-- The least size of an integer that is rounded to infinity: half a step beyond the largest double. -/
def reach : Nat := (2 ^ 54 - 1) * 2 ^ halfStep

theorem belowReach {k : Nat} (small : k.log2 < 1023) : k < reach := by
  have size : k.log2 + 1 ≤ 53 + halfStep := by rw [halfStep]; omega
  have bound : k < 2 ^ (53 + halfStep) := Nat.lt_log2_self.trans_le (Nat.pow_le_pow_right (by decide) size)
  have positive := Nat.two_pow_pos halfStep
  rw [Nat.pow_add] at bound
  rw [reach]
  omega

theorem aboveReach {k : Nat} (some : k ≠ 0) (large : 1023 < k.log2) : reach ≤ k := by
  have size : 54 + halfStep ≤ k.log2 := by rw [halfStep]; omega
  have bound : 2 ^ (54 + halfStep) ≤ k := (Nat.pow_le_pow_right (by decide) size).trans (Nat.log2_self_le some)
  rw [Nat.pow_add] at bound
  rw [reach]
  omega

theorem roundDivUp {num half k : Nat} (positive : 0 < half) (odd : k % 2 = 1) :
    k < roundDiv num (2 * half) ↔ (2 * k + 1) * half ≤ num := by
  have whole := Nat.div_add_mod num (2 * half)
  have small : num % (2 * half) < 2 * half := Nat.mod_lt _ (by omega)
  have split : (2 * k + 1) * half = 2 * half * k + half := by ring
  simp only [roundDiv]
  generalize num / (2 * half) = q at whole ⊢
  generalize num % (2 * half) = r at whole small ⊢
  rcases Nat.lt_trichotomy q k with below | rfl | above
  · have room : 2 * half * (q + 1) ≤ 2 * half * k := Nat.mul_le_mul_left _ below
    rw [Nat.mul_add] at room
    refine iff_of_false ?_ (by omega)
    split <;> (try split) <;> (try split) <;> omega
  · have even : ¬ q % 2 = 0 := by omega
    simp only [even, if_false]
    split <;> (try split) <;> omega
  · have room : 2 * half * (k + 1) ≤ 2 * half * q := Nat.mul_le_mul_left _ above
    rw [Nat.mul_add] at room
    refine iff_of_true ?_ (by omega)
    split <;> (try split) <;> (try split) <;> omega

/-- The exponent to which an integer is rounded. -/
theorem scaleInteger {k : Nat} (some : k ≠ 0) : binaryScale k 1 = (k.log2 : Int) - 52 := by
  have one : Nat.log2 1 = 0 := by decide
  have least := Nat.log2_self_le some
  have shift : 52 + ((k.log2 : Int) - ((0 : Nat) : Int) - 52) = k.log2 := by omega
  simp only [binaryScale, one, shift, Nat.pow_eq, Int.toNat_natCast]
  rw [show (-(k.log2 : Int)).toNat = 0 by omega, if_pos (by simpa using least)]
  omega

theorem infinityInfinite (negative : Bool) : isInfinite (infinity negative) = true := by
  rw [isInfinite, kindParts, partsInfinity]
  rfl

theorem normalFinite (negative : Bool) {m : Nat} {e : Int} (least : 2 ^ 52 ≤ m) (most : m < 2 ^ 53) (low : -1074 ≤ e)
    (high : e ≤ 971) : isInfinite (ofFields negative (e + 1075).toNat (m - 2 ^ 52)) = false := by
  obtain ⟨b, found⟩ := kindFinite (signOf negative) m e
  rw [isInfinite, kindParts, partsNormal negative least most low high, found]

theorem integerBounds {k : Nat} (some : k ≠ 0) :
    2 ^ 52 ≤ roundDiv (k * 2 ^ (-((k.log2 : Int) - 52)).toNat) (1 * 2 ^ ((k.log2 : Int) - 52).toNat) ∧
      roundDiv (k * 2 ^ (-((k.log2 : Int) - 52)).toNat) (1 * 2 ^ ((k.log2 : Int) - 52).toNat) ≤ 2 ^ 53 := by
  have least := Nat.log2_self_le some
  have most := Nat.lt_log2_self (n := k)
  have first : 2 ^ 52 * (1 * 2 ^ ((k.log2 : Int) - 52).toNat) = 2 ^ k.log2 * 2 ^ (-((k.log2 : Int) - 52)).toNat := by
    rw [Nat.one_mul, ← Nat.pow_add, ← Nat.pow_add]
    congr 1
    omega
  have last : 2 ^ 53 * (1 * 2 ^ ((k.log2 : Int) - 52).toNat) =
      2 ^ (k.log2 + 1) * 2 ^ (-((k.log2 : Int) - 52)).toNat := by
    rw [Nat.one_mul, ← Nat.pow_add, ← Nat.pow_add]
    congr 1
    omega
  refine roundDivBounds (by positivity) ?_ ?_
  · rw [first]
    exact Nat.mul_le_mul_right _ least
  · rw [last]
    exact Nat.mul_le_mul_right _ most.le

/-- An integer with the largest exponent of a double is rounded up beyond it from `reach` on. -/
theorem roundsPast {k : Nat} (size : k.log2 = 1023) :
    roundDiv (k * 2 ^ (-((k.log2 : Int) - 52)).toNat) (1 * 2 ^ ((k.log2 : Int) - 52).toNat) = 2 ^ 53 ↔ reach ≤ k := by
  have some : k ≠ 0 := by
    rintro rfl
    simp at size
  have bounds := integerBounds some
  have up : (-((k.log2 : Int) - 52)).toNat = 0 := by omega
  have down : ((k.log2 : Int) - 52).toNat = halfStep + 1 := by rw [halfStep]; omega
  have twice : 2 ^ (halfStep + 1) = 2 * 2 ^ halfStep := Nat.pow_succ'
  rw [up, down, Nat.pow_zero, Nat.mul_one, Nat.one_mul, twice] at bounds ⊢
  have past := @roundDivUp k _ (2 ^ 53 - 1) (Nat.two_pow_pos halfStep) (by decide)
  rw [show 2 * (2 ^ 53 - 1) + 1 = 2 ^ 54 - 1 from rfl, ← reach] at past
  rw [← past]
  omega

theorem infiniteInteger (negative : Bool) {k : Nat} (some : k ≠ 0) :
    isInfinite (ofRatio negative k 1) = true ↔ reach ≤ k := by
  have bounds := integerBounds some
  unfold ofRatio
  simp only [some, decide_false, Bool.or_self, Bool.false_eq_true, if_false, scaleInteger some, Nat.pow_eq,
    one_ne_zero]
  have past := roundsPast (k := k)
  generalize roundDiv (k * 2 ^ (-((k.log2 : Int) - 52)).toNat) (1 * 2 ^ ((k.log2 : Int) - 52).toNat) = m at bounds past ⊢
  rcases Nat.lt_trichotomy k.log2 1023 with small | size | large
  · have inside := belowReach small
    refine iff_of_false ?_ (by omega)
    split
    case isTrue full =>
      simp only [Nat.lt_irrefl, if_false]
      rw [if_neg (by omega), normalFinite negative (by omega) (by omega) (by omega) (by omega)]
      decide
    case isFalse fits =>
      simp only
      rw [if_neg (by omega), if_neg (by omega), normalFinite negative bounds.1 (by omega) (by omega) (by omega)]
      decide
  · rw [← past size]
    split
    case isTrue full =>
      simp only [Nat.lt_irrefl, if_false]
      rw [if_pos (by omega)]
      exact iff_of_true (infinityInfinite negative) full
    case isFalse fits =>
      simp only
      rw [if_neg (by omega), if_neg (by omega), normalFinite negative bounds.1 (by omega) (by omega) (by omega)]
      exact iff_of_false (by decide) fits
  · refine iff_of_true ?_ (aboveReach some large)
    split
    case isTrue full =>
      simp only [Nat.lt_irrefl, if_false]
      rw [if_pos (by omega)]
      exact infinityInfinite negative
    case isFalse fits =>
      simp only
      rw [if_neg (by omega), if_pos (by omega)]
      exact infinityInfinite negative

/-- An integer has a nearest double below `reach`. -/
theorem ofIntWithin (n : Int) :
    ofInt? n = if n.natAbs < reach then some (ofRatio (n < 0) n.natAbs 1) else none := by
  by_cases none : n = 0
  · subst none
    rw [ofIntSafe (n := 0) (by decide), if_pos (belowReach (by decide))]
  have some : n.natAbs ≠ 0 := by omega
  have infinite := infiniteInteger (n < 0) some
  unfold ofInt?
  by_cases large : 1100 < n.natAbs.log2
  · have outside := aboveReach some (by omega)
    rw [if_pos large, if_neg (by omega)]
  · rw [if_neg large]
    by_cases fits : n.natAbs < reach
    · have finite : isInfinite (ofRatio (n < 0) n.natAbs 1) = false := by
        rw [Bool.eq_false_iff, ne_eq, infinite]
        omega
      simp only [finite, Bool.false_eq_true, if_false, fits, if_true]
    · simp only [infinite.mpr (by omega), if_true, fits, if_false]

end Double

namespace Number

/-- Whether a number has a nearest double. -/
def fits : Number → Bool
  | .int n => n.natAbs < Double.reach
  | .float _ => true

theorem toFloatInt (n : Int) : (Number.int n).toFloat =
    if n.natAbs < Double.reach then .ok (Double.ofRatio (n < 0) n.natAbs 1) else .error .overflow := by
  rw [toFloat, Double.ofIntWithin]
  by_cases inside : n.natAbs < Double.reach
  · simp only [inside, if_true]
  · simp only [inside, if_false]

theorem toFloatFits {n : Number} (fits : n.fits = true) : ∃ x, n.toFloat = .ok x := by
  cases n with
  | int n => exact ⟨_, by rw [toFloatInt, if_pos (by simpa [Number.fits] using fits)]⟩
  | float x => exact ⟨x, rfl⟩

theorem toFloatBeyond {n : Number} (beyond : n.fits = false) : n.toFloat = .error .overflow := by
  cases n with
  | int n => rw [toFloatInt, if_neg (by simpa [Number.fits] using beyond)]
  | float x => cases beyond

/-- The double of an integer is finite. -/
theorem convertedFinite {n : Int} {x : Float} (converted : (Number.int n).toFloat = .ok x) : Double.isInfinite x = false := by
  cases found : Double.ofInt? n with
  | none =>
    rw [toFloat, found] at converted
    cases converted
  | some y =>
    rw [toFloat, found] at converted
    cases converted
    unfold Double.ofInt? at found
    split at found
    · cases found
    · dsimp only at found
      split at found
      · cases found
      case isFalse finite => rwa [Option.some_inj.mp found, Bool.not_eq_true] at finite

theorem smallFits {n : Int} (small : n.natAbs.log2 < 1023) : (Number.int n).fits = true :=
  decide_eq_true (Double.belowReach small)

theorem largeBeyond {n : Int} (large : 1023 < n.natAbs.log2) : (Number.int n).fits = false := by
  have some : n.natAbs ≠ 0 := by
    intro none
    rw [none] at large
    exact absurd large (by decide)
  exact decide_eq_false (not_lt.mpr (Double.aboveReach some large))

end Number

end Fragment
