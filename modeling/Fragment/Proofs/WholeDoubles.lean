import Fragment.Proofs.Doubles

/-! Integers as doubles.
An integer below `2 ^ 53` is a double without rounding. Sums, differences and products of such doubles are those of
the integers as long as they stay below `2 ^ 53`, and their quotient is the double nearest to the fraction. -/
namespace Fragment.Double

open Float.Model (UnpackedFloat Format)
open Float.Model.UnpackedFloat (Sign)

/-! Fractions -/

/-- A positive integer with all bits that a mantissa has. -/
def filled (n : Nat) : Nat := n * 2 ^ (52 - n.log2)

section Fraction

variable {num den : Nat}

theorem filledBounds (positive : num ≠ 0) (small : num < 2 ^ 53) : 2 ^ 52 ≤ filled num ∧ filled num < 2 ^ 53 := by
  have size : num.log2 ≤ 52 := by
    have := (Nat.log2_lt positive).mpr small
    omega
  have least := Nat.log2_self_le positive
  have most := Nat.lt_log2_self (n := num)
  unfold filled
  constructor
  · calc 2 ^ 52 = 2 ^ num.log2 * 2 ^ (52 - num.log2) := by rw [← Nat.pow_add]; congr 1; omega
      _ ≤ num * 2 ^ (52 - num.log2) := Nat.mul_le_mul_right _ least
  · calc num * 2 ^ (52 - num.log2) < 2 ^ (num.log2 + 1) * 2 ^ (52 - num.log2) :=
        Nat.mul_lt_mul_of_pos_right most (by positivity)
      _ = 2 ^ 53 := by rw [← Nat.pow_add]; congr 1; omega

theorem sizeBound (positive : num ≠ 0) (small : num < 2 ^ 53) : num.log2 ≤ 52 := by
  have := (Nat.log2_lt positive).mpr small
  omega

/-- The scale at which a fraction has a full mantissa. -/
theorem scaleSize (numSize : num ≠ 0) (denSize : den ≠ 0) (small : num < 2 ^ 53) (few : den < 2 ^ 53) :
    binaryScale num den = (num.log2 : Int) - den.log2 - (if filled den ≤ filled num then 52 else 53) := by
  have first := sizeBound numSize small
  have second := sizeBound denSize few
  have fits : den * 2 ^ ((num.log2 : Int) - den.log2).toNat ≤ num * 2 ^ ((den.log2 : Int) - num.log2).toNat ↔
      filled den ≤ filled num := by
    unfold filled
    rcases Nat.le_total den.log2 num.log2 with order | order
    · have scale : 52 - den.log2 = ((num.log2 : Int) - den.log2).toNat + (52 - num.log2) := by omega
      rw [scale, Nat.pow_add, ← Nat.mul_assoc, Nat.mul_le_mul_right_iff (by positivity),
        show ((den.log2 : Int) - num.log2).toNat = 0 by omega, Nat.pow_zero, Nat.mul_one]
    · have scale : 52 - num.log2 = ((den.log2 : Int) - num.log2).toNat + (52 - den.log2) := by omega
      rw [scale, Nat.pow_add, ← Nat.mul_assoc, Nat.mul_le_mul_right_iff (by positivity),
        show ((num.log2 : Int) - den.log2).toNat = 0 by omega, Nat.pow_zero, Nat.mul_one]
  have up : 52 + ((num.log2 : Int) - den.log2 - 52) = (num.log2 : Int) - den.log2 := by omega
  have down : -((num.log2 : Int) - den.log2) = (den.log2 : Int) - num.log2 := by omega
  simp only [binaryScale, Nat.pow_eq, up, down, fits, decide_eq_true_eq]
  split <;> omega

theorem sizeScaled {n : Nat} (positive : n ≠ 0) (j : Nat) : (n * 2 ^ j).log2 = n.log2 + j := by
  rw [Nat.log2_eq_iff (by positivity), Nat.add_right_comm, Nat.pow_add, Nat.pow_add 2 (n.log2 + 1)]
  exact ⟨Nat.mul_le_mul_right _ (Nat.log2_self_le positive),
    Nat.mul_lt_mul_of_pos_right Nat.lt_log2_self (by positivity)⟩

/-- A factor of both sides of a fraction changes nothing. -/
theorem ofRatioScaled (negative : Bool) (numSize : num ≠ 0) (denSize : den ≠ 0) (j : Nat) :
    ofRatio negative (num * 2 ^ j) (den * 2 ^ j) = ofRatio negative num den := by
  have positive : 0 < 2 ^ j := by positivity
  have scale : binaryScale (num * 2 ^ j) (den * 2 ^ j) = binaryScale num den := by
    have guess : ((num * 2 ^ j).log2 : Int) - (den * 2 ^ j).log2 - 52 = (num.log2 : Int) - den.log2 - 52 := by
      rw [sizeScaled numSize, sizeScaled denSize]
      omega
    simp only [binaryScale, guess, Nat.mul_right_comm _ (2 ^ j), Nat.mul_le_mul_right_iff positive]
  have same (e : Int) : roundDiv (num * 2 ^ j * Nat.pow 2 (-e).toNat) (den * 2 ^ j * Nat.pow 2 e.toNat) =
      roundDiv (num * Nat.pow 2 (-e).toNat) (den * Nat.pow 2 e.toNat) := by
    simp only [Nat.pow_eq]
    refine roundDivSame (by positivity) (by positivity) ?_
    ring
  have numScaled : num * 2 ^ j ≠ 0 := by positivity
  have denScaled : den * 2 ^ j ≠ 0 := by positivity
  simp only [ofRatio, scale, same, numSize, denSize, numScaled, denScaled]

theorem partsRatio (negative : Bool) {e : Int} (numSize : num ≠ 0) (denSize : den ≠ 0) (scale : binaryScale num den = e)
    (low : -1074 ≤ e) (high : e < 971)
    (least : 2 ^ 52 ≤ roundDiv (num * 2 ^ (-e).toNat) (den * 2 ^ e.toNat))
    (most : roundDiv (num * 2 ^ (-e).toNat) (den * 2 ^ e.toNat) ≤ 2 ^ 53) :
    parts (ofRatio negative num den) =
      rounded (signOf negative) (roundDiv (num * 2 ^ (-e).toNat) (den * 2 ^ e.toNat)) e := by
  unfold ofRatio rounded
  simp only [numSize, denSize, decide_false, Bool.or_self, Bool.false_eq_true, if_false, scale, Nat.pow_eq]
  generalize roundDiv (num * 2 ^ (-e).toNat) (den * 2 ^ e.toNat) = m at least most ⊢
  split
  case isTrue full =>
    simp only [Nat.lt_irrefl, if_false]
    rw [if_neg (by omega), partsNormal negative (by omega) (by omega) (by omega) (by omega)]
  case isFalse fits =>
    simp only
    rw [if_neg (by omega), if_neg (by omega), partsNormal negative least (by omega) low (by omega)]

end Fraction

/-! Integers -/

/-- An integer that is a double, as are its neighbours. -/
def isSafe (n : Int) : Bool := n.natAbs < 2 ^ 53

/-- A double that is an integer. Zero may have a minus. -/
def IsWhole (x : Float) (n : Int) : Prop :=
  ∃ negative, x = ofRatio negative n.natAbs 1 ∧ (signOf negative).apply n.natAbs = n

theorem partsWhole (negative : Bool) {k : Nat} (small : k < 2 ^ 53) :
    parts (ofRatio negative k 1) = made (signOf negative) (filled k) (k.log2 - 52) := by
  by_cases none : k = 0
  · subst none
    exact partsZero negative
  have size := sizeBound none small
  have bounds := filledBounds none small
  have scale : binaryScale k 1 = (k.log2 : Int) - 52 := by
    rw [scaleSize none (by decide) small (by decide), if_pos (by exact bounds.1), show Nat.log2 1 = 0 by decide]
    simp
  have whole : roundDiv (k * 2 ^ (-((k.log2 : Int) - 52)).toNat) (1 * 2 ^ ((k.log2 : Int) - 52).toNat) = filled k := by
    have up : (-((k.log2 : Int) - 52)).toNat = 52 - k.log2 := by omega
    have down : ((k.log2 : Int) - 52).toNat = 0 := by omega
    rw [up, down, ← filled]
    simp [roundDiv, Nat.mod_one]
  rw [partsRatio negative none (by decide) scale (by omega) (by omega) (whole ▸ bounds.1) (whole ▸ bounds.2.le),
    whole, rounded, if_neg (by omega)]

theorem kindFinite (s : Sign) (m : Nat) (e : Int) : ∃ b, kind (made s m e) = .finite b := by
  unfold made
  split
  · exact ⟨_, rfl⟩
  · exact ⟨_, rfl⟩

/-- The sign of an integer. -/
theorem signApply (negative : Bool) (k : Nat) : (signOf negative).apply k = if negative then -(k : Int) else k := by
  cases negative <;> rfl

theorem madeFilled (s : Sign) {k : Nat} (positive : k ≠ 0) (e : Int) : made s (filled k) e =
    .finite s (filled k) e (by unfold filled; positivity) := by
  unfold made
  rw [dif_neg (by unfold filled; positivity)]

theorem ofIntSafe {n : Int} (safe : isSafe n = true) : ofInt? n = some (ofRatio (n < 0) n.natAbs 1) := by
  have small : n.natAbs < 2 ^ 53 := by simpa [isSafe] using safe
  have size : ¬ 1100 < n.natAbs.log2 := by
    by_cases none : n.natAbs = 0
    · simp [none]
    · have := sizeBound none small
      omega
  have finite : isInfinite (ofRatio (n < 0) n.natAbs 1) = false := by
    obtain ⟨b, found⟩ := kindFinite (signOf (n < 0)) (filled n.natAbs) (n.natAbs.log2 - 52)
    rw [isInfinite, kindParts, partsWhole _ small, found]
  simp only [ofInt?, size, if_false, finite, Bool.false_eq_true]

theorem ratioWhole (n : Int) : IsWhole (ofRatio (n < 0) n.natAbs 1) n := by
  refine ⟨n < 0, rfl, ?_⟩
  rw [signApply]
  by_cases minus : n < 0
  · rw [if_pos (decide_eq_true minus)]
    omega
  · rw [if_neg (by simpa using minus)]
    omega

section Whole

variable {x y : Float} {n m : Int}

/-- An integer other than zero is one double. -/
theorem wholeUnique (first : IsWhole x n) (second : IsWhole y n) (some : n ≠ 0) : x = y := by
  obtain ⟨s, rfl, same⟩ := first
  obtain ⟨t, rfl, other⟩ := second
  rw [signApply] at same other
  have alike : s = t := by
    cases s <;> cases t <;> simp only [if_true, Bool.false_eq_true, if_false] at same other <;> first | rfl | omega
  rw [alike]

theorem negWhole (safe : isSafe n = true) (whole : IsWhole x n) : IsWhole (-x) (-n) := by
  have small : n.natAbs < 2 ^ 53 := by simpa [isSafe] using safe
  obtain ⟨s, rfl, same⟩ := whole
  refine ⟨!s, negParts ?_, ?_⟩
  · rw [Int.natAbs_neg, partsWhole s small, partsWhole (!s) small]
    unfold made
    split <;> cases s <;> rfl
  · rw [signApply] at same ⊢
    rw [Int.natAbs_neg]
    cases s <;> simp only [Bool.not_true, Bool.not_false, if_true, Bool.false_eq_true, if_false] at same ⊢ <;> omega

/-- An integer with some zero bits behind the point is rounded to its double. -/
theorem roundWhole (s : Sign) {k : Nat} (positive : k ≠ 0) (small : k < 2 ^ 53) (j : Nat) :
    UnpackedFloat.round .binary64 s (k * 2 ^ j) (-j) = made s (filled k) (k.log2 - 52) := by
  have size := sizeBound positive small
  have bounds := filledBounds positive small
  have target : Format.binary64.targetExponent (Float.Model.totalExponent (k * 2 ^ j) (-j)) = (k.log2 : Int) - 52 := by
    rw [targetSize, sizeScaled positive]
    omega
  simp only [UnpackedFloat.round, target, UnpackedFloat.decreaseExponent, Nat.shiftLeft_eq]
  generalize bits : (-(j : Int) - ((k.log2 : Int) - 52)).toNat = d
  have mantissa : k * 2 ^ j * 2 ^ d = filled k * 2 ^ (j + d - (52 - k.log2)) := by
    rw [filled, Nat.mul_assoc, Nat.mul_assoc, ← Nat.pow_add, ← Nat.pow_add]
    congr 2
    omega
  rw [mantissa, roundExact s bounds.1 bounds.2 (by omega)]
  congr 1
  omega

theorem normalizeWhole (safe : isSafe n = true) (j : Nat) : ∃ negative, (signOf negative).apply n.natAbs = n ∧
    UnpackedFloat.normalize .binary64 (n * 2 ^ j) (-j) .positive = parts (ofRatio negative n.natAbs 1) := by
  have small : n.natAbs < 2 ^ 53 := by simpa [isSafe] using safe
  have positive : (0 : Int) < 2 ^ j := by positivity
  rcases Int.lt_trichotomy n 0 with minus | rfl | plus
  · have size : -(n * 2 ^ j) = ((n.natAbs * 2 ^ j : Nat) : Int) := by
      rw [← Int.neg_mul, show -n = (n.natAbs : Int) by omega, Nat.cast_mul, Nat.cast_pow]
      rfl
    refine ⟨true, by rw [signApply, if_pos rfl]; omega, ?_⟩
    rw [UnpackedFloat.normalize, Int.compare_eq_lt.mpr (Int.mul_neg_of_neg_of_pos minus positive)]
    simp only [size, Int.toNat_natCast]
    rw [roundWhole _ (by omega) small j, partsWhole _ small]
    rfl
  · refine ⟨false, rfl, ?_⟩
    rw [UnpackedFloat.normalize, Int.zero_mul]
    exact (partsZero false).symm
  · have size : n * 2 ^ j = ((n.natAbs * 2 ^ j : Nat) : Int) := by
      rw [Nat.cast_mul, Nat.cast_pow, show (n.natAbs : Int) = n by omega]
      rfl
    refine ⟨false, by rw [signApply, if_neg (by decide)]; omega, ?_⟩
    rw [UnpackedFloat.normalize, Int.compare_eq_gt.mpr (Int.mul_pos plus positive)]
    simp only [size, Int.toNat_natCast]
    rw [roundWhole _ (by omega) small j, partsWhole _ small]
    rfl

/-- What a mantissa is at a smaller exponent. -/
theorem alignedWhole {k j : Nat} (positive : k ≠ 0) (small : k < 2 ^ 53) (low : 52 - k.log2 ≤ j) :
    (UnpackedFloat.decreaseExponent (filled k) (k.log2 - 52) (-j)).1 = k * 2 ^ j := by
  have size := sizeBound positive small
  simp only [UnpackedFloat.decreaseExponent, Nat.shiftLeft_eq, filled]
  rw [Nat.mul_assoc, ← Nat.pow_add]
  congr 2
  omega

theorem applyScaled (negative : Bool) {k : Nat} (same : (signOf negative).apply k = n) (j : Nat) :
    (signOf negative).apply ((k * 2 ^ j : Nat) : Int) = n * 2 ^ j := by
  rw [← same, signApply, signApply]
  push_cast
  split
  · rw [Int.neg_mul]
  · rfl

/-! Zeros -/

theorem zeroWhole {s : Sign} (zero : parts x = .zero s) : IsWhole x 0 := by
  refine ⟨s == .negative, partsInjective ?_, ?_⟩
  · rw [zero]
    cases s
    · exact (partsZero true).symm
    · exact (partsZero false).symm
  · cases s <;> rfl

theorem zeroParts (whole : IsWhole x 0) : ∃ s, parts x = .zero s := by
  obtain ⟨negative, rfl, _⟩ := whole
  exact ⟨signOf negative, partsZero negative⟩

theorem wholeParts (whole : IsWhole x n) (safe : isSafe n = true) (some : n ≠ 0) :
    ∃ s m e h, parts x = .finite s m e h := by
  have small : n.natAbs < 2 ^ 53 := by simpa [isSafe] using safe
  obtain ⟨negative, rfl, _⟩ := whole
  rw [partsWhole negative small, madeFilled _ (by omega)]
  exact ⟨_, _, _, _, rfl⟩

theorem addZeros (s t : Sign) : ∃ r, UnpackedFloat.add .binary64 (.zero s) (.zero t) = .zero r := by
  cases s <;> cases t <;> exact ⟨_, rfl⟩

theorem zeroOf {u : UnpackedFloat} {s : Sign} (result : Float.ofModel (Float.Model.pack u) = x) (zero : u = .zero s) :
    IsWhole x 0 := by
  have same : Float.ofModel (Float.Model.pack u) = ofFields (s == .negative) 0 0 := by
    refine packed ?_
    rw [zero, partsZero]
    cases s <;> rfl
  rw [← result, same]
  refine zeroWhole (partsZero _)

theorem addWhole (first : IsWhole x n) (second : IsWhole y m) (left : isSafe n = true) (right : isSafe m = true)
    (total : isSafe (n + m) = true) : IsWhole (x + y) (n + m) := by
  have smallLeft : n.natAbs < 2 ^ 53 := by simpa [isSafe] using left
  have smallRight : m.natAbs < 2 ^ 53 := by simpa [isSafe] using right
  by_cases noneLeft : n = 0
  · subst noneLeft
    obtain ⟨s, zero⟩ := zeroParts first
    rw [Int.zero_add]
    by_cases noneRight : m = 0
    · subst noneRight
      obtain ⟨t, other⟩ := zeroParts second
      obtain ⟨r, sum⟩ := addZeros s t
      exact zeroOf rfl (show UnpackedFloat.add .binary64 (parts x) (parts y) = _ by rw [zero, other, sum])
    · obtain ⟨t, k, e, h, found⟩ := wholeParts second right noneRight
      rw [addParts (show UnpackedFloat.add .binary64 (parts x) (parts y) = parts y by rw [zero, found]; rfl)]
      exact second
  by_cases noneRight : m = 0
  · subst noneRight
    obtain ⟨t, zero⟩ := zeroParts second
    obtain ⟨s, k, e, h, found⟩ := wholeParts first left noneLeft
    rw [Int.add_zero,
      addParts (show UnpackedFloat.add .binary64 (parts x) (parts y) = parts x by rw [zero, found]; rfl)]
    exact first
  obtain ⟨s, rfl, same⟩ := first
  obtain ⟨t, rfl, other⟩ := second
  obtain ⟨negative, sign, result⟩ := normalizeWhole total (52 - min n.natAbs.log2 m.natAbs.log2)
  refine ⟨negative, addParts ?_, sign⟩
  have sizeLeft := sizeBound (by omega) smallLeft
  have sizeRight := sizeBound (by omega) smallRight
  have least : min ((n.natAbs.log2 : Int) - 52) ((m.natAbs.log2 : Int) - 52) =
      -((52 - min n.natAbs.log2 m.natAbs.log2 : Nat) : Int) := by omega
  rw [partsWhole s smallLeft, partsWhole t smallRight, madeFilled _ (by omega), madeFilled _ (by omega), ← result]
  simp only [UnpackedFloat.add, least]
  rw [alignedWhole (by omega) smallLeft (by omega), alignedWhole (by omega) smallRight (by omega), applyScaled s same,
    applyScaled t other, ← Int.add_mul]

theorem subWhole (first : IsWhole x n) (second : IsWhole y m) (left : isSafe n = true) (right : isSafe m = true)
    (total : isSafe (n - m) = true) : IsWhole (x - y) (n - m) := by
  have opposite : isSafe (-m) = true := by
    rw [isSafe, Int.natAbs_neg]
    exact right
  rw [subNeg, Int.sub_eq_add_neg]
  exact addWhole first (negWhole right second) left opposite (Int.sub_eq_add_neg ▸ total)

theorem mulZeros {u v : UnpackedFloat} (first : (∃ s, u = .zero s) ∨ ∃ s m e h, u = .finite s m e h)
    (second : (∃ s, v = .zero s) ∨ ∃ s m e h, v = .finite s m e h) (zero : (∃ s, u = .zero s) ∨ ∃ s, v = .zero s) :
    ∃ r, UnpackedFloat.mul .binary64 u v = .zero r := by
  obtain ⟨s, rfl⟩ | ⟨s, k, e, h, rfl⟩ := first
  · obtain ⟨t, rfl⟩ | ⟨t, l, f, h, rfl⟩ := second <;> exact ⟨_, rfl⟩
  · obtain ⟨t, rfl⟩ | ⟨t, l, f, h, rfl⟩ := second
    · exact ⟨_, rfl⟩
    · simp at zero

theorem wholeCases (whole : IsWhole x n) (safe : isSafe n = true) :
    (∃ s, parts x = .zero s) ∨ ∃ s m e h, parts x = .finite s m e h := by
  by_cases none : n = 0
  · subst none
    exact .inl (zeroParts whole)
  · exact .inr (wholeParts whole safe none)

theorem signMul (s t : Bool) : signOf s * signOf t = signOf (s != t) := by
  cases s <;> cases t <;> rfl

theorem signDiv (s t : Bool) : signOf s / signOf t = signOf (s != t) := by
  cases s <;> cases t <;> rfl

theorem sizeProduct {k l : Nat} (first : k ≠ 0) (second : l ≠ 0) : k.log2 + l.log2 ≤ (k * l).log2 := by
  rw [Nat.le_log2 (by positivity), Nat.pow_add]
  exact Nat.mul_le_mul (Nat.log2_self_le first) (Nat.log2_self_le second)

theorem mulWhole (first : IsWhole x n) (second : IsWhole y m) (left : isSafe n = true) (right : isSafe m = true)
    (total : isSafe (n * m) = true) : IsWhole (x * y) (n * m) := by
  have smallLeft : n.natAbs < 2 ^ 53 := by simpa [isSafe] using left
  have smallRight : m.natAbs < 2 ^ 53 := by simpa [isSafe] using right
  have small : n.natAbs * m.natAbs < 2 ^ 53 := by simpa [isSafe, Int.natAbs_mul] using total
  by_cases none : n = 0 ∨ m = 0
  · have zero : (∃ s, parts x = .zero s) ∨ ∃ s, parts y = .zero s := by
      rcases none with rfl | rfl
      · exact .inl (zeroParts first)
      · exact .inr (zeroParts second)
    obtain ⟨r, product⟩ := mulZeros (wholeCases first left) (wholeCases second right) zero
    rw [Int.mul_eq_zero.mpr none]
    exact zeroOf rfl product
  obtain ⟨s, rfl, same⟩ := first
  obtain ⟨t, rfl, other⟩ := second
  have some : n.natAbs ≠ 0 ∧ m.natAbs ≠ 0 := by omega
  have product : n.natAbs * m.natAbs ≠ 0 := Nat.mul_ne_zero some.1 some.2
  refine ⟨s != t, mulParts ?_, ?_⟩
  · have sizeLeft := sizeBound some.1 smallLeft
    have sizeRight := sizeBound some.2 smallRight
    have size := sizeBound product small
    have least := sizeProduct some.1 some.2
    have bounds := filledBounds product small
    rw [Int.natAbs_mul, partsWhole s smallLeft, partsWhole t smallRight, partsWhole _ small, madeFilled _ some.1,
      madeFilled _ some.2]
    simp only [UnpackedFloat.mul, signMul]
    generalize lower : n.natAbs.log2 + m.natAbs.log2 = sum at least
    have mantissa : filled n.natAbs * filled m.natAbs =
        filled (n.natAbs * m.natAbs) * 2 ^ (52 + (n.natAbs * m.natAbs).log2 - sum) := by
      unfold filled
      rw [Nat.mul_mul_mul_comm, ← Nat.pow_add, Nat.mul_assoc _ (2 ^ _), ← Nat.pow_add]
      congr 2
      omega
    rw [mantissa, roundExact _ bounds.1 bounds.2 (by omega)]
    congr 1
    omega
  · rw [← same, ← other, signApply, signApply, signApply, Int.natAbs_mul]
    push_cast
    cases s <;> cases t <;> simp

/-! Quotients -/

section Quotient

variable {a b : Nat}

theorem ratioZero (negative : Bool) (den : Nat) : ofRatio negative 0 den = ofFields negative 0 0 := rfl

theorem divRatio (s t : Bool) (numSize : a ≠ 0) (denSize : b ≠ 0) (small : a < 2 ^ 53) (few : b < 2 ^ 53) :
    UnpackedFloat.div .binary64 (parts (ofRatio s a 1)) (parts (ofRatio t b 1)) = parts (ofRatio (s != t) a b) := by
  have sizeLeft := sizeBound numSize small
  have sizeRight := sizeBound denSize few
  have boundsLeft := filledBounds numSize small
  have boundsRight := filledBounds denSize few
  have positive : 0 < filled b := by omega
  obtain ⟨d, one, size⟩ : ∃ d : Nat, (a.log2 : Int) - b.log2 - (if filled b ≤ filled a then 52 else 53) =
      (a.log2 : Int) - b.log2 - 53 + d ∧ (filled a * 2 ^ 53 / filled b).log2 = 52 + d := by
    by_cases order : filled b ≤ filled a
    · refine ⟨1, by rw [if_pos order]; omega, (Nat.log2_eq_iff ?_).mpr ⟨?_, ?_⟩⟩
      · exact (Nat.div_pos (by omega) positive).ne'
      · exact (Nat.le_div_iff_mul_le positive).mpr (by omega)
      · exact (Nat.div_lt_iff_lt_mul positive).mpr (by omega)
    · refine ⟨0, by rw [if_neg order]; omega, (Nat.log2_eq_iff ?_).mpr ⟨?_, ?_⟩⟩
      · exact (Nat.div_pos (by omega) positive).ne'
      · exact (Nat.le_div_iff_mul_le positive).mpr (by omega)
      · exact (Nat.div_lt_iff_lt_mul positive).mpr (by omega)
  have scale := (scaleSize numSize denSize small few).trans one
  generalize exponent : (a.log2 : Int) - b.log2 - 53 + d = e at scale
  have room : d ≤ 1 := by
    split at one <;> omega
  have fraction : roundDiv (a * 2 ^ (-e).toNat) (b * 2 ^ e.toNat) =
      roundDiv (filled a * 2 ^ 53) (filled b * 2 ^ d) := by
    refine roundDivSame (by positivity) (by positivity) ?_
    unfold filled
    have powers : 2 ^ (-e).toNat * 2 ^ (52 - b.log2) * 2 ^ d = 2 ^ (52 - a.log2) * 2 ^ 53 * 2 ^ e.toNat := by
      rw [← Nat.pow_add, ← Nat.pow_add, ← Nat.pow_add, ← Nat.pow_add]
      congr 1
      omega
    calc a * 2 ^ (-e).toNat * (b * 2 ^ (52 - b.log2) * 2 ^ d) =
        a * b * (2 ^ (-e).toNat * 2 ^ (52 - b.log2) * 2 ^ d) := by ring
      _ = a * b * (2 ^ (52 - a.log2) * 2 ^ 53 * 2 ^ e.toNat) := by rw [powers]
      _ = a * 2 ^ (52 - a.log2) * 2 ^ 53 * (b * 2 ^ e.toNat) := by ring
  have bounds := fractionBounds positive size
  rw [partsWhole s small, partsWhole t few, madeFilled _ numSize, madeFilled _ denSize,
    partsRatio _ numSize denSize scale (by omega) (by omega) (fraction ▸ bounds.1) (fraction ▸ bounds.2), fraction]
  have target : min ((a.log2 : Int) - 52 - (b.log2 - 52)) (Format.binary64.targetExponent
      (Float.Model.totalExponent (filled a) (a.log2 - 52) - Float.Model.totalExponent (filled b) (b.log2 - 52))) =
      (a.log2 : Int) - b.log2 - 53 := by
    have sizeA : (filled a).log2 = 52 := (Nat.log2_eq_iff (by omega)).mpr ⟨boundsLeft.1, boundsLeft.2⟩
    have sizeB : (filled b).log2 = 52 := (Nat.log2_eq_iff (by omega)).mpr ⟨boundsRight.1, boundsRight.2⟩
    simp only [Format.targetExponent, Float.Model.totalExponent, Format.mantissaBits, Format.minExponent, sizeA, sizeB]
    omega
  have shift : ((a.log2 : Int) - 52 - (b.log2 - 52) - ((a.log2 : Int) - b.log2 - 53)).toNat = 53 := by omega
  simp only [UnpackedFloat.div, UnpackedFloat.divCore, target, shift, Nat.shiftLeft_eq, signDiv]
  rw [roundFraction _ positive size (by omega), exponent]

/-- A quotient is the double nearest to the fraction. -/
theorem divWhole (s t : Bool) (denSize : b ≠ 0) (small : a < 2 ^ 53) (few : b < 2 ^ 53) :
    ofRatio s a 1 / ofRatio t b 1 = ofRatio (s != t) a b := by
  refine divParts ?_
  by_cases none : a = 0
  · subst none
    rw [ratioZero, ratioZero, partsZero, partsZero, partsWhole t few, madeFilled _ denSize]
    simp only [UnpackedFloat.div, signDiv]
  · exact divRatio s t none denSize small few

theorem roundFinite (s : Sign) (m : Nat) (e : Int) (accuracy : UnpackedFloat.Accuracy) :
    ∃ b, kind (UnpackedFloat.roundWithAccuracy .binary64 s m e accuracy) = .finite b := by
  unfold UnpackedFloat.roundWithAccuracy
  dsimp only
  split
  · exact ⟨_, rfl⟩
  · exact ⟨_, rfl⟩

theorem ratioFinite (negative : Bool) (denSize : b ≠ 0) (small : a < 2 ^ 53) (few : b < 2 ^ 53) :
    isInfinite (ofRatio negative a b) = false := by
  rw [isInfinite, kindParts]
  by_cases none : a = 0
  · subst none
    rw [ratioZero, partsZero, kind]
  · have quotient := divRatio negative false none denSize small few
    rw [Bool.bne_false] at quotient
    rw [← quotient, partsWhole negative small, partsWhole false few, madeFilled _ none, madeFilled _ denSize]
    obtain ⟨b, found⟩ := roundFinite (signOf negative / signOf false)
      (UnpackedFloat.divCore .binary64 (filled a) (a.log2 - 52) (filled b) (b.log2 - 52)).1 _ _
    simp only [UnpackedFloat.div]
    rw [found]

end Quotient

/-! Remainders -/

theorem kindZero {s : Sign} (zero : parts x = .zero s) : floatKind x = .finite ⟨s == .negative, 0, -1074⟩ := by
  rw [kindParts, zero, kind]

theorem kindWhole (negative : Bool) {k : Nat} (some : k ≠ 0) (small : k < 2 ^ 53) :
    floatKind (ofRatio negative k 1) = .finite ⟨negative, filled k, k.log2 - 52⟩ := by
  have bounds := filledBounds some small
  rw [kindParts, partsWhole negative small, kindMade _ _ _ fun none => absurd none (by omega)]

theorem kindInteger (whole : IsWhole x n) (safe : isSafe n = true) : ∃ b : Binary,
    floatKind x = .finite b ∧ b.isInteger = true ∧ b.truncate = n ∧ b.compareInt n = .eq := by
  have small : n.natAbs < 2 ^ 53 := by simpa [isSafe] using safe
  by_cases none : n = 0
  · subst none
    obtain ⟨s, zero⟩ := zeroParts whole
    refine ⟨_, kindZero zero, ?_, ?_, ?_⟩
    · simp only [Binary.isInteger, Nat.zero_mul, Nat.zero_mod, decide_true]
    · simp only [Binary.truncate, Nat.zero_mul, Nat.zero_div]
      split <;> rfl
    · simp only [Binary.compareInt, Int.zero_mul]
      cases s <;> rfl
  · obtain ⟨negative, rfl, same⟩ := whole
    have size := sizeBound (show n.natAbs ≠ 0 by omega) small
    have least : (-((n.natAbs.log2 : Int) - 52)).toNat = 52 - n.natAbs.log2 := by omega
    have most : ((n.natAbs.log2 : Int) - 52).toNat = 0 := by omega
    have positive : 0 < 2 ^ (52 - n.natAbs.log2) := by positivity
    refine ⟨_, kindWhole negative (show n.natAbs ≠ 0 by omega) small, ?_, ?_, ?_⟩
    · simp only [Binary.isInteger, least, most, filled, Nat.pow_eq, Nat.pow_zero, Nat.mul_one, Nat.mul_mod_left,
        decide_true]
    · simp only [Binary.truncate, least, most, filled, Nat.pow_eq, Nat.pow_zero, Nat.mul_one,
        Nat.mul_div_cancel _ positive]
      rw [← signApply, same]
    · have scaled := applyScaled negative same (52 - n.natAbs.log2)
      rw [signApply, ← filled] at scaled
      refine Int.compare_eq_eq.mpr ?_
      simp only [least, most, Nat.pow_eq]
      push_cast
      rw [Int.mul_one, scaled]

/-- A mantissa that is an integer below `2 ^ 53` is the one of that integer. -/
theorem filledUnique {k m : Nat} {e : Int} (some : k ≠ 0) (small : k < 2 ^ 53)
    (same : k * 2 ^ (-e).toNat = m * 2 ^ e.toNat) (most : m < 2 ^ 53) (full : 2 ^ 52 ≤ m ∨ e = -1074) :
    m = filled k ∧ e = k.log2 - 52 := by
  have size := sizeBound some small
  rcases Int.lt_or_le e 0 with minus | plus
  · rw [show e.toNat = 0 by omega, Nat.pow_zero, Nat.mul_one] at same
    have least : 2 ^ 52 ≤ m := by
      rcases full with least | bottom
      · exact least
      · calc 2 ^ 52 ≤ 2 ^ (-e).toNat := Nat.pow_le_pow_right (by decide) (by omega)
          _ ≤ k * 2 ^ (-e).toNat := Nat.le_mul_of_pos_left _ (by omega)
          _ = m := same
    have bits : m.log2 = 52 := (Nat.log2_eq_iff (by omega)).mpr ⟨least, most⟩
    rw [← same, sizeScaled some] at bits
    refine ⟨?_, by omega⟩
    rw [← same, filled]
    congr 2
    omega
  · rw [show (-e).toNat = 0 by omega, Nat.pow_zero, Nat.mul_one] at same
    have least : 2 ^ 52 ≤ m := by omega
    have one : e.toNat = 0 := by
      by_contra more
      have twice : 2 ^ 1 ≤ 2 ^ e.toNat := Nat.pow_le_pow_right (by decide) (by omega)
      have := Nat.mul_le_mul least twice
      omega
    rw [one, Nat.pow_zero, Nat.mul_one] at same
    subst same
    have bits : k.log2 = 52 := (Nat.log2_eq_iff some).mpr ⟨least, most⟩
    rw [filled, bits]
    omega

theorem integerWhole {b : Binary} (found : floatKind x = .finite b) (integer : b.isInteger = true)
    (small : b.truncate.natAbs < 2 ^ 53) : IsWhole x b.truncate := by
  rw [kindParts] at found
  obtain none | ⟨s, infinite⟩ | ⟨s, m, e, same, most, low, high, full⟩ := partsCases x
  · rw [none] at found
    cases found
  · rw [infinite] at found
    cases found
  · by_cases none : m = 0
    · have zero : parts x = .zero s := by rw [same, made, dif_pos none]
      rw [zero] at found
      cases found
      have truncated : Binary.truncate ⟨s == .negative, 0, -1074⟩ = 0 := by
        simp only [Binary.truncate, Nat.zero_mul, Nat.zero_div]
        split <;> rfl
      rw [truncated]
      exact zeroWhole zero
    · rw [same, made, dif_neg none] at found
      cases found
      simp only [Binary.isInteger, Nat.pow_eq, decide_eq_true_eq] at integer
      have whole := Nat.div_mul_cancel (Nat.dvd_of_mod_eq_zero integer)
      have truncated : Binary.truncate ⟨s == .negative, m, e⟩ =
          (signOf (s == .negative)).apply (m * 2 ^ e.toNat / 2 ^ (-e).toNat : Nat) := by
        rw [signApply]
        rfl
      rw [truncated] at small ⊢
      generalize m * 2 ^ e.toNat / 2 ^ (-e).toNat = k at whole small
      have size : ((signOf (s == .negative)).apply (k : Int)).natAbs = k := by
        rw [signApply]
        split <;> omega
      rw [size] at small
      have some : k ≠ 0 := by
        rintro rfl
        have positive : 0 < m * 2 ^ e.toNat := Nat.mul_pos (Nat.pos_of_ne_zero none) (by positivity)
        omega
      obtain ⟨mantissa, exponent⟩ := filledUnique some small whole most full
      refine ⟨s == .negative, partsInjective ?_, by rw [size]⟩
      rw [size, partsWhole _ small, same, mantissa, exponent]
      cases s <;> rfl

theorem remWhole (first : IsWhole x n) (second : IsWhole y m) (left : isSafe n = true) (right : isSafe m = true)
    (some : m ≠ 0) : IsWhole (floatRemainder x y) (Int.tmod n m) := by
  have smallLeft : n.natAbs < 2 ^ 53 := by simpa [isSafe] using left
  have smallRight : m.natAbs < 2 ^ 53 := by simpa [isSafe] using right
  obtain ⟨t, rfl, other⟩ := second
  have bounds := filledBounds (show m.natAbs ≠ 0 by omega) smallRight
  by_cases none : n = 0
  · subst none
    obtain ⟨s, zero⟩ := zeroParts first
    simp only [floatRemainder, kindZero zero, kindWhole t (show m.natAbs ≠ 0 by omega) smallRight, Nat.pow_eq,
      Nat.zero_mul, Nat.zero_mod, ratioZero, Int.zero_tmod]
    rw [if_neg (by omega)]
    exact zeroWhole (partsZero _)
  obtain ⟨s, rfl, same⟩ := first
  have sizeLeft := sizeBound (show n.natAbs ≠ 0 by omega) smallLeft
  have sizeRight := sizeBound (show m.natAbs ≠ 0 by omega) smallRight
  refine ⟨s, ?_, ?_⟩
  · generalize aligned : 52 - min n.natAbs.log2 m.natAbs.log2 = j
    have least : min ((n.natAbs.log2 : Int) - 52) ((m.natAbs.log2 : Int) - 52) = -(j : Int) := by omega
    have up (k : Nat) (low : 52 - k.log2 ≤ j) (size : k.log2 ≤ 52) :
        filled k * 2 ^ (((k.log2 : Int) - 52) - -(j : Int)).toNat = k * 2 ^ j := by
      rw [filled, Nat.mul_assoc, ← Nat.pow_add]
      congr 2
      omega
    simp only [floatRemainder, kindWhole s (show n.natAbs ≠ 0 by omega) smallLeft,
      kindWhole t (show m.natAbs ≠ 0 by omega) smallRight, Nat.pow_eq, least]
    rw [if_neg (by omega), up _ (by omega) sizeLeft, up _ (by omega) sizeRight, Nat.mul_mod_mul_right,
      Int.natAbs_tmod, show (-(j : Int)).toNat = 0 by omega, show (- -(j : Int)).toNat = j by omega, Nat.pow_zero,
      Nat.mul_one]
    by_cases zero : n.natAbs % m.natAbs = 0
    · rw [zero, Nat.zero_mul, ratioZero, ratioZero]
    · have scaled := ofRatioScaled s zero Nat.one_ne_zero j
      rwa [Nat.one_mul] at scaled
  · rw [signApply] at same ⊢
    rw [Int.natAbs_tmod]
    have size : (n.natAbs % m.natAbs : Nat) = Int.tmod n.natAbs m := by
      rcases Int.natAbs_eq m with plus | minus
      · rw [plus]
        rfl
      · rw [minus, Int.tmod_neg, Int.natAbs_neg]
        rfl
    cases s
    · simp only [Bool.false_eq_true, if_false] at same ⊢
      rw [size, same]
    · simp only [if_true] at same ⊢
      rw [size, ← Int.neg_tmod, same]

end Whole

end Fragment.Double
