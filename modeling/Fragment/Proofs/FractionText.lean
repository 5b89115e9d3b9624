import Fragment.Proofs.DecimalText
import Fragment.Proofs.NumberText
import Fragment.Proofs.NumberValues

/-! The decimals of doubles.
The shortest decimal of a double is less than one step of its mantissa away from it. So a double with a fraction is not
printed as an integer: its text has a point or an exponent. The fragment language lays out the text of a number anew and
takes nothing but digits, point and exponent from it. The new text spells the same number and is read as a decimal; how the
number was written before does not count. -/
namespace Fragment.Double

/-! Fractions and decimals as rational numbers -/

def Ratio.worth (r : Ratio) : ℚ := r.num / r.den

def Decimal.worth (d : Decimal) : ℚ := d.digits * 10 ^ d.exponent

section Worths

variable {r value low high : Ratio} {d : Decimal} {unit : Int}

theorem binarySplit (e : Int) : (2 : ℚ) ^ e * (Nat.pow 2 (-e).toNat : Nat) = (Nat.pow 2 e.toNat : Nat) := by
  exact_mod_cast powerSplit two_ne_zero e

theorem decimalSplit (e : Int) : (10 : ℚ) ^ e * (Nat.pow 10 (-e).toNat : Nat) = (Nat.pow 10 e.toNat : Nat) := by
  exact_mod_cast powerSplit (b := 10) (by decide) e

theorem ratioWorth (b : Binary) : b.ratio.worth = b.mantissa * 2 ^ b.exponent := by
  have scale : ((Nat.pow 2 (-b.exponent).toNat : Nat) : ℚ) ≠ 0 := by
    rw [Nat.pow_eq]
    positivity
  rw [Ratio.worth, Binary.ratio, div_eq_iff scale, mul_assoc, binarySplit, Nat.cast_mul]

theorem unitsWorth (r : Ratio) (unit : Int) : (r.inUnits unit).worth = r.worth / 10 ^ unit := by
  have power : (10 : ℚ) ^ unit ≠ 0 := by positivity
  have scale : ((Nat.pow 10 (-unit).toNat : Nat) : ℚ) ≠ 0 := by
    rw [Nat.pow_eq]
    positivity
  rw [Ratio.worth, Ratio.inUnits, Ratio.worth, Nat.cast_mul, Nat.cast_mul, ← decimalSplit unit, div_div]
  rw [mul_comm ((10 : ℚ) ^ unit), ← mul_assoc, mul_right_comm, mul_div_mul_right _ _ scale]

theorem unitsPositive (positive : 0 < r.den) (unit : Int) : 0 < (r.inUnits unit).den :=
  Nat.mul_pos positive (Nat.pow_pos (by decide))

/-- A fraction and a number of units. -/
theorem fewUnits (positive : 0 < r.den) (n : Nat) : r.num ≤ n * r.den ↔ r.worth ≤ n := by
  rw [Ratio.worth, div_le_iff₀ (by exact_mod_cast positive)]
  exact_mod_cast Iff.rfl

theorem manyUnits (positive : 0 < r.den) (n : Nat) : n * r.den ≤ r.num ↔ n ≤ r.worth := by
  rw [Ratio.worth, le_div_iff₀ (by exact_mod_cast positive)]
  exact_mod_cast Iff.rfl

theorem onGrid {n : Nat} (least : (low.inUnits unit).worth ≤ n) (most : n ≤ (high.inUnits unit).worth) :
    low.worth ≤ Decimal.worth ⟨n, unit⟩ ∧ Decimal.worth ⟨n, unit⟩ ≤ high.worth := by
  have power : (0 : ℚ) < 10 ^ unit := by positivity
  rw [unitsWorth] at least most
  exact ⟨(div_le_iff₀ power).mp least, (le_div_iff₀ power).mp most⟩

theorem fitsWithin {m n : Nat} {closed : Bool} (fits : if closed = true then m ≤ n else m < n) : m ≤ n := by
  split at fits
  · exact fits
  · exact fits.le

/-- A decimal found on a grid is within the bounds. -/
theorem gridBetween {closed : Bool} (found : nearestOnGrid? value low high closed unit = some d) (lows : 0 < low.den)
    (values : 0 < value.den) (highs : 0 < high.den) (below : low.worth ≤ value.worth) (above : value.worth ≤ high.worth) :
    low.worth ≤ d.worth ∧ d.worth ≤ high.worth := by
  have power : (0 : ℚ) ≤ 10 ^ unit := by positivity
  have least : (low.inUnits unit).worth ≤ (value.inUnits unit).worth := by
    rw [unitsWorth, unitsWorth]
    exact div_le_div_of_nonneg_right below power
  have most : (value.inUnits unit).worth ≤ (high.inUnits unit).worth := by
    rw [unitsWorth, unitsWorth]
    exact div_le_div_of_nonneg_right above power
  have lowUnits := unitsPositive lows unit
  have valueUnits := unitsPositive values unit
  have highUnits := unitsPositive highs unit
  simp only [nearestOnGrid?] at found
  generalize value.inUnits unit = v at found least most valueUnits
  have floor : ((v.num / v.den : Nat) : ℚ) ≤ v.worth := (manyUnits valueUnits _).mp (Nat.div_mul_le_self ..)
  have ceiling : v.worth ≤ (v.num / v.den + 1 : Nat) :=
    (fewUnits valueUnits _).mp (by rw [mul_comm]; exact (Nat.lt_mul_div_succ _ valueUnits).le)
  have lower (fits : if closed = true then (low.inUnits unit).num ≤ v.num / v.den * (low.inUnits unit).den
      else (low.inUnits unit).num < v.num / v.den * (low.inUnits unit).den) :
      low.worth ≤ Decimal.worth ⟨v.num / v.den, unit⟩ ∧ Decimal.worth ⟨v.num / v.den, unit⟩ ≤ high.worth :=
    onGrid ((fewUnits lowUnits _).mp (fitsWithin fits)) (floor.trans most)
  have upper (fits : if closed = true then (v.num / v.den + 1) * (high.inUnits unit).den ≤ (high.inUnits unit).num
      else (v.num / v.den + 1) * (high.inUnits unit).den < (high.inUnits unit).num) :
      low.worth ≤ Decimal.worth ⟨v.num / v.den + 1, unit⟩ ∧ Decimal.worth ⟨v.num / v.den + 1, unit⟩ ≤ high.worth :=
    onGrid (least.trans ceiling) ((manyUnits highUnits _).mp (fitsWithin fits))
  split at found
  case isTrue whole =>
    cases found
    have reached : v.worth ≤ (v.num / v.den : Nat) :=
      (fewUnits valueUnits _).mp (Nat.div_mul_cancel (Nat.dvd_of_mod_eq_zero whole)).ge
    exact onGrid (least.trans reached) (floor.trans most)
  case isFalse =>
    cases closed <;> simp only [Bool.false_eq_true, if_true, if_false] at found lower upper <;> grind

theorem stripWorth (fuel : Nat) (d : Decimal) : (stripZeros fuel d).worth = d.worth := by
  induction fuel generalizing d with
  | zero => rfl
  | succ fuel ih =>
    unfold stripZeros
    split
    case isTrue zero =>
      have tens : d.digits = d.digits / 10 * 10 := by omega
      rw [ih, Decimal.worth, Decimal.worth, zpow_add₀ (by norm_num), zpow_one]
      nth_rewrite 2 [tens]
      push_cast
      ring
    case isFalse => rfl

theorem normalWorth (d : Decimal) : d.normal.worth = d.worth := stripWorth _ d

end Worths

/-! The scale of the first digit -/

theorem powersOrdered {a b p q m n : Nat} (positive : 0 < a) (some : q ≠ 0) (base : a ^ p ≤ b ^ q) (few : q * m ≤ p * n) :
    a ^ m ≤ b ^ n := by
  refine (Nat.pow_le_pow_iff_left some).mp ?_
  calc (a ^ m) ^ q = a ^ (q * m) := by rw [← pow_mul, mul_comm]
    _ ≤ a ^ (p * n) := Nat.pow_le_pow_right positive few
    _ = (a ^ p) ^ n := pow_mul ..
    _ ≤ (b ^ q) ^ n := Nat.pow_le_pow_left base n
    _ = (b ^ n) ^ q := by rw [← pow_mul, ← pow_mul, mul_comm]

/-- A guess of the decimal exponent is not above the power of two. -/
theorem guessBelow {bits : Int} (low : -1200 ≤ bits) (high : bits ≤ 1200) :
    (10 : ℚ) ^ ((bits * 30103).fdiv 100000 - 3) ≤ 2 ^ (bits - 1) := by
  rw [Int.fdiv_eq_ediv_of_nonneg _ (by decide)]
  generalize guessed : bits * 30103 / 100000 - 3 = guess
  obtain ⟨n, rfl⟩ | ⟨n, same⟩ : (∃ n : Nat, bits = n + 1) ∨ ∃ n : Nat, bits = 1 - n := by
    obtain less | more := le_total bits 1
    · exact .inr ⟨(1 - bits).toNat, by omega⟩
    · exact .inl ⟨(bits - 1).toNat, by omega⟩
  · have size : (10 : ℚ) ^ guess ≤ 10 ^ guess.toNat := by
      rw [← zpow_natCast]
      exact zpow_le_zpow_right₀ (by norm_num) (by omega)
    have ordered : 10 ^ guess.toNat ≤ 2 ^ n :=
      powersOrdered (p := 3) (q := 10) (by decide) (by decide) (by decide) (by omega)
    rw [add_sub_cancel_right, zpow_natCast]
    exact size.trans (by exact_mod_cast ordered)
  · obtain ⟨m, rfl⟩ : ∃ m : Nat, guess = -m := ⟨(-guess).toNat, by omega⟩
    have ordered : 2 ^ n ≤ 10 ^ m :=
      powersOrdered (p := 93) (q := 28) (by decide) (by decide) (by decide) (by omega)
    rw [same, show (1 : Int) - n - 1 = -n by ring, zpow_neg, zpow_neg, zpow_natCast, zpow_natCast]
    exact inv_anti₀ (by positivity) (by exact_mod_cast ordered)

theorem raisedReaches (r : Ratio) (fuel : Nat) (e : Int) :
    raiseExponent r fuel e = e ∨ r.reaches (raiseExponent r fuel e) = true := by
  induction fuel generalizing e with
  | zero => exact .inl rfl
  | succ fuel ih =>
    unfold raiseExponent
    split
    case isTrue more =>
      obtain same | reaches := ih (e + 1)
      · exact .inr (by rw [same]; exact more)
      · exact .inr reaches
    case isFalse => exact .inl rfl

theorem reachesWorth {r : Ratio} (positive : 0 < r.den) {e : Int} (reaches : r.reaches e = true) : 10 ^ e ≤ r.worth := by
  have scale : (0 : ℚ) < (Nat.pow 10 (-e).toNat : Nat) := by
    rw [Nat.pow_eq]
    positivity
  rw [Ratio.reaches, decide_eq_true_eq] at reaches
  rw [Ratio.worth, le_div_iff₀ (by exact_mod_cast positive), ← mul_le_mul_iff_left₀ scale, mul_right_comm, decimalSplit,
    mul_comm]
  exact_mod_cast reaches

/-- A fraction is at least the power of two by the lengths of its parts. -/
theorem lengthBelow {r : Ratio} (some : r.num ≠ 0) (positive : 0 < r.den) :
    (2 : ℚ) ^ ((r.num.log2 : Int) - r.den.log2 - 1) ≤ r.worth := by
  have num : (2 : ℚ) ^ r.num.log2 ≤ r.num := by exact_mod_cast Nat.log2_self_le some
  have den : (r.den : ℚ) ≤ 2 ^ (r.den.log2 + 1) := by exact_mod_cast Nat.lt_log2_self.le
  have size : (2 : ℚ) ^ ((r.num.log2 : Int) - r.den.log2 - 1) * 2 ^ (r.den.log2 + 1) = 2 ^ r.num.log2 := by
    rw [← zpow_natCast, ← zpow_natCast, ← zpow_add₀ (by norm_num)]
    congr 1
    push_cast
    ring
  rw [Ratio.worth, le_div_iff₀ (by exact_mod_cast positive)]
  calc (2 : ℚ) ^ ((r.num.log2 : Int) - r.den.log2 - 1) * r.den
      ≤ 2 ^ ((r.num.log2 : Int) - r.den.log2 - 1) * 2 ^ (r.den.log2 + 1) := by gcongr
    _ ≤ r.num := size.trans_le num

/-- The first digit of a fraction does not stand above it. -/
theorem exponentBelow {r : Ratio} (some : r.num ≠ 0) (positive : 0 < r.den)
    (low : -1200 ≤ (r.num.log2 : Int) - r.den.log2) (high : (r.num.log2 : Int) - r.den.log2 ≤ 1200) :
    10 ^ r.exponent ≤ r.worth := by
  obtain guess | reaches := raisedReaches r 6 ((((r.num.log2 : Int) - r.den.log2) * 30103).fdiv 100000 - 3)
  · rw [Ratio.exponent, guess]
    exact (guessBelow low high).trans (lengthBelow some positive)
  · exact reachesWorth positive reaches

/-! The shortest decimal -/

theorem shortestBetween {value low high : Ratio} (closed : Bool) (top : Int) (lows : 0 < low.den) (values : 0 < value.den)
    (highs : 0 < high.den) (below : low.worth ≤ value.worth) (above : value.worth ≤ high.worth) (fuel count : Nat) :
    (low.worth ≤ (shortestFrom value low high closed top fuel count).worth ∧
      (shortestFrom value low high closed top fuel count).worth ≤ high.worth) ∨
    ((shortestFrom value low high closed top fuel count).worth ≤ value.worth ∧
      value.worth < (shortestFrom value low high closed top fuel count).worth + 10 ^ (top + 1 - (count + fuel : Nat))) := by
  induction fuel generalizing count with
  | zero =>
    refine .inr ?_
    have power : (0 : ℚ) < 10 ^ (top + 1 - count) := by positivity
    have positive := unitsPositive values (top + 1 - count)
    have floor := (manyUnits positive _).mp (Nat.div_mul_le_self ..)
    have ceiling : (value.inUnits (top + 1 - count)).worth <
        ((value.inUnits (top + 1 - count)).num / (value.inUnits (top + 1 - count)).den + 1 : Nat) := by
      rw [← not_le, ← manyUnits positive, not_le, mul_comm]
      exact Nat.lt_mul_div_succ _ positive
    rw [unitsWorth] at floor ceiling
    rw [le_div_iff₀ power] at floor
    rw [div_lt_iff₀ power, Nat.cast_add_one, add_mul, one_mul] at ceiling
    exact ⟨floor, ceiling⟩
  | succ fuel ih =>
    unfold shortestFrom
    split
    case h_1 d found => exact .inl (gridBetween found lows values highs below above)
    case h_2 =>
      rw [show count + (fuel + 1) = count + 1 + fuel by omega]
      exact ih (count + 1)

theorem quarterWorth (n : Nat) (e : Int) : (Binary.ratio ⟨false, n, e - 2⟩).worth = n * 2 ^ e / 4 := by
  rw [ratioWorth, zpow_sub₀ (by norm_num)]
  norm_num
  ring

theorem ratioPositive (b : Binary) : 0 < b.ratio.den := Nat.pow_pos (by decide)

/-- The bounds of what rounds to a double are half a step away at most. -/
theorem lowWorth {m c : Nat} (some : m ≠ 0) (few : c ≤ 2) (e : Int) :
    m * 2 ^ e - 2 ^ e / 2 ≤ (Binary.ratio ⟨false, 4 * m - c, e - 2⟩).worth ∧
      (Binary.ratio ⟨false, 4 * m - c, e - 2⟩).worth ≤ (Binary.ratio ⟨false, 4 * m, e - 2⟩).worth := by
  have step : (0 : ℚ) < 2 ^ e := by positivity
  have size : ((4 * m - c : Nat) : ℚ) = 4 * m - c := by
    rw [Nat.cast_sub (by omega)]
    push_cast
    rfl
  have near : (c : ℚ) ≤ 2 := by exact_mod_cast few
  rw [quarterWorth, quarterWorth, size]
  push_cast
  constructor
  · nlinarith
  · have : (0 : ℚ) ≤ c := by positivity
    nlinarith

theorem ratioLengths {m : Nat} (some : m ≠ 0) (few : m < 2 ^ 53) {e : Int} (low : -1074 ≤ e) (high : e ≤ 971) :
    -1200 ≤ ((Binary.ratio ⟨false, 4 * m, e - 2⟩).num.log2 : Int) - (Binary.ratio ⟨false, 4 * m, e - 2⟩).den.log2 ∧
      ((Binary.ratio ⟨false, 4 * m, e - 2⟩).num.log2 : Int) - (Binary.ratio ⟨false, 4 * m, e - 2⟩).den.log2 ≤ 1200 := by
  have size : (4 * m).log2 < 55 := (Nat.log2_lt (by omega)).mpr (by omega)
  simp only [Binary.ratio, Nat.pow_eq]
  rw [sizeScaled (by omega), Nat.log2_two_pow]
  omega

/-- The shortest decimal is less than one step of the mantissa away. -/
theorem shortestClose {b : Binary} (stored : b.Stored) (some : b.mantissa ≠ 0) :
    |b.shortest.worth - b.mantissa * 2 ^ b.exponent| < 2 ^ b.exponent := by
  obtain ⟨negative, m, e⟩ := b
  obtain ⟨few, low, high, -⟩ := stored
  dsimp only at few low high some ⊢
  have step : (0 : ℚ) < 2 ^ e := by positivity
  have value : (Binary.ratio ⟨false, 4 * m, e - 2⟩).worth = m * 2 ^ e := by
    rw [quarterWorth]
    push_cast
    ring
  have top : (Binary.ratio ⟨false, 4 * m + 2, e - 2⟩).worth = m * 2 ^ e + 2 ^ e / 2 := by
    rw [quarterWorth]
    push_cast
    ring
  have first : (10 : ℚ) ^ (Binary.ratio ⟨false, 4 * m, e - 2⟩).exponent ≤ m * 2 ^ e := by
    have lengths := ratioLengths some few low high
    rw [← value]
    have numerator := Nat.mul_ne_zero (Nat.mul_ne_zero four_ne_zero some) (Nat.pow_pos (n := (e - 2).toNat) two_pos).ne'
    exact exponentBelow numerator (ratioPositive _) lengths.1 lengths.2
  have last : (10 : ℚ) ^ ((Binary.ratio ⟨false, 4 * m, e - 2⟩).exponent + 1 - (1 + 17 : Nat)) < 2 ^ e := by
    generalize (Binary.ratio ⟨false, 4 * m, e - 2⟩).exponent = place at first
    have many : (m : ℚ) < 10 ^ 17 := by exact_mod_cast few.trans (by decide : 2 ^ 53 < 10 ^ 17)
    rw [show place + 1 - (1 + 17 : Nat) = place - (17 : Nat) by push_cast; ring, zpow_sub₀ (by norm_num), zpow_natCast,
      div_lt_iff₀ (by positivity)]
    calc (10 : ℚ) ^ place ≤ m * 2 ^ e := first
      _ < 10 ^ 17 * 2 ^ e := by gcongr
      _ = 2 ^ e * 10 ^ 17 := mul_comm ..
  simp only [Binary.shortest]
  rw [normalWorth]
  generalize dropped : (if m = Nat.pow 2 52 ∧ -1074 < e then 1 else 2) = c
  have near : c ≤ 2 := by split at dropped <;> omega
  have below := lowWorth some near e
  obtain between | floor := shortestBetween (m % 2 = 0) (Binary.ratio ⟨false, 4 * m, e - 2⟩).exponent
    (ratioPositive _) (ratioPositive _) (ratioPositive ⟨false, 4 * m + 2, e - 2⟩) below.2 (by rw [value, top]; linarith) 17 1
  · rw [abs_lt]
    constructor <;> linarith
  · rw [abs_lt]
    constructor <;> linarith

/-- The shortest decimal of a double is no zero. -/
theorem shortestPositive {b : Binary} (stored : b.Stored) (some : b.mantissa ≠ 0) : b.shortest.worth ≠ 0 := by
  intro none
  have close := shortestClose stored some
  have step : (0 : ℚ) < 2 ^ b.exponent := by positivity
  have least : (1 : ℚ) ≤ b.mantissa := by exact_mod_cast Nat.one_le_iff_ne_zero.mpr some
  rw [none, zero_sub, abs_neg, abs_of_nonneg (by positivity)] at close
  nlinarith

/-- The shortest decimal of a double with a fraction is no integer, either. -/
theorem fractionWorth {b : Binary} (stored : b.Stored) (fraction : b.isInteger = false) :
    b.mantissa ≠ 0 ∧ ∀ n : Nat, b.shortest.worth ≠ n := by
  simp only [Binary.isInteger, Nat.pow_eq, decide_eq_false_iff_not] at fraction
  have some : b.mantissa ≠ 0 := fun none => fraction (by rw [none, Nat.zero_mul, Nat.zero_mod])
  refine ⟨some, fun n whole => fraction ?_⟩
  obtain less | more := lt_or_ge b.exponent 0
  · have close := shortestClose stored some
    obtain ⟨k, same⟩ : ∃ k : Nat, b.exponent = -k := ⟨(-b.exponent).toNat, by omega⟩
    have scale : (0 : ℚ) < 2 ^ k := by positivity
    have mantissa : b.mantissa = n * 2 ^ k := by
      rw [whole, same, zpow_neg, zpow_natCast, ← mul_lt_mul_iff_left₀ scale, inv_mul_cancel₀ scale.ne', ← abs_of_pos scale,
        ← abs_mul, sub_mul, abs_of_pos scale, mul_assoc (b.mantissa : ℚ), inv_mul_cancel₀ scale.ne', mul_one] at close
      have near : |((n * 2 ^ k : Nat) : Int) - b.mantissa| < 1 := by exact_mod_cast close
      rw [Int.abs_lt_one_iff] at near
      omega
    rw [mantissa, same, neg_neg, Int.toNat_natCast, Int.toNat_of_nonpos (by omega), pow_zero, mul_one]
    exact Nat.mul_mod_left ..
  · rw [Int.toNat_of_nonpos (show -b.exponent ≤ 0 by omega), pow_zero, Nat.mod_one]

/-! Texts -/

/-- The text of a decimal as a value spells the decimal. -/
theorem valueWorth (d : Decimal) : ∃ g : Spelling, g.chars = d.valueChars ∧ g.value = d.worth := by
  obtain ⟨g, chars, value⟩ := valueSpells d
  refine ⟨g, chars, ?_⟩
  rw [value, placed, digitCharsValue, add_sub_cancel_left, Decimal.worth]

/-- What the text of a double with a fraction has and no integer does. -/
def isMark (c : Char) : Bool := c = '.' || c = '+' || c = '-'

theorem spellingMark {g : Spelling} (fraction : ∀ n : Nat, g.value ≠ n) : ∃ c ∈ g.chars, isMark c = true := by
  by_cases part : g.part = []
  · cases exponent : g.exponent with
    | none =>
      refine absurd ?_ (fraction (digitsValue g.whole))
      rw [Spelling.value, Spelling.scale, part, exponent]
      simp [digitsValue]
    | some e =>
      refine ⟨if e.1 then '-' else '+', ?_, by split <;> decide⟩
      simp [Spelling.chars, Spelling.tail, exponent, exponentChars]
  · exact ⟨'.', by simp [Spelling.chars, Spelling.mantissa, pointedSome part], by decide⟩

/-- The text of a double with a fraction. -/
theorem fractionMark {x : Float} {b : Binary} (finite : floatKind x = .finite b) (fraction : b.isInteger = false) :
    ∃ c ∈ (sourceText x).toList, isMark c = true := by
  obtain ⟨some, worth⟩ := fractionWorth (finiteStored finite) fraction
  obtain ⟨g, spelled, value⟩ := valueWorth b.shortest
  obtain ⟨h, chars, same, -⟩ := sourceSpells (value ▸ shortestPositive (finiteStored finite) some)
  obtain ⟨c, member, mark⟩ := spellingMark (g := h) (by rwa [same, value])
  refine ⟨c, ?_, mark⟩
  rw [chars, spelled] at member
  rw [sourceText, finite]
  simp only [some, if_false, signed]
  split <;> simp [member]

/-! Printed numbers -/

section Printed

open Text (isDecimalDigit)
open Value (decimalNumber?)

theorem Spelling.tailTaken (g : Spelling) : takeExponent g.tail = (g.tail, []) ∧ ∀ c ∈ g.tail.head?, c = 'e' := by
  unfold Spelling.tail
  cases exponent : g.exponent with
  | none => exact ⟨rfl, nofun⟩
  | some e =>
    have spanned : spanDigits (e.2 ++ []) = (e.2, []) := spanWhole (g.exponentDigits e exponent).decimal nofun
    rw [List.append_nil] at spanned
    have filled : e.2.isEmpty = false := by simpa using g.exponentFilled e exponent
    have mark : takeSign (exponentChars e) = ([if e.1 then '-' else '+'], e.2) := by
      unfold exponentChars
      split <;> rfl
    refine ⟨?_, fun c first => (Option.some_inj.mp first).symm⟩
    simp only [Option.elim_some, takeExponent, mark, spanned, filled]
    rfl

/-- All of a written decimal is read. -/
theorem spellingTaken (g : Spelling) : takeUnsigned g.chars = (g.chars, []) := by
  obtain ⟨taken, mark⟩ := g.tailTaken
  have filled : g.whole.isEmpty = false := by simpa using g.wholeFilled
  have other : ∀ c ∈ g.tail.head?, isDecimalDigit c = false := fun c first => by
    rw [mark c first]
    decide
  rw [Spelling.chars, Spelling.mantissa, List.append_assoc]
  by_cases part : g.part = []
  · -- Without a point the exponent follows at once.
    have spanned : spanDigits (g.whole ++ g.tail) = (g.whole, g.tail) := spanWhole g.wholeDigits.decimal other
    rw [part, pointed, if_pos rfl, List.nil_append]
    simp only [takeUnsigned, spanned, filled, Bool.false_eq_true, if_false]
    split
    case h_1 rest first =>
      have point := mark '.' (by rw [first]; rfl)
      cases point
    case h_2 => simp [taken]
  · have front : spanDigits (g.whole ++ '.' :: (g.part ++ g.tail)) = (g.whole, '.' :: (g.part ++ g.tail)) :=
      spanWhole g.wholeDigits.decimal fun c first => by
        rw [← Option.some_inj.mp first]
        decide
    have behind : spanDigits (g.part ++ g.tail) = (g.part, g.tail) := spanWhole g.partDigits.decimal other
    rw [pointedSome part, List.cons_append]
    simp only [takeUnsigned, front, filled, behind, taken, Bool.false_eq_true, if_false, List.append_assoc, List.cons_append]

theorem spellingAccepted (g : Spelling) (negative : Bool) : (decimalNumber? (signed negative g.chars).toList).isSome := by
  have filled : g.chars.isEmpty = false := by simp [Spelling.chars, Spelling.mantissa, g.wholeFilled]
  have sign : takeSign (signed negative g.chars).toList = (if negative then ['-'] else [], g.chars) := by
    rw [signed, String.toList_ofList, Spelling.chars, Spelling.mantissa, List.append_assoc]
    have is : IsSign (if negative then ['-'] else []) := by cases negative <;> simp [IsSign]
    have taken := takeSignDigits is g.wholeFilled g.wholeDigits.decimal (pointed g.part ++ g.tail)
    cases negative <;> simpa using taken
  simp only [decimalNumber?, sign, spellingTaken, filled, Bool.false_or, List.isEmpty_nil, Bool.not_true, Bool.false_eq_true,
    if_false]
  split <;> rfl

/-- The laws of printed numbers. A text is a decimal in one way, so what is said of a spelling is said of its text. -/
structure PrintLaws : Prop where
  once (g h : Spelling) : g.chars = h.chars → g = h
  texts (x : Float) (b : Binary) : floatKind x = .finite b → b.mantissa ≠ 0 → ∃ g : Spelling, g.value ≠ 0 ∧
    valueText x = signed b.negative g.chars ∧ sourceText x = signed b.negative (sourceChars g.chars)
  exact (g : Spelling) : g.value ≠ 0 → ∃ h : Spelling, h.chars = sourceChars g.chars ∧ h.value = g.value ∧
    h.part.getLast? ≠ some '0' ∧ (h.exponent.isSome ↔ 10 ^ 21 ≤ g.value ∨ g.value < 10 ^ (-6 : Int))
  accepted (g : Spelling) (negative : Bool) : g.value ≠ 0 →
    (decimalNumber? (signed negative (sourceChars g.chars)).toList).isSome
  agree (g h : Spelling) : g.value ≠ 0 → g.value = h.value → sourceChars g.chars = sourceChars h.chars

theorem numbersPrinted : PrintLaws where
  once _ _ same := Spelling.once same
  texts x b finite some := by
    obtain ⟨g, chars, value⟩ := valueWorth b.shortest
    refine ⟨g, value ▸ shortestPositive (finiteStored finite) some, ?_, ?_⟩
    · simp only [valueText, finite, some, if_false, chars]
    · simp only [sourceText, finite, some, if_false, chars]
  exact _ number := sourceSpells number
  accepted g negative number := by
    obtain ⟨h, chars, -⟩ := sourceSpells number
    rw [← chars]
    exact spellingAccepted h negative
  agree _ _ number same := sourceAgrees number same

end Printed

end Fragment.Double
