import Fragment.Proofs.FoldedNumbers

/-! The values of numbers.
A number is a rational number, an infinity, or no number at all. Two numbers are equal exactly if both have a value and
the values are the same, whether they are integers or doubles; so equality of numbers is an equivalence apart from NaN. -/
namespace Fragment

open Float.Model (UnpackedFloat)
open Double (floatKind parts made kind signOf)

/-- What a number may be worth. -/
inductive Worth where
  | finite (q : ℚ)
  | infinite (negative : Bool)

namespace Double

/-- The rational number that a binary fraction is. -/
def Binary.worth (b : Binary) : ℚ := (if b.negative then -1 else 1) * b.mantissa * 2 ^ b.exponent

/-- What a double is worth, told by its parts. -/
def kindWorth : FloatKind → Option Worth
  | .nan => none
  | .infinite negative => some (.infinite negative)
  | .finite b => some (.finite b.worth)

theorem powerSplit {b : Nat} (some : b ≠ 0) (e : Int) :
    (b : ℚ) ^ e * (b ^ (-e).toNat : Nat) = (b ^ e.toNat : Nat) := by
  push_cast
  rw [← zpow_natCast, ← zpow_natCast, ← zpow_add₀ (by exact_mod_cast some)]
  congr 1
  omega

theorem Binary.comparesEqual (n : Int) (b : Binary) : b.compareInt n = .eq ↔ (n : ℚ) = b.worth := by
  have scale : ((2 ^ (-b.exponent).toNat : Nat) : ℚ) ≠ 0 := by positivity
  have size : b.worth * (2 ^ (-b.exponent).toNat : Nat) =
      ((if b.negative then -((b.mantissa : Int) * (2 ^ b.exponent.toNat : Nat)) else
        (b.mantissa : Int) * (2 ^ b.exponent.toNat : Nat) : Int) : ℚ) := by
    have split := powerSplit two_ne_zero b.exponent
    rw [Nat.cast_two] at split
    rw [Binary.worth, mul_assoc, split]
    split
    · push_cast
      ring
    · push_cast
      ring
  rw [Binary.compareInt, Int.compare_eq_eq, ← mul_left_inj' scale, size]
  simp only [Nat.pow_eq]
  exact_mod_cast Iff.rfl

/-- The fractions that doubles are. -/
structure Binary.Stored (b : Binary) : Prop where
  few : b.mantissa < 2 ^ 53
  low : -1074 ≤ b.exponent
  high : b.exponent ≤ 971
  full : 2 ^ 52 ≤ b.mantissa ∨ b.exponent = -1074

section Stored

variable {b c : Binary}

theorem Binary.size (b : Binary) : |b.worth| = b.mantissa * 2 ^ b.exponent := by
  rw [Binary.worth, mul_assoc, abs_mul, abs_of_nonneg (by positivity : (0 : ℚ) ≤ b.mantissa * 2 ^ b.exponent)]
  split <;> simp

theorem Binary.worthZero : b.worth = 0 ↔ b.mantissa = 0 := by
  have power : (2 : ℚ) ^ b.exponent ≠ 0 := by positivity
  rw [← abs_eq_zero, b.size, mul_eq_zero, or_iff_left power, Nat.cast_eq_zero]

theorem Binary.worthNegative (some : b.mantissa ≠ 0) : b.worth < 0 ↔ b.negative = true := by
  have positive : (0 : ℚ) < b.mantissa * 2 ^ b.exponent := by positivity
  rw [Binary.worth, mul_assoc]
  cases b.negative
  · simpa using positive.le
  · simpa using positive

/-- Fractions of one size that doubles are have the same mantissa and the same exponent. -/
theorem sizeUnique (first : b.Stored) (second : c.Stored) (order : b.exponent ≤ c.exponent)
    (same : (b.mantissa : ℚ) * 2 ^ b.exponent = c.mantissa * 2 ^ c.exponent) :
    b.mantissa = c.mantissa ∧ b.exponent = c.exponent := by
  obtain ⟨d, further⟩ : ∃ d : Nat, c.exponent = b.exponent + d := ⟨(c.exponent - b.exponent).toNat, by omega⟩
  have positive : (2 : ℚ) ^ b.exponent ≠ 0 := by positivity
  have scaled : b.mantissa = c.mantissa * 2 ^ d := by
    rw [further, zpow_add₀ (by norm_num), zpow_natCast, mul_comm ((2 : ℚ) ^ b.exponent), ← mul_assoc,
      mul_left_inj' positive] at same
    exact_mod_cast same
  have none : d = 0 := by
    by_contra more
    have twice : 2 ^ 1 ≤ 2 ^ d := Nat.pow_le_pow_right (by decide) (by omega)
    have least : 2 ^ 52 ≤ c.mantissa := second.full.resolve_right (by have := first.low; omega)
    have := Nat.mul_le_mul least twice
    have := first.few
    omega
  subst none
  exact ⟨by simpa using scaled, by omega⟩

theorem worthUnique (first : b.Stored) (second : c.Stored) (same : b.worth = c.worth) (some : b.mantissa ≠ 0) :
    b = c := by
  have other : c.mantissa ≠ 0 := fun none => some (Binary.worthZero.mp (same.trans (Binary.worthZero.mpr none)))
  have sizes : (b.mantissa : ℚ) * 2 ^ b.exponent = c.mantissa * 2 ^ c.exponent := by rw [← b.size, same, c.size]
  have signs : b.negative = c.negative := by
    rw [Bool.eq_iff_iff, ← Binary.worthNegative some, same, Binary.worthNegative other]
  obtain ⟨mantissas, exponents⟩ : b.mantissa = c.mantissa ∧ b.exponent = c.exponent := by
    obtain order | order := le_total b.exponent c.exponent
    · exact sizeUnique first second order sizes
    · exact (sizeUnique second first order sizes.symm).imp Eq.symm Eq.symm
  cases b
  cases c
  simp_all only

end Stored

/-- A double is not a number, infinite, or a fraction of those that doubles are. -/
theorem storedCases (x : Float) : parts x = .notANumber ∨ (∃ s, parts x = .infinity s) ∨
    ∃ b : Binary, b.Stored ∧ parts x = made (signOf b.negative) b.mantissa b.exponent := by
  obtain none | infinite | ⟨s, m, e, same, few, low, high, full⟩ := partsCases x
  · exact .inl none
  · exact .inr (.inl infinite)
  · have sign : signOf (s == .negative) = s := by cases s <;> rfl
    exact .inr (.inr ⟨⟨s == .negative, m, e⟩, ⟨few, low, high, full⟩, by rw [same, sign]⟩)

theorem Binary.Stored.made {b : Binary} (stored : b.Stored) :
    kind (made (signOf b.negative) b.mantissa b.exponent) = .finite b :=
  kindMade _ _ _ fun none => stored.full.resolve_left (by omega)

theorem Binary.Stored.kindWorth {b : Binary} (stored : b.Stored) :
    kindWorth (kind (Double.made (signOf b.negative) b.mantissa b.exponent)) = some (.finite b.worth) := by
  rw [stored.made]
  rfl

theorem finiteStored {x : Float} {b : Binary} (finite : floatKind x = .finite b) : b.Stored := by
  rw [kindParts] at finite
  obtain none | ⟨s, infinite⟩ | ⟨c, stored, same⟩ := storedCases x
  · rw [none] at finite
    cases finite
  · rw [infinite] at finite
    cases finite
  · rw [same, stored.made] at finite
    exact FloatKind.finite.inj finite ▸ stored

end Double

namespace Number

/-- What a number is worth; NaN is worth nothing. -/
def worth? : Number → Option Worth
  | .int n => some (.finite n)
  | .float x => Double.kindWorth (floatKind x)

/-! Doubles -/

section Doubles

open Double (Binary kindWorth)
open Float.Model.UnpackedFloat (Sign)

variable {u v : UnpackedFloat}

/-- Doubles that compare as equal: the same one, or two zeros. -/
def Alike (u v : UnpackedFloat) : Prop := u ≠ .notANumber ∧ Double.Near u v

theorem signsSame {s t : Sign} (same : compare s t = .eq) : s = t := by
  cases s <;> cases t <;> first | rfl | cases same

theorem partsSame {m n : Nat} {e f : Int} (same : (compare e f).then (compare m n) = .eq) : m = n ∧ e = f := by
  rw [Ordering.then_eq_eq, Int.compare_eq_eq, Nat.compare_eq_eq] at same
  exact same.symm

theorem comparesAlike : u.compare v = some .eq ↔ Alike u v := by
  constructor
  · intro same
    cases u with
    | notANumber => cases v <;> cases same
    | infinity s =>
      cases v with
      | infinity t => exact ⟨nofun, .inl (congrArg _ (signsSame (Option.some.inj same)))⟩
      | _ => cases s <;> cases same
    | zero s =>
      cases v with
      | zero t => exact ⟨nofun, .inr ⟨⟨s, rfl⟩, t, rfl⟩⟩
      | notANumber => cases same
      | _ t => cases t <;> cases same
    | finite s m e _ =>
      cases v with
      | finite t n f _ =>
        cases s <;> cases t
        case negative.negative =>
          obtain ⟨rfl, rfl⟩ := partsSame (Ordering.swap_eq_eq.mp (Option.some.inj same))
          exact ⟨nofun, .inl rfl⟩
        case positive.positive =>
          obtain ⟨rfl, rfl⟩ := partsSame (Option.some.inj same)
          exact ⟨nofun, .inl rfl⟩
        all_goals cases same
      | infinity t => cases s <;> cases t <;> cases same
      | zero => cases s <;> cases same
      | notANumber => cases same
  · rintro ⟨number, rfl | ⟨⟨s, rfl⟩, t, rfl⟩⟩
    · exact compareSelf number
    · rfl

theorem Alike.symm (alike : Alike u v) : Alike v u := by
  obtain ⟨number, rfl | ⟨⟨s, rfl⟩, t, rfl⟩⟩ := alike
  · exact ⟨number, .inl rfl⟩
  · exact ⟨nofun, .inr ⟨⟨t, rfl⟩, s, rfl⟩⟩

theorem equalFloats (x y : Float) : (float x).equals (.float y) = true ↔ Alike (parts x) (parts y) := by
  constructor
  · intro same
    simp only [equals, compare?] at same
    split at same
    · cases same
    · split at same
      · cases same
      · split at same
        case isTrue equal => exact comparesAlike.mp (eq_of_beq equal)
        case isFalse => cases same
  · intro alike
    exact floatsEqual (comparesAlike.mpr alike) (comparesAlike.mpr alike.symm)

theorem numberWorth (number : u ≠ .notANumber) : ∃ w, kindWorth (kind u) = some w := by
  cases u with
  | notANumber => exact absurd rfl number
  | _ => exact ⟨_, rfl⟩

theorem zeroWorth (s : Sign) : kindWorth (kind (.zero s)) = some (.finite 0) := by
  unfold kindWorth
  simp [kind, Binary.worth]

theorem infiniteAlike {s t : Sign} (same : (s == .negative) = (t == .negative)) : Alike (.infinity s) (.infinity t) := by
  have : s = t := by cases s <;> cases t <;> first | rfl | cases same
  exact ⟨nofun, .inl (congrArg _ this)⟩

theorem madeAlike {b c : Binary} (first : b.Stored) (second : c.Stored) (same : b.worth = c.worth) :
    Alike (made (signOf b.negative) b.mantissa b.exponent) (made (signOf c.negative) c.mantissa c.exponent) := by
  by_cases none : b.mantissa = 0
  · have other : c.mantissa = 0 := Binary.worthZero.mp (same ▸ Binary.worthZero.mpr none)
    rw [made, dif_pos none, made, dif_pos other]
    exact ⟨by simp, .inr ⟨⟨_, rfl⟩, _, rfl⟩⟩
  · obtain rfl := Double.worthUnique first second same none
    exact ⟨by simp [made, none], .inl rfl⟩

theorem alikeWorth {w : Worth} {x y : Float} (first : (float x).worth? = some w) (second : (float y).worth? = some w) :
    Alike (parts x) (parts y) := by
  rw [worth?, Double.kindParts] at first second
  obtain left | ⟨s, left⟩ | ⟨b, kept, left⟩ := Double.storedCases x <;> rw [left] at first
  · cases first
  · obtain right | ⟨t, right⟩ | ⟨c, more, right⟩ := Double.storedCases y <;> rw [right] at second
    · cases second
    · rw [left, right]
      rw [← first] at second
      exact infiniteAlike (Worth.infinite.inj (Option.some.inj second)).symm
    · rw [more.kindWorth, ← first] at second
      cases second
  · rw [kept.kindWorth] at first
    obtain right | ⟨t, right⟩ | ⟨c, more, right⟩ := Double.storedCases y <;> rw [right] at second
    · cases second
    · rw [← first] at second
      cases second
    · rw [more.kindWorth, ← first] at second
      rw [left, right]
      exact madeAlike kept more (Worth.finite.inj (Option.some.inj second)).symm

/-- Doubles are equal exactly if they are worth the same. -/
theorem floatsWorth (x y : Float) :
    (float x).equals (.float y) = true ↔ ∃ w, (float x).worth? = some w ∧ (float y).worth? = some w := by
  rw [equalFloats]
  constructor
  · unfold worth?
    simp only [Double.kindParts]
    rintro ⟨number, same | ⟨⟨s, left⟩, t, right⟩⟩
    · obtain ⟨w, found⟩ := numberWorth number
      exact ⟨w, found, same ▸ found⟩
    · exact ⟨_, by rw [left, zeroWorth], by rw [right, zeroWorth]⟩
  · rintro ⟨w, first, second⟩
    exact alikeWorth first second

theorem intFloatWorth (n : Int) (x : Float) :
    (int n).equals (.float x) = true ↔ ∃ w, (int n).worth? = some w ∧ (float x).worth? = some w := by
  unfold worth?
  simp only [equals, compare?]
  cases Double.floatKind x with
  | nan =>
    unfold kindWorth
    simp
  | infinite negative =>
    unfold kindWorth
    cases negative <;> simp
  | finite b =>
    unfold kindWorth
    simp only [beq_iff_eq, Option.some.injEq]
    rw [Binary.comparesEqual]
    constructor
    · intro same
      exact ⟨_, congrArg Worth.finite same, rfl⟩
    · rintro ⟨_, same, rfl⟩
      exact Worth.finite.inj same

theorem floatIntSwap (n : Int) (x : Float) : (float x).equals (.int n) = (int n).equals (.float x) := by
  simp only [equals, compare?]
  cases Double.floatKind x with
  | nan => rfl
  | infinite negative => cases negative <;> rfl
  | finite b =>
    dsimp only
    cases b.compareInt n <;> rfl

end Doubles

variable {a b c : Number}

/-- Numbers are equal exactly if they are worth the same. -/
theorem equalsWorth : a.equals b = true ↔ ∃ w, a.worth? = some w ∧ b.worth? = some w := by
  cases a with
  | int n =>
    cases b with
    | int m =>
      unfold worth?
      simp only [equals, compare?, beq_iff_eq, Option.some.injEq, Int.compare_eq_eq]
      constructor
      · rintro rfl
        exact ⟨_, rfl, rfl⟩
      · rintro ⟨_, rfl, same⟩
        exact_mod_cast (Worth.finite.inj same).symm
    | float y => exact intFloatWorth n y
  | float x =>
    cases b with
    | int m =>
      rw [floatIntSwap, intFloatWorth]
      exact exists_congr fun w => and_comm
    | float y => exact floatsWorth x y

theorem equalsSymm (a b : Number) : a.equals b = b.equals a := by
  rw [Bool.eq_iff_iff, equalsWorth, equalsWorth]
  exact exists_congr fun w => and_comm

theorem equalsTrans (first : a.equals b = true) (second : b.equals c = true) : a.equals c = true := by
  obtain ⟨w, left, middle⟩ := equalsWorth.mp first
  obtain ⟨v, other, right⟩ := equalsWorth.mp second
  obtain rfl := Option.some.inj (middle.symm.trans other)
  exact equalsWorth.mpr ⟨w, left, right⟩

theorem worthValue : (∃ w, a.worth? = some w) ↔ a.hasValue = true := by
  cases a with
  | int n =>
    unfold worth?
    simp [hasValue]
  | float x =>
    unfold worth?
    simp only [hasValue, Double.isNaN]
    unfold Double.kindWorth
    cases floatKind x <;> simp

/-- A number equals itself unless it is NaN. -/
theorem equalsSelf : a.equals a = true ↔ a.hasValue = true := by
  simp only [equalsWorth, and_self, worthValue]

/-- What equals something is not NaN. -/
theorem equalsValue (same : a.equals b = true) : a.hasValue = true := by
  obtain ⟨w, found, -⟩ := equalsWorth.mp same
  exact worthValue.mp ⟨w, found⟩

end Number

end Fragment
