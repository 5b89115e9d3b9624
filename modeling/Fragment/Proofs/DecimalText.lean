import Fragment.Double.Layout
import Mathlib.Algebra.Order.Field.Power
import Mathlib.Data.List.TakeWhile
import Mathlib.Data.Rat.Cast.Order
import Mathlib.Tactic.FieldSimp
import Mathlib.Tactic.IntervalCases
import Mathlib.Tactic.Linarith
import Mathlib.Tactic.Positivity
import Mathlib.Tactic.Ring

/-! Written decimals.
A decimal is written with digits, perhaps a point with more digits, and perhaps an exponent. What counts of it are its
digits without the zeros around them and the place of the point: they are the same for two texts exactly if these spell
the same number, and every layout of them spells it again. -/
namespace Fragment.Double

open Text (isDecimalDigit digitValue?)

/-- A row of decimal digits. -/
def Digits (ds : List Char) : Prop := ∀ c ∈ ds, c.isDigit = true

/-- The parts of a written decimal. Without a point it has no digits behind it, and the exponent, if it has one, has a
sign, which is true for a minus. -/
structure Spelling where
  whole : List Char
  part : List Char
  exponent : Option (Bool × List Char)
  wholeFilled : whole ≠ []
  wholeDigits : Digits whole
  partDigits : Digits part
  exponentFilled : ∀ e ∈ exponent, e.2 ≠ []
  exponentDigits : ∀ e ∈ exponent, Digits e.2

/-- The point and the digits behind it, if there are any. -/
def pointed (part : List Char) : List Char := if part = [] then [] else '.' :: part

/-- What stands behind the mark of an exponent. -/
def exponentChars (e : Bool × List Char) : List Char := (if e.1 then '-' else '+') :: e.2

namespace Spelling

/-- The digits and the point. -/
def mantissa (g : Spelling) : List Char := g.whole ++ pointed g.part

/-- The exponent and its mark. -/
def tail (g : Spelling) : List Char := g.exponent.elim [] fun e => 'e' :: exponentChars e

/-- The text. -/
def chars (g : Spelling) : List Char := g.mantissa ++ g.tail

/-- The power of ten that the exponent spells. -/
def scale (g : Spelling) : Int := g.exponent.elim 0 fun e => if e.1 then -(digitsValue e.2 : Int) else digitsValue e.2

/-- The number that the text spells. -/
def value (g : Spelling) : ℚ := (digitsValue g.whole + digitsValue g.part / 10 ^ g.part.length) * 10 ^ g.scale

end Spelling

/-! Digits -/

section Values

variable {ds es : List Char} {c : Char} {point : Int}

theorem digitAscii (digit : c.isDigit = true) : digitValue? c = some (c.toNat - 48) ∧ 48 ≤ c.toNat ∧ c.toNat ≤ 57 := by
  have bounds : 48 ≤ c.toNat ∧ c.toNat ≤ 57 := by
    simpa [Char.isDigit, UInt32.le_iff_toNat_le] using digit
  refine ⟨?_, bounds⟩
  rw [digitValue?, if_pos (by omega), if_pos digit]

theorem digitDecimal (digit : c.isDigit = true) : isDecimalDigit c = true := by
  rw [isDecimalDigit, (digitAscii digit).1, Option.isSome_some]

theorem Digits.decimal (digits : Digits ds) : ds.all isDecimalDigit = true :=
  List.all_eq_true.mpr fun c member => digitDecimal (digits c member)

theorem digitsAppend : Digits (ds ++ es) ↔ Digits ds ∧ Digits es := by
  simp only [Digits, List.mem_append, or_imp, forall_and]

theorem digitsZeros (count : Nat) : Digits (zeros count) := fun _ member => List.eq_of_mem_replicate member ▸ rfl

theorem valueFrom (n : Nat) (ds : List Char) :
    ds.foldl (fun n c => n * 10 + (digitValue? c).getD 0) n = n * 10 ^ ds.length + digitsValue ds := by
  induction ds generalizing n with
  | nil => simp [digitsValue]
  | cons c ds ih =>
    rw [digitsValue, List.foldl_cons, List.foldl_cons, ih, ih, List.length_cons]
    ring

theorem valueAppend (ds es : List Char) : digitsValue (ds ++ es) = digitsValue ds * 10 ^ es.length + digitsValue es := by
  rw [digitsValue, List.foldl_append, valueFrom]
  rfl

theorem valueCons (c : Char) (ds : List Char) :
    digitsValue (c :: ds) = (digitValue? c).getD 0 * 10 ^ ds.length + digitsValue ds := by
  rw [digitsValue, List.foldl_cons, valueFrom, Nat.zero_mul, Nat.zero_add]

theorem valueZeros (count : Nat) : digitsValue (zeros count) = 0 := by
  induction count with
  | zero => rfl
  | succ count ih =>
    have none : (digitValue? '0').getD 0 = 0 := by decide
    rw [zeros, List.replicate_succ, valueCons, ← zeros, ih, none, Nat.zero_mul]

theorem valueBelow (digits : Digits ds) : digitsValue ds < 10 ^ ds.length := by
  induction ds with
  | nil => decide
  | cons c ds ih =>
    obtain ⟨digit, rest⟩ := List.forall_mem_cons.mp digits
    have small : (digitValue? c).getD 0 ≤ 9 := by
      obtain ⟨value, low, high⟩ := digitAscii digit
      rw [value, Option.getD_some]
      omega
    have least := ih rest
    rw [valueCons, List.length_cons, pow_succ]
    nlinarith

/-- Rows of one length that spell the same number are the same. -/
theorem valueUnique (first : Digits ds) (second : Digits es) (length : ds.length = es.length)
    (same : digitsValue ds = digitsValue es) : ds = es := by
  induction ds generalizing es with
  | nil => exact (List.eq_nil_of_length_eq_zero length.symm).symm
  | cons c ds ih =>
    cases es with
    | nil => cases length
    | cons d es =>
      obtain ⟨digit, rest⟩ := List.forall_mem_cons.mp first
      obtain ⟨other, behind⟩ := List.forall_mem_cons.mp second
      obtain ⟨value, low, -⟩ := digitAscii digit
      obtain ⟨worth, least, -⟩ := digitAscii other
      have size := Nat.succ.inj length
      have small := valueBelow rest
      have few := valueBelow behind
      rw [valueCons, valueCons, value, worth, Option.getD_some, Option.getD_some, size] at same
      rw [size] at small
      have heads : c.toNat - 48 = d.toNat - 48 := by
        have quotients := congrArg (· / 10 ^ es.length) same
        have positive : 0 < 10 ^ es.length := by positivity
        simpa [Nat.mul_comm _ (10 ^ es.length), Nat.mul_add_div positive, Nat.div_eq_of_lt small, Nat.div_eq_of_lt few]
          using quotients
      have letters : c = d := Char.toNat_inj.mp (by omega)
      rw [letters, ih rest behind size (by rw [heads] at same; omega)]

/-- The number with these digits and the point after so many of them. -/
def placed (ds : List Char) (point : Int) : ℚ := digitsValue ds * 10 ^ (point - ds.length)

theorem placedLeading (count : Nat) (ds : List Char) (point : Int) :
    placed (zeros count ++ ds) point = placed ds (point - count) := by
  rw [placed, placed, valueAppend, valueZeros, Nat.zero_mul, Nat.zero_add, List.length_append, zeros, List.length_replicate]
  congr 2
  push_cast
  ring

theorem placedTrailing (ds : List Char) (count : Nat) (point : Int) : placed (ds ++ zeros count) point = placed ds point := by
  rw [placed, placed, valueAppend, valueZeros, Nat.add_zero, List.length_append, zeros, List.length_replicate, Nat.cast_mul,
    Nat.cast_pow, Nat.cast_ofNat, mul_assoc, ← zpow_natCast, ← zpow_add₀ (by norm_num)]
  congr 2
  push_cast
  ring

end Values

/-! Digits without zeros around them -/

/-- Digits with no zero at either end. -/
structure Significant (ds : List Char) : Prop where
  digits : Digits ds
  filled : ds ≠ []
  first : ds.head? ≠ some '0'
  last : ds.getLast? ≠ some '0'

section Zeros

variable {ds es : List Char} {point place : Int}

theorem zerosBefore (ds : List Char) : ∃ count, ds = zeros count ++ ds.dropWhile (· = '0') := by
  refine ⟨(ds.takeWhile (· = '0')).length, ?_⟩
  have all : zeros (ds.takeWhile (· = '0')).length = ds.takeWhile (· = '0') :=
    (List.eq_replicate_of_mem fun c member => by simpa using List.mem_takeWhile_imp member).symm
  rw [all, List.takeWhile_append_dropWhile]

theorem zerosBehind (ds : List Char) : ∃ count, ds = (ds.reverse.dropWhile (· = '0')).reverse ++ zeros count := by
  obtain ⟨count, same⟩ := zerosBefore ds.reverse
  refine ⟨count, ?_⟩
  have reversed := congrArg List.reverse same
  rwa [List.reverse_reverse, List.reverse_append, zeros, List.reverse_replicate] at reversed

theorem strippedFirst (ds : List Char) : (ds.dropWhile (· = '0')).head? ≠ some '0' := by
  intro first
  have stops := List.head?_dropWhile_not (fun c => decide (c = '0')) ds
  rw [first] at stops
  exact absurd stops (by decide)

/-- What is left of a number's digits has no zero around it and spells the same number. -/
theorem withoutZerosKeeps (digits : Digits ds) (some : digitsValue ds ≠ 0) (point : Int) :
    Significant (withoutZeros ds point).1 ∧ placed (withoutZeros ds point).1 (withoutZeros ds point).2 = placed ds point := by
  obtain ⟨leading, front⟩ := zerosBefore ds
  obtain ⟨trailing, behind⟩ := zerosBehind (ds.dropWhile (· = '0'))
  have first := strippedFirst ds
  have last := strippedFirst (ds.dropWhile (· = '0')).reverse
  rw [← List.getLast?_reverse] at last
  have length : ds.length - (ds.dropWhile (· = '0')).length = leading := by
    have sizes := congrArg List.length front
    rw [List.length_append, zeros, List.length_replicate] at sizes
    omega
  simp only [withoutZeros, length]
  generalize (ds.dropWhile (· = '0')).reverse.dropWhile (· = '0') = kept at behind last
  generalize ds.dropWhile (· = '0') = stripped at front behind first
  have filled : kept.reverse ≠ [] := by
    intro none
    rw [front, behind, none, valueAppend, valueAppend, valueZeros, valueZeros] at some
    simp [digitsValue] at some
  rw [if_neg (by simpa using filled)]
  subst behind front
  refine ⟨⟨(digitsAppend.mp (digitsAppend.mp digits).2).1, filled, ?_, last⟩, ?_⟩
  · rwa [List.head?_append_of_ne_nil _ filled] at first
  · rw [placedLeading, placedTrailing]

/-- The point stands where the number's power of ten says. -/
theorem Significant.bounds (significant : Significant ds) (point : Int) :
    10 ^ (point - 1) ≤ placed ds point ∧ placed ds point < 10 ^ point := by
  have less := valueBelow significant.digits
  obtain ⟨c, rest, rfl⟩ := List.exists_cons_of_ne_nil significant.filled
  have digit := significant.digits c List.mem_cons_self
  have first := significant.first
  have most : 10 ^ rest.length ≤ digitsValue (c :: rest) := by
    obtain ⟨value, low, -⟩ := digitAscii digit
    have zero : c.toNat ≠ 48 := fun zero => first (congrArg some (Char.toNat_inj.mp zero))
    rw [valueCons, value, Option.getD_some]
    nlinarith [Nat.one_le_pow rest.length 10 (by decide), show 1 ≤ c.toNat - 48 by omega]
  rw [List.length_cons] at less
  have scale : (0 : ℚ) < 10 ^ (point - (rest.length + 1 : Nat)) := by positivity
  have low : (10 : ℚ) ^ (point - 1) = (10 ^ rest.length : Nat) * 10 ^ (point - (rest.length + 1 : Nat)) := by
    rw [Nat.cast_pow, Nat.cast_ofNat, ← zpow_natCast, ← zpow_add₀ (by norm_num)]
    congr 1
    push_cast
    ring
  have high : (10 : ℚ) ^ point = (10 ^ (rest.length + 1) : Nat) * 10 ^ (point - (rest.length + 1 : Nat)) := by
    rw [Nat.cast_pow, Nat.cast_ofNat, ← zpow_natCast, ← zpow_add₀ (by norm_num)]
    congr 1
    ring
  rw [placed, List.length_cons, low, high]
  constructor
  · gcongr
  · gcongr

theorem Significant.longer (first : Significant ds) (second : Significant es) (same : placed ds point = placed es point)
    (length : ds.length ≤ es.length) : ds = es := by
  obtain ⟨count, size⟩ := Nat.exists_eq_add_of_le length
  have scale : (10 : ℚ) ^ (point - es.length) ≠ 0 := by positivity
  have padded : (ds ++ zeros count).length = es.length := by simp [zeros, size]
  have value : digitsValue (ds ++ zeros count) = digitsValue es := by
    rw [← placedTrailing ds count, placed, placed, padded] at same
    exact_mod_cast mul_right_cancel₀ scale same
  have whole := valueUnique (digitsAppend.mpr ⟨first.digits, digitsZeros count⟩) second.digits padded value
  cases count with
  | zero => rwa [zeros, List.replicate_zero, List.append_nil] at whole
  | succ count =>
    refine absurd ?_ second.last
    rw [← whole, zeros, List.replicate_succ', ← List.append_assoc, List.getLast?_concat]

/-- A number has one row of digits without zeros around them, and one place of the point. -/
theorem Significant.unique (first : Significant ds) (second : Significant es) (same : placed ds point = placed es place) :
    ds = es ∧ point = place := by
  have one := first.bounds point
  have two := second.bounds place
  have base : (1 : ℚ) < 10 := by norm_num
  have before := (zpow_lt_zpow_iff_right₀ base).mp (one.1.trans_lt (same.trans_lt two.2))
  have behind := (zpow_lt_zpow_iff_right₀ base).mp (two.1.trans_lt (same.symm.trans_lt one.2))
  obtain rfl : point = place := by omega
  refine ⟨?_, rfl⟩
  obtain fewer | more := Nat.le_total ds.length es.length
  · exact first.longer second same fewer
  · exact (second.longer first same.symm more).symm

end Zeros

/-! The parts of a text -/

section Parts

variable {front rest ds part : List Char} {mark : Char}

theorem cutAhead (apart : mark ∉ front) (rest : List Char) :
    cutAt mark (front ++ rest) = (front ++ (cutAt mark rest).1, (cutAt mark rest).2) := by
  have other : ∀ c ∈ front, decide (c ≠ mark) = true := fun c member => decide_eq_true fun same => apart (same ▸ member)
  rw [cutAt, List.takeWhile_append_of_pos other, List.dropWhile_append_of_pos other, cutAt]

theorem cutMark (mark : Char) (rest : List Char) : cutAt mark (mark :: rest) = ([], rest) := by
  simp [cutAt]

theorem Digits.apart (digits : Digits ds) (mark : Char) (other : mark.isDigit = false) : mark ∉ ds := fun member => by
  rw [digits mark member] at other
  cases other

theorem cutPoint (digits : Digits ds) (part : List Char) : cutAt '.' (ds ++ pointed part) = (ds, part) := by
  rw [cutAhead (digits.apart '.' rfl), pointed]
  split
  case isTrue none => rw [none, cutAt, List.takeWhile_nil, List.append_nil, List.dropWhile_nil, List.drop_nil]
  case isFalse => rw [cutMark, List.append_nil]

theorem Spelling.plain (g : Spelling) : 'e' ∉ g.mantissa := by
  have whole := g.wholeDigits.apart 'e' rfl
  have part := g.partDigits.apart 'e' rfl
  rw [Spelling.mantissa, pointed]
  split <;> simp [whole, part]

theorem Spelling.cut (g : Spelling) : cutAt 'e' g.chars = (g.mantissa, g.exponent.elim [] exponentChars) := by
  rw [Spelling.chars, cutAhead g.plain, Spelling.tail]
  cases g.exponent with
  | none => rw [Option.elim_none, Option.elim_none, cutAt, List.takeWhile_nil, List.append_nil, List.dropWhile_nil, List.drop_nil]
  | some e => rw [Option.elim_some, Option.elim_some, cutMark, List.append_nil]

/-- A decimal is read by its digits and its point, the exponent included. -/
theorem significantSpelling (g : Spelling) :
    significant g.chars = withoutZeros (g.whole ++ g.part) (g.whole.length + g.scale) := by
  have scale : signedDigits (g.exponent.elim [] exponentChars) = g.scale := by
    rw [Spelling.scale]
    cases g.exponent with
    | none => rfl
    | some e =>
      obtain ⟨negative, size⟩ := e
      cases negative <;> rfl
  simp only [significant, g.cut, Spelling.mantissa, cutPoint g.wholeDigits, scale]

theorem exponentOnce {d e : Bool × List Char} (same : exponentChars d = exponentChars e) : d = e := by
  obtain ⟨mark, digits⟩ := List.cons_eq_cons.mp same
  refine Prod.ext ?_ digits
  cases first : d.1 <;> cases second : e.1 <;> simp [first, second] at mark ⊢

/-- A text is a decimal in one way only. -/
theorem Spelling.once {g h : Spelling} (same : g.chars = h.chars) : g = h := by
  have marks := congrArg (cutAt 'e') same
  rw [g.cut, h.cut] at marks
  obtain ⟨mantissas, exponents⟩ := Prod.ext_iff.mp marks
  rw [Spelling.mantissa, Spelling.mantissa] at mantissas
  have points := congrArg (cutAt '.') mantissas
  rw [cutPoint g.wholeDigits, cutPoint h.wholeDigits] at points
  obtain ⟨wholes, parts⟩ := Prod.ext_iff.mp points
  obtain ⟨whole, part, exponent⟩ := g
  obtain ⟨first, rest, other⟩ := h
  cases wholes
  cases parts
  suffices scales : exponent = other by cases scales; rfl
  dsimp only at exponents
  cases exponent with
  | none => cases other with
    | none => rfl
    | some => cases exponents
  | some e => cases other with
    | none => cases exponents
    | some d => rw [exponentOnce exponents]

theorem Spelling.placed (g : Spelling) : g.value = placed (g.whole ++ g.part) (g.whole.length + g.scale) := by
  have power : (10 : ℚ) ^ g.part.length ≠ 0 := by positivity
  rw [Spelling.value, Double.placed, valueAppend, List.length_append]
  rw [show (g.whole.length + g.scale - (g.whole.length + g.part.length : Nat) : Int) = g.scale - g.part.length by push_cast; ring]
  rw [zpow_sub₀ (by norm_num), zpow_natCast]
  push_cast
  field_simp

theorem Spelling.digits (g : Spelling) : Digits (g.whole ++ g.part) := digitsAppend.mpr ⟨g.wholeDigits, g.partDigits⟩

end Parts

/-! Layouts -/

section Layouts

variable {ds : List Char} {point : Int}

theorem pointedSome {part : List Char} (filled : part ≠ []) : pointed part = '.' :: part := if_neg filled

/-- Digits laid out around a point. -/
theorem positionalSpells (digits : Digits ds) (filled : ds ≠ []) (point : Int) (count : Nat) :
    ∃ h : Spelling, h.chars = positional ds point (pointed (zeros count)) ∧ h.value = placed ds point ∧ h.exponent = none ∧
      (ds.getLast? ≠ some '0' → count = 0 → h.part.getLast? ≠ some '0') := by
  unfold positional
  split
  case isTrue low =>
    have part : zeros (-point).toNat ++ ds ≠ [] := List.append_ne_nil_of_right_ne_nil _ filled
    let h : Spelling :=
      ⟨zeros 1, zeros (-point).toNat ++ ds, none, by decide, digitsZeros 1, digitsAppend.mpr ⟨digitsZeros _, digits⟩,
        nofun, nofun⟩
    refine ⟨h, ?_, ?_, rfl, fun last _ => ?_⟩
    · rw [Spelling.chars, Spelling.mantissa, pointedSome part, Spelling.tail, Option.elim_none, List.append_nil]
      rfl
    · rw [h.placed, placedLeading, placedLeading]
      congr 1
      have length : h.whole.length = 1 := rfl
      have scale : h.scale = 0 := rfl
      omega
    · rwa [show h.part = zeros (-point).toNat ++ ds from rfl, List.getLast?_append_of_ne_nil _ filled]
  case isFalse high =>
  split
  case isTrue whole =>
    let h : Spelling :=
      ⟨ds ++ zeros (point.toNat - ds.length), zeros count, none, List.append_ne_nil_of_left_ne_nil filled _,
        digitsAppend.mpr ⟨digits, digitsZeros _⟩, digitsZeros count, nofun, nofun⟩
    refine ⟨h, ?_, ?_, rfl, fun _ none => ?_⟩
    · rw [Spelling.chars, Spelling.mantissa, Spelling.tail, Option.elim_none, List.append_nil]
    · rw [h.placed, placedTrailing, placedTrailing]
      congr 1
      have length : h.whole.length = ds.length + (point.toNat - ds.length) := by simp [h, zeros]
      have scale : h.scale = 0 := rfl
      omega
    · rw [show h.part = zeros count from rfl, none]
      nofun
  case isFalse inside =>
    have some : ds.drop point.toNat ≠ [] := by simp; omega
    let h : Spelling :=
      ⟨ds.take point.toNat, ds.drop point.toNat, none, by simp [filled]; omega,
        fun c member => digits c (List.mem_of_mem_take member), fun c member => digits c (List.mem_of_mem_drop member),
        nofun, nofun⟩
    refine ⟨h, ?_, ?_, rfl, fun last _ => ?_⟩
    · rw [Spelling.chars, Spelling.mantissa, pointedSome some, Spelling.tail, Option.elim_none, List.append_nil]
    · rw [h.placed, List.take_append_drop]
      congr 1
      have length : h.whole.length = point.toNat := by simp [h]; omega
      have scale : h.scale = 0 := rfl
      omega
    · rwa [show h.part = ds.drop point.toNat from rfl, List.getLast?_drop, if_neg (by omega)]

theorem digitCharsFilled (n : Nat) : digitChars n ≠ [] := by
  simp [digitChars, Nat.repr, Nat.toDigits_ne_nil]

theorem digitCharsDigits (n : Nat) : Digits (digitChars n) := fun c member =>
  Nat.isDigit_of_mem_toDigits (b := 10) (n := n) (by decide) (by decide) (by simpa [digitChars, Nat.repr] using member)

theorem digitCharsValue (n : Nat) : digitsValue (digitChars n) = n := by
  rw [digitChars, Nat.repr, String.toList_ofList]
  induction n using Nat.strongRecOn with
  | ind n ih =>
    rw [Nat.toDigits_eq_if (by decide)]
    split
    case isTrue small => interval_cases n <;> decide
    case isFalse large =>
      rw [valueAppend, ih (n / 10) (by omega)]
      have last : digitsValue [(n % 10).digitChar] = n % 10 := by
        have small := Nat.mod_lt n (show 0 < 10 by decide)
        interval_cases n % 10 <;> decide
      rw [last, List.length_singleton]
      omega

/-- Digits laid out with one of them before the point, and an exponent. -/
theorem scientificSpells (digits : Digits ds) (filled : ds ≠ []) (exponent : Int) (width : Nat) :
    ∃ h : Spelling, h.chars = scientific ds exponent width ∧ h.value = placed ds (exponent + 1) ∧ h.exponent.isSome ∧
      (ds.getLast? ≠ some '0' → h.part.getLast? ≠ some '0') := by
  obtain ⟨d, rest, rfl⟩ := List.exists_cons_of_ne_nil filled
  obtain ⟨digit, behind⟩ := List.forall_mem_cons.mp digits
  generalize shown : zeros (width - (digitChars exponent.natAbs).length) ++ digitChars exponent.natAbs = size
  have sizeFilled : size ≠ [] := shown ▸ List.append_ne_nil_of_right_ne_nil _ (digitCharsFilled _)
  have sizeDigits : Digits size := shown ▸ digitsAppend.mpr ⟨digitsZeros _, digitCharsDigits _⟩
  have sizeValue : digitsValue size = exponent.natAbs := by
    rw [← shown, valueAppend, valueZeros, Nat.zero_mul, Nat.zero_add, digitCharsValue]
  let h : Spelling :=
    ⟨[d], rest, some (exponent < 0, size), by simp, by simpa [Digits] using digit, behind, by simpa using sizeFilled,
      by simpa using sizeDigits⟩
  refine ⟨h, ?_, ?_, rfl, fun last => ?_⟩
  · simp only [scientific, Spelling.chars, Spelling.mantissa, Spelling.tail, List.append_assoc, List.cons_append, shown, h,
      Option.elim_some, exponentChars, decide_eq_true_eq]
    cases rest <;> rfl
  · rw [h.placed]
    congr 1
    have length : h.whole.length = 1 := rfl
    have scale : h.scale = exponent := by
      simp only [h, Spelling.scale, Option.elim_some, sizeValue, decide_eq_true_eq]
      split <;> omega
    omega
  · show rest.getLast? ≠ some '0'
    cases rest with
    | nil => nofun
    | cons c rest => rwa [List.getLast?_cons_cons] at last

/-- A positive decimal as it is spelled. -/
theorem valueSpells (d : Decimal) : ∃ g : Spelling, g.chars = d.valueChars ∧
    g.value = placed (digitChars d.digits) ((digitChars d.digits).length + d.exponent) := by
  have digits := digitCharsDigits d.digits
  have filled := digitCharsFilled d.digits
  simp only [Decimal.valueChars]
  split
  · obtain ⟨g, chars, value, -⟩ := positionalSpells digits filled ((digitChars d.digits).length + d.exponent) 1
    exact ⟨g, chars, value⟩
  · obtain ⟨g, chars, value, -⟩ := scientificSpells digits filled ((digitChars d.digits).length + d.exponent - 1) 2
    exact ⟨g, chars, by rw [value, sub_add_cancel]⟩

/-- Digits in the layout of the fragment language: where it has an exponent, the number is large or small. -/
theorem sourceLayoutSpells (significant : Significant ds) (point : Int) :
    ∃ h : Spelling, h.chars = sourceLayout ds point ∧ h.value = placed ds point ∧ h.part.getLast? ≠ some '0' ∧
      (h.exponent.isSome ↔ 10 ^ 21 ≤ h.value ∨ h.value < 10 ^ (-6 : Int)) := by
  obtain ⟨least, most⟩ := significant.bounds point
  have base : (1 : ℚ) < 10 := by norm_num
  unfold sourceLayout
  split
  case isTrue inside =>
    obtain ⟨h, chars, value, plain, part⟩ := positionalSpells significant.digits significant.filled point 0
    refine ⟨h, chars, value, part significant.last rfl, ?_⟩
    have low : (10 : ℚ) ^ (-6 : Int) ≤ h.value := value ▸ (zpow_le_zpow_right₀ base.le (by omega)).trans least
    have high : h.value < (10 : ℚ) ^ (21 : Int) := value ▸ most.trans_le (zpow_le_zpow_right₀ base.le inside.2)
    rw [plain, ← zpow_ofNat]
    simpa using ⟨high, low⟩
  case isFalse outside =>
    obtain ⟨h, chars, value, exponent, part⟩ := scientificSpells significant.digits significant.filled (point - 1) 1
    rw [sub_add_cancel] at value
    refine ⟨h, chars, value, part significant.last, iff_of_true exponent ?_⟩
    rw [value, ← zpow_ofNat]
    obtain small | large : point ≤ -6 ∨ 22 ≤ point := by omega
    · exact .inr (most.trans_le (zpow_le_zpow_right₀ base.le small))
    · exact .inl ((zpow_le_zpow_right₀ base.le (by omega)).trans least)

section Numbers

variable {g h : Spelling}

theorem significantKeeps (number : g.value ≠ 0) :
    Significant (significant g.chars).1 ∧ placed (significant g.chars).1 (significant g.chars).2 = g.value := by
  have digits : digitsValue (g.whole ++ g.part) ≠ 0 := by
    intro none
    rw [g.placed, Double.placed, none, Nat.cast_zero, zero_mul] at number
    exact number rfl
  rw [significantSpelling, g.placed]
  exact withoutZerosKeeps g.digits digits _

/-- A written decimal in the spelling of the fragment language. -/
theorem sourceSpells (number : g.value ≠ 0) : ∃ h : Spelling, h.chars = sourceChars g.chars ∧ h.value = g.value ∧
    h.part.getLast? ≠ some '0' ∧ (h.exponent.isSome ↔ 10 ^ 21 ≤ g.value ∨ g.value < 10 ^ (-6 : Int)) := by
  obtain ⟨significant, kept⟩ := significantKeeps number
  rw [← kept]
  obtain ⟨h, chars, value, part, exponent⟩ := sourceLayoutSpells significant _
  exact ⟨h, chars, value, part, value ▸ exponent⟩

/-- Two texts for one number are spelled alike. -/
theorem sourceAgrees (number : g.value ≠ 0) (same : g.value = h.value) : sourceChars g.chars = sourceChars h.chars := by
  obtain ⟨first, kept⟩ := significantKeeps number
  obtain ⟨second, held⟩ := significantKeeps (same ▸ number)
  obtain ⟨digits, point⟩ := first.unique second (kept.trans (same.trans held.symm))
  rw [sourceChars, sourceChars, Prod.ext digits point]

end Numbers

end Layouts

end Fragment.Double
