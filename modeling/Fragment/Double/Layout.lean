import Fragment.Double.Decimal
import Fragment.Double.Read

/-! How numbers are written.
`valueText` is the spelling used for values in generated code, messages and results; it lays out the
shortest digits. `sourceText` is the spelling of the fragment language: it takes the digits of the
other one and lays them out anew. The two differ in where exponents begin and in whether an integral
value keeps a fraction. -/
namespace Fragment.Double

/-- `count` zeros. -/
def zeros (count : Nat) : List Char := List.replicate count '0'

/-- Digits `ds` with the decimal point after the first `point` of them. -/
def positional (ds : List Char) (point : Int) (wholeMark : List Char) : List Char :=
  if point ≤ 0 then '0' :: '.' :: zeros (-point).toNat ++ ds
  else if ds.length ≤ point then ds ++ zeros (point.toNat - ds.length) ++ wholeMark
  else ds.take point.toNat ++ '.' :: ds.drop point.toNat

/-- Digits `ds` with one of them before the point, then the exponent in at least `width` digits. -/
def scientific (ds : List Char) (exponent : Int) (width : Nat) : List Char :=
  let mantissa := match ds with
    | [] => []
    | [d] => [d]
    | d :: rest => d :: '.' :: rest
  let size := digitChars exponent.natAbs
  mantissa ++ 'e' :: (if exponent < 0 then '-' else '+') :: zeros (width - size.length) ++ size

/-- The spelling of a positive decimal value: positional from `10 ^ -4` up to below `10 ^ 16`, with
a point also in integral values, and exponents of at least two digits. -/
def Decimal.valueChars (d : Decimal) : List Char :=
  let ds := digitChars d.digits
  let point := (ds.length : Int) + d.exponent
  if -4 < point ∧ point ≤ 16 then positional ds point ['.', '0'] else scientific ds (point - 1) 2

/-- A sign in front of a negative number. -/
def signed (negative : Bool) (cs : List Char) : String := String.ofList (if negative then '-' :: cs else cs)

/-- A double as a value is spelled. -/
def valueText (x : Float) : String :=
  match floatKind x with
  | .nan => "nan"
  | .infinite negative => if negative then "-inf" else "inf"
  | .finite b =>
    if b.mantissa = 0 then signed b.negative ['0', '.', '0'] else signed b.negative b.shortest.valueChars

/-- The text before the first `mark`, and the text behind it. -/
def cutAt (mark : Char) (cs : List Char) : List Char × List Char :=
  (cs.takeWhile (· ≠ mark), (cs.dropWhile (· ≠ mark)).drop 1)

/-- The integer that digits with a sign, or without one, spell. -/
def signedDigits (cs : List Char) : Int :=
  match takeSign cs with
  | (['-'], ds) => -(digitsValue ds : Int)
  | (_, ds) => digitsValue ds

/-- Digits without the zeros around them, and the place of the point among what is left. -/
def withoutZeros (ds : List Char) (point : Int) : List Char × Int :=
  let stripped := ds.dropWhile (· = '0')
  let digits := (stripped.reverse.dropWhile (· = '0')).reverse
  (if digits.isEmpty then ['0'] else digits, point - (ds.length - stripped.length : Nat))

/-- The digits of a written decimal without the zeros around them, and the place of the point. -/
def significant (cs : List Char) : List Char × Int :=
  let (mantissa, exponent) := cutAt 'e' cs
  let (whole, part) := cutAt '.' mantissa
  withoutZeros (whole ++ part) (whole.length + signedDigits exponent)

/-- The fragment language's layout of digits: positional from `10 ^ -6` up to below `10 ^ 21`,
integers without a point. -/
def sourceLayout (ds : List Char) (point : Int) : List Char :=
  if -6 < point ∧ point ≤ 21 then positional ds point [] else scientific ds (point - 1) 1

/-- A written decimal in the fragment language's spelling. -/
def sourceChars (cs : List Char) : List Char :=
  let (ds, point) := significant cs
  sourceLayout ds point

/-- A double in the fragment language's spelling; both zeros are `0`. -/
def sourceText (x : Float) : String :=
  match floatKind x with
  | .nan => "NaN"
  | .infinite negative => if negative then "-Infinity" else "Infinity"
  | .finite b => if b.mantissa = 0 then "0" else signed b.negative (sourceChars b.shortest.valueChars)

/-- A double with `places` digits after the point. -/
def fixedText (x : Float) (places : Nat) : String :=
  match floatKind x with
  | .nan => "nan"
  | .infinite negative => if negative then "-inf" else "inf"
  | .finite b =>
    let n := fixedPlaces b.ratio places
    let whole := digitChars (n / Nat.pow 10 places)
    let part := digitChars (n % Nat.pow 10 places)
    signed b.negative <|
      if places = 0 then whole else whole ++ '.' :: zeros (places - part.length) ++ part

/-- A double with one digit before the point, `places` after it, and an exponent. -/
def scientificText (x : Float) (places : Nat) : String :=
  match floatKind x with
  | .nan => "nan"
  | .infinite negative => if negative then "-inf" else "inf"
  | .finite b =>
    let d : Decimal := if b.mantissa = 0 then ⟨0, 0⟩ else leadingDigits b.ratio places
    let ds := if b.mantissa = 0 then zeros (places + 1) else digitChars d.digits
    let exponent := if b.mantissa = 0 then 0 else d.exponent + places
    signed b.negative (scientific ds exponent 2)

end Fragment.Double
