/-
# Doubles as text

A finite double is written with the digits of its shortest decimal.  What remains is layout: whether
the digits are laid out around a decimal point or followed by an exponent, and whether a whole
number keeps a point.  These decisions are a `DoubleStyle`; `DoubleStyle.plain` is the one of
messages and displayed values, which never uses an exponent.
-/
import TypedAttributes.Double.Shortest

namespace TypedAttributes

/-- How a finite double is laid out. -/
structure DoubleStyle where
  /-- Which of two equally near shortest decimals is written. -/
  tie : Tie
  /-- Whether a whole number that is written positionally ends in `.0`. -/
  pointZero : Bool
  /-- Whether a number whose first digit has this decimal exponent is written positionally. -/
  positional : Int → Bool

namespace DoubleStyle

/-- Digits around a decimal point: `point` of them stand before it. -/
def layPositional (pointZero : Bool) (digits : List Char) (point : Int) : List Char :=
  if point ≤ 0 then
    '0' :: '.' :: (List.replicate (-point).toNat '0' ++ digits)
  else if digits.length ≤ point.toNat then
    digits ++ List.replicate (point.toNat - digits.length) '0' ++
      (if pointZero then ['.', '0'] else [])
  else
    digits.take point.toNat ++ '.' :: digits.drop point.toNat

/-- Digits with a point after the first one, and a signed exponent. -/
def layScientific (digits : List Char) (point : Int) : List Char :=
  let exponent := point - 1
  let mantissa :=
    match digits with
    | [] => []
    | [d] => [d]
    | d :: rest => d :: '.' :: rest
  mantissa ++ 'e' :: (if exponent < 0 then '-' else '+') :: Nat.toDigits 10 exponent.natAbs

/-- The characters of a decimal that is not negative. -/
def layDecimal (style : DoubleStyle) (d : Decimal) : List Char :=
  let digits := Nat.toDigits 10 d.digits
  let point := digits.length + d.exponent
  if style.positional (point - 1) then layPositional style.pointZero digits point
  else layScientific digits point

/-- The text of the finite number with the given sign and rank. -/
def text (style : DoubleStyle) (negative : Bool) (rank : Nat) : String :=
  let body := style.layDecimal (Double.shortest style.tie rank)
  String.ofList (if negative then '-' :: body else body)

/-- No exponent, no point after a whole number, and ties go up. -/
def plain : DoubleStyle where
  tie := .up
  pointZero := false
  positional _ := true

example : plain.text false 0x3FB999999999999A = "0.1" := by decide +kernel

/-- The exact value is `2.98023223876953125e-8`, halfway between two shortest decimals. -/
example : plain.text true 0x3E60000000000000 = "-0.000000029802322387695313" := by decide +kernel

end DoubleStyle

/-- The text of a double in messages and displayed values: `1`, `-0`, `0.1`, `NaN`, `inf`,
`-inf`. -/
def Double.text : Double → String
  | .nan => "NaN"
  | .infinite false => "inf"
  | .infinite true => "-inf"
  | .finite negative rank => DoubleStyle.plain.text negative rank

end TypedAttributes
