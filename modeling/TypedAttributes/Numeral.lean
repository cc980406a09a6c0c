/-
# Numbers as written

A numeral is a sign, whole digits without superfluous leading zero, and optionally a fraction and an
exponent.  It is read character by character, so that a reader of a longer text knows at each
character whether it belongs to the numeral, ends it, or spoils it.

What was written is kept apart from what it is worth, because a numeral with neither fraction nor
exponent may be wanted as an exact integer, and because there is more than one way to come from
digits to a double.
-/
import TypedAttributes.Double.Rounding

namespace TypedAttributes

/-- A number as written. -/
structure Numeral where
  negative : Bool
  /-- The digits before the point, first to last. -/
  whole : List (Fin 10)
  /-- The digits after the point, first to last; none if no point is written. -/
  fraction : List (Fin 10)
  /-- The exponent, if one is written. -/
  exponent? : Option Int
deriving DecidableEq

namespace Numeral

/-- The number that all digits write, those before and after the point read as one. -/
def digits (n : Numeral) : Nat :=
  (n.whole ++ n.fraction).foldl (fun value d => 10 * value + d.val) 0

/-- Whether neither a fraction nor an exponent is written. -/
def isWhole (n : Numeral) : Bool := n.fraction.isEmpty && n.exponent?.isNone

/-- The magnitude of a numeral. -/
def decimal (n : Numeral) : Decimal := ⟨n.digits, n.exponent?.getD 0 - n.fraction.length⟩

/-- The double nearest to a numeral. -/
def toDouble (n : Numeral) : Double := .ofDecimal n.negative n.decimal

/-- How far the reading of a numeral has come; named for what was read last. -/
inductive Phase where
  | start
  | sign
  /-- A leading zero, after which no digit may follow. -/
  | zero
  | whole
  | point
  | fraction
  /-- The letter before the exponent. -/
  | mark
  | markSign
  | exponent
deriving DecidableEq

/-- A numeral of which some characters have been read. -/
structure Partial where
  phase : Phase := .start
  negative : Bool := false
  /-- The digits before the point, latest first. -/
  whole : List (Fin 10) := []
  /-- The digits after the point, latest first. -/
  fraction : List (Fin 10) := []
  exponentNegative : Bool := false
  exponent : Nat := 0
deriving DecidableEq

/-- What a character does to a numeral that is being read. -/
inductive Next where
  | extended (read : Partial)
  /-- No numeral continues in this way. -/
  | refused
  /-- The numeral is complete, and the character comes after it. -/
  | over

namespace Partial

/-- The value of a digit. -/
def digitValue (c : Char) : Fin 10 := Fin.ofNat 10 (c.toNat - '0'.toNat)

/-- Adds a digit before the point, and says what was read last. -/
def addWholeDigit (p : Partial) (phase : Phase) (c : Char) : Partial :=
  { p with phase := phase, whole := digitValue c :: p.whole }

/-- Adds a digit after the point. -/
def addFractionDigit (p : Partial) (c : Char) : Partial :=
  { p with phase := .fraction, fraction := digitValue c :: p.fraction }

/-- Adds a digit of the exponent. -/
def addExponentDigit (p : Partial) (c : Char) : Partial :=
  { p with phase := .exponent, exponent := 10 * p.exponent + (digitValue c).val }

/-- Reads the first digit. -/
def nextFirst (p : Partial) (c : Char) : Next :=
  if c = '0' then .extended (p.addWholeDigit .zero c)
  else if c.isDigit then .extended (p.addWholeDigit .whole c)
  else .refused

/-- Reads what may follow complete digits: the letter before an exponent. -/
def nextMark (p : Partial) (c : Char) : Next :=
  if c = 'e' ∨ c = 'E' then .extended { p with phase := .mark } else .over

/-- Reads what may follow complete whole digits: a point, or the letter before an exponent. -/
def nextPoint (p : Partial) (c : Char) : Next :=
  if c = '.' then .extended { p with phase := .point } else p.nextMark c

/-- Reads a character. -/
def next (p : Partial) (c : Char) : Next :=
  match p.phase with
  | .start =>
    if c = '-' then .extended { p with phase := .sign, negative := true } else p.nextFirst c
  | .sign => p.nextFirst c
  | .zero => if c.isDigit then .refused else p.nextPoint c
  | .whole => if c.isDigit then .extended (p.addWholeDigit .whole c) else p.nextPoint c
  | .point => if c.isDigit then .extended (p.addFractionDigit c) else .refused
  | .fraction => if c.isDigit then .extended (p.addFractionDigit c) else p.nextMark c
  | .mark =>
    if c = '+' then .extended { p with phase := .markSign }
    else if c = '-' then .extended { p with phase := .markSign, exponentNegative := true }
    else if c.isDigit then .extended (p.addExponentDigit c)
    else .refused
  | .markSign => if c.isDigit then .extended (p.addExponentDigit c) else .refused
  | .exponent => if c.isDigit then .extended (p.addExponentDigit c) else .over

/-- The numeral that has been read, if it may end here. -/
def finish? (p : Partial) : Option Numeral :=
  let numeral (exponent? : Option Int) : Numeral :=
    ⟨p.negative, p.whole.reverse, p.fraction.reverse, exponent?⟩
  match p.phase with
  | .zero | .whole | .fraction => some (numeral none)
  | .exponent => some (numeral (some (if p.exponentNegative then -p.exponent else p.exponent)))
  | _ => none

/-- Whether the exponent read so far already puts the numeral beyond every double: it is at least
`2 ^ 31` and no digit before it can make up for that. -/
def isBoundless (p : Partial) : Bool :=
  p.phase = .exponent && !p.exponentNegative && 0x80000000 ≤ p.exponent &&
    (p.whole.any (· ≠ 0) || p.fraction.any (· ≠ 0))

end Partial

/-- Reads the characters of a numeral one after another. -/
def readAll (p : Partial) : List Char → Option Partial
  | [] => some p
  | c :: rest =>
    match p.next c with
    | .extended p => readAll p rest
    | _ => none

/-- Reads a numeral that makes up the whole text. -/
def ofString? (text : String) : Option Numeral := do (← readAll {} text.toList).finish?

end Numeral

/-- Reads a double from a numeral or from one of the words `NaN`, `inf` and `-inf`. -/
def Double.ofText? (text : String) : Option Double :=
  if text = "NaN" then some .nan
  else if text = "inf" then some (.infinite false)
  else if text = "-inf" then some (.infinite true)
  else (Numeral.ofString? text).map Numeral.toDouble

end TypedAttributes
