import MessageRing.Number.Binary64

/-!
Numerals as JSON writes them, and the numbers that they stand for.
-/
namespace MessageRing

structure Numeral where
  negative : Bool
  whole : List Char
  /-- The digits after the point, if there is one. -/
  fraction : Option (List Char)
  exponent : Option Int
  deriving DecidableEq, Repr

namespace Numeral

/-- Takes the digits that a text begins with. -/
def takeDigits (cs : List Char) : List Char × List Char :=
  (cs.takeWhile Char.isDigit, cs.dropWhile Char.isDigit)

def value (digits : List Char) : Nat :=
  digits.foldl (fun n c => n * 10 + (c.toNat - '0'.toNat)) 0

/-- The digits before the point: at least one, and no zero before another digit. -/
def readWhole (cs : List Char) : Option (List Char × List Char) :=
  match takeDigits cs with
  | ([], _) => none
  | ('0' :: _ :: _, _) => none
  | taken => some taken

/-- A point is followed by at least one digit. -/
def readFraction : List Char → Option (Option (List Char) × List Char)
  | '.' :: cs =>
    match takeDigits cs with
    | ([], _) => none
    | (digits, rest) => some (some digits, rest)
  | cs => some (none, cs)

/-- The digits of an exponent: at least one, after an optional sign. -/
def readExponentDigits (cs : List Char) : Option (Int × List Char) :=
  let (sign, cs) : Int × List Char := match cs with
    | '+' :: cs => (1, cs)
    | '-' :: cs => (-1, cs)
    | cs => (1, cs)
  match takeDigits cs with
  | ([], _) => none
  | (digits, rest) => some (sign * value digits, rest)

def readExponent : List Char → Option (Option Int × List Char)
  | 'e' :: cs => (readExponentDigits cs).map fun (n, rest) => (some n, rest)
  | 'E' :: cs => (readExponentDigits cs).map fun (n, rest) => (some n, rest)
  | cs => some (none, cs)

def read (cs : List Char) : Option (Numeral × List Char) := do
  let (negative, cs) := match cs with
    | '-' :: cs => (true, cs)
    | cs => (false, cs)
  let (whole, cs) ← readWhole cs
  let (fraction, cs) ← readFraction cs
  let (exponent, cs) ← readExponent cs
  return ({ negative, whole, fraction, exponent }, cs)

/-- The integer that a numeral stands for, if it has neither point nor exponent and fits in 64
bits. The numeral `-0` stands for the float. -/
def toInt? (n : Numeral) : Option Int :=
  if n.fraction.isSome ∨ n.exponent.isSome then none
  else
    let size := value n.whole
    if n.negative then
      if size = 0 ∨ size > UInt64.size / 2 then none else some (-size)
    else if size < UInt64.size / 2 then some size else none

/-- Digits taken into a number of 64 bits until one does not fit, and how many were taken. -/
def absorb (n : Nat) : List Char → Nat × Nat
  | [] => (n, 0)
  | c :: rest =>
    let grown := n * 10 + (c.toNat - '0'.toNat)
    if grown < UInt64.size then
      let (n, taken) := absorb grown rest
      (n, taken + 1)
    else (n, 0)

/-- A number of 64 bits times a power of ten: the number and the power, each rounded to a float,
multiplied or divided. A power out of the floats' range is reached in steps. -/
def scale (x : Binary64) (power : Int) : Option Binary64 :=
  if power.natAbs ≤ 308 then
    (Binary64.ofNat? (Nat.pow 10 power.natAbs)).bind fun ten =>
      if power ≥ 0 then x.mul? ten else x.div? ten
  else if x.isZero then some x
  else if power ≥ 0 then none
  else (Binary64.ofNat? (Nat.pow 10 308)).bind fun ten => (x.div? ten).bind (scale · (power + 308))
termination_by power.natAbs
decreasing_by omega

/-- The float that a numeral stands for, unless it is too large. Digits beyond 64 bits only count
as places. -/
def toBinary64? (n : Numeral) : Option Binary64 := do
  let (whole, taken) := absorb 0 n.whole
  let (digits, places) := absorb whole (n.fraction.getD [])
  let power : Int := (n.whole.length - taken : Nat) - places + n.exponent.getD 0
  let x ← scale (← Binary64.ofNat? digits) power
  return if n.negative then x.neg else x

end Numeral
end MessageRing
