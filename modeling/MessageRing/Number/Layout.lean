import MessageRing.Number.Shortest

/-! How the digits of a number are laid out as text. -/
namespace MessageRing

/-- The decisions of a number format. -/
structure Layout where
  /-- The exponents of first digits that are written without an exponent part. -/
  positional : Int → Bool
  /-- Whole numbers end in `.0`. -/
  pointAlways : Bool
  /-- Where a number halfway between two shortest ones goes. -/
  tie : Tie
  /-- An infinity or a NaN, with its sign. -/
  special : (negative : Bool) → (isNaN : Bool) → String

namespace Layout

/-- The digits with the point after `whole` of them, zeros put in where digits are missing. -/
def placePoint (pointAlways : Bool) (digits : List Char) (whole : Int) : List Char :=
  if whole ≤ 0 then
    '0' :: '.' :: (List.replicate (-whole).toNat '0' ++ digits)
  else
    let n := whole.toNat
    let front := digits.take n ++ List.replicate (n - digits.length) '0'
    match digits.drop n with
    | [] => if pointAlways then front ++ ['.', '0'] else front
    | rest => front ++ '.' :: rest

/-- One digit, the others after a point, and the exponent with its sign. -/
def scientific (digits : List Char) (exponent : Int) : List Char :=
  let mantissa := match digits with
    | d :: rest@(_ :: _) => d :: '.' :: rest
    | short => short
  let sign := if exponent < 0 then '-' else '+'
  mantissa ++ 'e' :: sign :: Nat.toDigits 10 exponent.natAbs

def write (layout : Layout) (x : Binary64) : List Char :=
  if ¬ x.isFinite then (layout.special x.negative x.isNaN).toList
  else
    let d := x.shortest layout.tie
    let digits := Nat.toDigits 10 d.digits
    let body :=
      if layout.positional d.exponent then
        placePoint layout.pointAlways digits (d.power + digits.length)
      else scientific digits d.exponent
    if x.negative then '-' :: body else body

/-- Numbers shown to people: never an exponent, no point in whole numbers. -/
def plain : Layout where
  positional _ := true
  pointAlways := false
  tie := .up
  special negative isNaN := if isNaN then "NaN" else if negative then "-inf" else "inf"

/-- Numbers in JSON: an exponent outside 1e-5 to 1e16, a point in every number without one, and
nothing that is not a number. -/
def json : Layout where
  positional exponent := -5 ≤ exponent ∧ exponent < 16
  pointAlways := true
  tie := .toEven
  special _ _ := "null"

example : String.ofList (json.write ⟨0x7E37E43C8800759C⟩) = "1e+300" ∧
    String.ofList (json.write ⟨0x8000000000000000⟩) = "-0.0" ∧
    String.ofList (plain.write ⟨0x3F1A36E2EB1C432D⟩) = "0.0001" := by decide +kernel

end Layout
end MessageRing
