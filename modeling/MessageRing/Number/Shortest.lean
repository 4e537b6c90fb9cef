import MessageRing.Number.Binary64

/-!
The shortest decimal digits that read back as a given number.

A number stands for all reals that round to it. Among the decimal grids with 1, 2, … digits the
first one with a point in that interval is taken, and on it the point nearest to the number. When
two points are equally near the format says which one it is.
-/
namespace MessageRing

/-- A natural number times a power of ten. -/
structure Decimal where
  digits : Nat
  power : Int
  deriving DecidableEq, Repr

namespace Decimal

def ratio (d : Decimal) : Nat × Nat :=
  match d.power with
  | .ofNat p => (d.digits * Nat.pow 10 p, 1)
  | .negSucc p => (d.digits, Nat.pow 10 (p + 1))

def digitCount (n : Nat) : Nat := (Nat.toDigits 10 n).length

/-- The power of ten of the first digit of a positive quotient. -/
def leadingPower (num den : Nat) : Int :=
  if den ≤ num then digitCount (num / den) - 1 else -(digitCount ((den - 1) / num))

/-- The same value without zeros at the end of its digits. -/
def trim (d : Decimal) : Decimal :=
  go (digitCount d.digits) d
where
  go : Nat → Decimal → Decimal
    | 0, d => d
    | fuel + 1, d =>
      if d.digits ≠ 0 ∧ d.digits % 10 = 0 then go fuel ⟨d.digits / 10, d.power + 1⟩ else d

/-- The power of ten of the first digit. -/
def exponent (d : Decimal) : Int := d.power + digitCount d.digits - 1

end Decimal

/-- Which of two neighbours on a grid stands for the number halfway between them. -/
inductive Tie where
  /-- The larger one, of the amounts without their signs. -/
  | up
  /-- The one whose last digit is even. -/
  | toEven
  deriving DecidableEq, Repr, Inhabited

/-- Of the multiples `n` and `n + 1` of a unit the larger one stands for the amount that is `rest`
above the lower one. -/
def Tie.goesUp (tie : Tie) (n rest unit : Nat) : Bool :=
  match tie with
  | .up => unit ≤ 2 * rest
  | .toEven => unit < 2 * rest ∨ (unit = 2 * rest ∧ n % 2 = 1)

/-- The reals that round to one number: those from `low` to `high`, each a numerator over the
common denominator, the ends included or not. -/
structure Binary64.Neighbourhood where
  value : Nat
  low : Nat
  high : Nat
  den : Nat
  closed : Bool
  deriving DecidableEq, Repr

namespace Binary64

/-- The reach of a finite number in quarters of its last place: half a place to each side, or a
quarter below a power of two, where the places get finer. -/
def neighbourhood (x : Binary64) : Neighbourhood :=
  let ⟨m, q⟩ := x.magnitude
  let below := if x.fraction = 0 ∧ x.exponent > 1 then 1 else 2
  let (unit, den) := Scaled.ratio ⟨1, q - 2⟩
  { value := 4 * m * unit, low := (4 * m - below) * unit, high := (4 * m + 2) * unit, den,
    closed := m % 2 = 0 }

/-- A decimal lies in the neighbourhood. -/
def Neighbourhood.holds (i : Neighbourhood) (d : Decimal) : Bool :=
  let (num, den) := d.ratio
  let here := num * i.den
  if i.closed then i.low * den ≤ here ∧ here ≤ i.high * den
  else i.low * den < here ∧ here < i.high * den

/-- The point of a decimal grid in the neighbourhood that is nearest to the number. -/
def Neighbourhood.onGrid (i : Neighbourhood) (tie : Tie) (power : Int) : Option Decimal :=
  let (num, den) := Decimal.ratio ⟨1, power⟩
  let digits := i.value * den / (i.den * num)
  let rest := i.value * den % (i.den * num)
  let below : Decimal := ⟨digits, power⟩
  let above : Decimal := ⟨digits + 1, power⟩
  match i.holds below, i.holds above with
  | true, true => some (if tie.goesUp digits rest (i.den * num) then above else below)
  | true, false => some below
  | false, true => some above
  | false, false => none

/-- The shortest decimal that reads back as a finite number, its sign left out. -/
def shortest (x : Binary64) (tie : Tie) : Decimal :=
  if x.isZero then ⟨0, 0⟩
  else
    let i := x.neighbourhood
    let first := Decimal.leadingPower i.value i.den
    let found := (List.range 17).findSome? fun n : Nat => i.onGrid tie (first - n)
    (found.getD ⟨i.value, 0⟩).trim

example : shortest ⟨0x3FB999999999999A⟩ .up = ⟨1, -1⟩ ∧ shortest ⟨1⟩ .up = ⟨5, -324⟩ ∧
    shortest ⟨0x7FEFFFFFFFFFFFFF⟩ .up = ⟨17976931348623157, 292⟩ := by decide +kernel

example : shortest ⟨0x4310000000000001⟩ .up = ⟨11258999068426243, -1⟩ ∧
    shortest ⟨0x4310000000000001⟩ .toEven = ⟨11258999068426242, -1⟩ := by decide +kernel

end Binary64
end MessageRing
