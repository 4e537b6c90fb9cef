/-!
Binary floating-point numbers of 64 bits, as bit patterns.

Everything here is exact: a finite number is a natural number times a power of two, and rounding a
quotient to the nearest number is division of natural numbers.
-/
namespace MessageRing

structure Binary64 where
  bits : UInt64
  deriving DecidableEq, Repr, Inhabited

namespace Binary64

def negative (x : Binary64) : Bool := x.bits >>> 63 = 1

/-- The 11 bits of the exponent. -/
def exponent (x : Binary64) : Nat := ((x.bits >>> 52) &&& 0x7FF).toNat

/-- The 52 bits of the fraction. -/
def fraction (x : Binary64) : Nat := (x.bits &&& 0xFFFFFFFFFFFFF).toNat

def isNaN (x : Binary64) : Bool := x.exponent = 0x7FF ∧ x.fraction ≠ 0

def isInfinite (x : Binary64) : Bool := x.exponent = 0x7FF ∧ x.fraction = 0

def isFinite (x : Binary64) : Bool := x.exponent ≠ 0x7FF

def isZero (x : Binary64) : Bool := x.exponent = 0 ∧ x.fraction = 0

def neg (x : Binary64) : Binary64 := ⟨x.bits ^^^ 0x8000000000000000⟩

/-- Equality of numbers: a NaN differs from itself, and the two zeros are equal. -/
def eq (x y : Binary64) : Bool :=
  !x.isNaN && !y.isNaN && (x.bits == y.bits || (x.isZero && y.isZero))

instance : BEq Binary64 := ⟨eq⟩

/-- A natural number times a power of two. -/
structure Scaled where
  factor : Nat
  power : Int
  deriving DecidableEq, Repr

/-- The size of a finite number, its sign left out. -/
def magnitude (x : Binary64) : Scaled :=
  if x.exponent = 0 then ⟨x.fraction, -1074⟩ else ⟨x.fraction + 0x10000000000000, x.exponent - 1075⟩

def Scaled.ratio (s : Scaled) : Nat × Nat :=
  match s.power with
  | .ofNat p => (s.factor <<< p, 1)
  | .negSucc p => (s.factor, 1 <<< (p + 1))

/-- The largest `e` with `2 ^ e` at most a positive quotient. -/
def binaryExponent (num den : Nat) : Int :=
  let e : Int := num.log2 - den.log2
  let (n, d) := Scaled.ratio ⟨den, e⟩
  if n ≤ num * d then e else e - 1

/-- The nearest natural number to a quotient; of two, the even one. -/
def roundHalfEven (num den : Nat) : Nat :=
  let q := num / den
  let twice := 2 * (num % den)
  if twice < den then q else if twice > den then q + 1 else q + q % 2

/-- The positive number nearest to a quotient, or none if it is too large. -/
def ofRatio (num den : Nat) : Option Binary64 :=
  if num = 0 then some ⟨0⟩
  else
    let power := max (binaryExponent num den - 52) (-1074)
    let (unit, scale) := Scaled.ratio ⟨den, power⟩
    let factor := roundHalfEven (num * scale) unit
    let bits := if factor < 0x10000000000000 then factor else (power + 1074).toNat <<< 52 + factor
    if bits < 0x7FF0000000000000 then some ⟨bits.toUInt64⟩ else none

def ofNat? (n : Nat) : Option Binary64 := ofRatio n 1

/-- The product of the sizes, rounded. -/
def mul? (x y : Binary64) : Option Binary64 :=
  let (a, b) := x.magnitude.ratio
  let (c, d) := y.magnitude.ratio
  ofRatio (a * c) (b * d)

/-- The quotient of the sizes, rounded; the divisor is not zero. -/
def div? (x y : Binary64) : Option Binary64 :=
  let (a, b) := x.magnitude.ratio
  let (c, d) := y.magnitude.ratio
  ofRatio (a * d) (b * c)

example : ofRatio 1 10 = some ⟨0x3FB999999999999A⟩ ∧ ofRatio 5 1 = some ⟨0x4014000000000000⟩ ∧
    ofRatio 1 (1 <<< 1074) = some ⟨1⟩ ∧ ofRatio (1 <<< 1024) 1 = none := by decide +kernel

end Binary64
end MessageRing
