/-! Lengths of time and how they are written. -/
namespace MessageRing

/-- A length of time, in nanoseconds. -/
structure Span where
  nanos : Nat
  deriving DecidableEq, Repr, Inhabited

namespace Span

def ofSeconds (seconds : Nat) : Span := ⟨seconds * 1000000000⟩

def ofMillis (millis : Nat) : Span := ⟨millis * 1000000⟩

def toMillis (d : Span) : Nat := d.nanos / 1000000

/-- The unit a length of time is written in: its name and how many decimal
places lie between it and a nanosecond. -/
structure Unit where
  places : Nat
  symbol : String
  deriving DecidableEq, Repr

/-- The largest unit that gives an integer part of at least 1, and nanoseconds for zero. -/
def unit (d : Span) : Unit :=
  if 1000000000 ≤ d.nanos then ⟨9, "s"⟩
  else if 1000000 ≤ d.nanos then ⟨6, "ms"⟩
  else if 1000 ≤ d.nanos then ⟨3, "µs"⟩
  else ⟨0, "ns"⟩

/-- The last `places` decimal digits of `n`, leading zeros kept. -/
def digits (places n : Nat) : List Char :=
  let written := Nat.toDigits 10 (n % Nat.pow 10 places)
  List.replicate (places - written.length) '0' ++ written

/-- The digits after the point, without the zeros at their end. -/
def fraction (places n : Nat) : List Char :=
  if places = 0 then [] else ((digits places n).reverse.dropWhile (· = '0')).reverse

/-- The integer part, then a point and the fraction unless it is zero, then the unit. -/
def text (d : Span) : String :=
  let whole := Nat.repr (d.nanos / Nat.pow 10 d.unit.places)
  match fraction d.unit.places d.nanos with
  | [] => whole ++ d.unit.symbol
  | places => whole ++ "." ++ String.ofList places ++ d.unit.symbol

example : (ofMillis 1500).text = "1.5s" ∧ (⟨1001⟩ : Span).text = "1.001µs" ∧
    (⟨0⟩ : Span).text = "0ns" ∧ (ofMillis 10).text = "10ms" := by decide +kernel

end Span
end MessageRing
