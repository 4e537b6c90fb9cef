import Mathlib.Tactic.DeprecateTo
import MessageRing.Orders

/-!
The shop as a program: `--orders N` says how many orders come in.

The clock counts milliseconds since the Unix epoch, and stands at 0 before it. `Std.Time` comes with
the imports of Mathlib.
-/

def main (arguments : List String) : IO UInt32 := do
  let orders := MessageRing.Orders.requested arguments
  let seed ← IO.rand 0 UInt64.size
  let time ← Std.Time.Timestamp.now
  let milliseconds := time.toMillisecondsSinceUnixEpoch.toInt
  match MessageRing.Orders.run (.spread seed (Int64.ofInt (max milliseconds 0))) orders with
  | .error e =>
    IO.eprintln e.message
    return 1
  | .ok day =>
    for line in day.report orders do
      IO.println line
    return if day.stage = .closed then 0 else 1
