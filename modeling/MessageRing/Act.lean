import MessageRing.Log
import MessageRing.Mint

/-!
Acts: what components and the outside code they call do to the world.

An act either happens as a whole or has to wait and is tried again later; when it happens it ends
with a result or a panic. Components see of the world only the log and the mint; the rest, the type
`σ`, belongs to the outside code.
-/
namespace MessageRing

structure Scene (σ : Type) where
  outside : σ
  /-- Oldest first. -/
  log : List Record
  mint : Mint

namespace Scene
variable {σ τ : Type}

def report (s : Scene σ) (r : Record) : Scene σ := { s with log := s.log ++ [r] }

def withOutside (s : Scene σ) (outside : τ) : Scene τ := { s with outside }

end Scene

/-- `none` means that the act has to wait. -/
def Act (σ β : Type) : Type := Scene σ → Option (Except Panic β × Scene σ)

namespace Act
variable {σ τ β γ : Type}

/-- The act after `act`, unless that one panics. -/
def andThen (act : Act σ β) (next : β → Act σ γ) : Act σ γ := fun s =>
  match act s with
  | none => none
  | some (.error p, s) => some (.error p, s)
  | some (.ok b, s) => next b s

instance : Monad (Act σ) where
  pure b := fun s => some (.ok b, s)
  bind := andThen

instance : Inhabited (Act σ β) := ⟨fun _ => none⟩

def panic (p : Panic) : Act σ β := fun s => some (.error p, s)

def wait : Act σ β := fun _ => none

def report (r : Record) : Act σ Unit := fun s => some (.ok (), s.report r)

def get : Act σ σ := fun s => some (.ok s.outside, s)

def modify (f : σ → σ) : Act σ Unit := fun s => some (.ok (), { s with outside := f s.outside })

def minting (f : Mint → β × Mint) : Act σ β := fun s =>
  let (b, mint) := f s.mint
  some (.ok b, { s with mint })

/-- A panic of the act as a result. -/
def guarded (act : Act σ β) : Act σ (Except Panic β) := fun s =>
  match act s with
  | none => none
  | some (outcome, s) => some (.ok outcome, s)

/-- An act on a part of the world. -/
def focus (part : σ → τ) (restore : τ → σ → σ) (act : Act τ β) : Act σ β := fun s =>
  match act (s.withOutside (part s.outside)) with
  | none => none
  | some (outcome, t) => some (outcome, t.withOutside (restore t.outside s.outside))

end Act
end MessageRing
