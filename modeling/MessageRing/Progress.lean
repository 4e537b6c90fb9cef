/-! Parties that go on, a step at a time, for as long as there is something to do. -/
namespace MessageRing

variable {S : Type}

/-- Takes steps until none is possible, and at most so many. -/
def advance (step : S → Option S) : Nat → S → S
  | 0, s => s
  | n + 1, s =>
    match step s with
    | none => s
    | some s => advance step n s

theorem advance_of_none {step : S → Option S} {s : S} (h : step s = none) (n : Nat) :
    advance step n s = s := by
  cases n with
  | zero => rfl
  | succ n => simp [advance, h]

/-- Parties that are seen to take the same steps come equally far. -/
theorem advance_map {T : Type} {step : S → Option S} {step' : T → Option T} (f : S → T)
    (same : ∀ s, step' (f s) = (step s).map f) (n : Nat) (s : S) :
    advance step' n (f s) = f (advance step n s) := by
  induction n generalizing s with
  | zero => rfl
  | succ n ih =>
    cases hstep : step s with
    | none => simp [advance, same, hstep]
    | some t => simpa [advance, same, hstep] using ih t

/-- What every step keeps, while it counts, still holds where the steps end; if they do not end by
themselves it has counted all of them. -/
theorem advance_counts {step : S → Option S} {P : Nat → S → Prop}
    (keeps : ∀ n s t, P n s → step s = some t → P (n + 1) t) (k : Nat) {n : Nat} {s : S}
    (h : P n s) : ∃ m, P m (advance step k s) ∧ (step (advance step k s) = none ∨ n + k ≤ m) := by
  induction k generalizing n s with
  | zero => exact ⟨n, h, .inr (Nat.le_refl n)⟩
  | succ k ih =>
    cases hstep : step s with
    | none =>
      rw [advance_of_none hstep]
      exact ⟨n, h, .inl hstep⟩
    | some t =>
      obtain ⟨m, hm, hend⟩ := ih (keeps n s t h hstep)
      refine ⟨m, ?_, ?_⟩
      · simpa [advance, hstep] using hm
      · simpa [advance, hstep, Nat.add_comm k, Nat.add_assoc] using hend

end MessageRing
