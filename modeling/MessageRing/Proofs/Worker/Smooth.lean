import MessageRing.Proofs.Worker.Conduct

/-!
Workers whose handler does not fail.

If a conduct allows no call to fail then no failure is ever reported or counted, and if it keeps the
handler's turns off the ring then nothing is accepted but what others push.
-/
namespace MessageRing
variable {α η σ : Type}

namespace Conduct

/-- No call of the handler fails. -/
def Graceful (c : Conduct α η σ) : Prop :=
  ∀ {calls : List (HandlerCall α)} {call : HandlerCall α} {outcome : Outcome} {memory : η}
    {outside : σ}, c.busy calls call (.finish outcome) memory outside → outcome.failure? = none

/-- The handler's turns consist of acts on the world. -/
def Aloof (c : Conduct α η σ) : Prop :=
  ∀ {calls : List (HandlerCall α)} {call : HandlerCall α} {turn : Turn α (η × Scene σ)}
    {memory : η} {outside : σ}, c.busy calls call turn memory outside →
    (∃ outcome, turn = .finish outcome) ∨ ∃ run, turn = .access run

end Conduct

/-- No failure was met in the window under way. -/
def Phase.Smooth : Phase α η σ → Prop
  | .reporting _ _ _ _ => False
  | .draining _ tally | .handling _ _ _ tally => tally.failures = 0
  | _ => True

theorem Phase.Resumes.smooth_iff {resume : Turn α (η × Scene σ) → Phase α η σ}
    (resumes : Phase.Resumes resume) (turn turn' : Turn α (η × Scene σ)) :
    (resume turn').Smooth ↔ (resume turn).Smooth := by
  cases resumes <;> exact Iff.rfl

namespace Station

/-- No failure has been met at this ring, nor counted before. -/
structure Smooth (s : Station α η σ) : Prop where
  counted : s.ring.metrics.handlerFailures = 0
  phase : s.worker.phase.Smooth

variable {s s' : Station α η σ} {scene scene' : Scene σ} {notes : List (Note α)}
  {notices : List (Notice α)} {c : Conduct α η σ} {calls : List (HandlerCall α)}

/-- The turn under way leaves the ring alone. -/
theorem Follows.move_ring (h : s.Follows c scene calls) (aloof : c.Aloof)
    {turn turn' : Turn α (η × Scene σ)} (here : s.worker.phase.turn? = some turn)
    {ring : Ring α} {world world' : η × Scene σ}
    (move : turn.move s.ring world = some (turn', ring, world')) :
    ring = s.ring ∧ turn.notes s.ring = [] := by
  obtain ⟨earlier, call, _, hbusy⟩ := (follows_iff_busy here).mp h
  exact Turn.move_aside (aloof hbusy) move

theorem Does.smooth (does : Does s scene notes notices s' scene')
    (follows : s.Follows c scene calls) (graceful : c.Graceful) (aloof : c.Aloof)
    (h : s.Smooth) : s'.Smooth := by
  obtain ⟨counted, hphase⟩ := h
  cases does with
  | turn resumes phase move =>
    rw [phase] at hphase
    have hturn := follows.move_ring aloof (by rw [phase]; exact resumes.turn?_eq _) move
    exact ⟨by rw [hturn.1]; exact counted, (resumes.smooth_iff _ _).mpr hphase⟩
  | call phase more entry =>
    rw [phase] at hphase
    refine ⟨counted, ?_⟩
    cases hcontent : s.ring.peek _ <;> exact hphase
  | skip phase more entry =>
    rw [phase] at hphase
    refine ⟨counted, ?_⟩
    cases hcontent : s.ring.peek _ <;> exact hphase
  | release phase empty later visible =>
    -- only here failures are counted, and the window's tally has none
    rw [phase] at hphase
    refine ⟨?_, trivial⟩
    unfold Ring.count
    split_ifs
    · exact congrArg₂ (· + ·) counted hphase
    · exact counted
  | returned phase =>
    rw [phase] at hphase
    obtain ⟨_, _, _, hbusy⟩ := (follows_iff_busy (by rw [phase]; rfl)).mp follows
    refine ⟨counted, ?_⟩
    rw [graceful hbusy]
    exact hphase
  | report phase report | die phase report =>
    rw [phase] at hphase
    exact hphase.elim
  | enter phase visible => exact ⟨counted, rfl⟩
  | _ => exact ⟨counted, trivial⟩

/-- The worker itself accepts nothing. -/
theorem Does.unheard (does : Does s scene notes notices s' scene')
    (follows : s.Follows c scene calls) (aloof : c.Aloof) : notes.filterMap Note.item? = [] := by
  cases does with
  | turn resumes phase move =>
    rw [(follows.move_ring aloof (by rw [phase]; exact resumes.turn?_eq _) move).2]
    rfl
  | _ => rfl

end Station
end MessageRing
