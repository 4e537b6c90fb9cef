import MessageRing.Proofs.Ring.Metrics
import MessageRing.Proofs.Worker.Conduct

/-!
Who halts a ring.

A worker never halts its ring of its own accord. Only a turn of its handler that is made to do so
can, and once halted the ring stays so.
-/
namespace MessageRing
variable {α η σ : Type}

namespace Turn
variable {ω : Type} {turn turn' : Turn α ω} {r ring : Ring α} {world world' : ω}

/-- The next move halts the ring. -/
def halts : Turn α ω → Bool
  | .halt _ => true
  | _ => false

/-- The turn leaves it to others to halt the ring. -/
inductive LeavesRunning : Turn α ω → Prop
  | finish (outcome : Outcome) : LeavesRunning (.finish outcome)
  | access {run : ω → Option (Turn α ω × ω)}
      (next : ∀ world turn world', run world = some (turn, world') → LeavesRunning turn) :
    LeavesRunning (.access run)
  | attempt (item : Option α) {next : Except (Fault RingError) Int → Turn α ω}
      (rest : ∀ result, LeavesRunning (next result)) : LeavesRunning (.attempt item next)
  | look {next : Ring.Status → Turn α ω} (rest : ∀ status, LeavesRunning (next status)) :
    LeavesRunning (.look next)

theorem move_halted (move : turn.move r world = some (turn', ring, world')) :
    ring.halted = (r.halted || turn.halts) := by
  rcases move_cases move with ⟨⟨_, rfl⟩ | ⟨_, rfl⟩, rfl⟩ | ⟨item, _, rfl, rfl⟩ | ⟨_, rfl, rfl⟩
  · exact (Bool.or_false _).symm
  · exact (Bool.or_false _).symm
  · cases item with
    | some item => exact (Ring.spared_halted.push r item).trans (Bool.or_false _).symm
    | none => exact (Ring.spared_halted.pushEmpty r).trans (Bool.or_false _).symm
  · exact (Bool.or_true _).symm

theorem LeavesRunning.not_halts (h : turn.LeavesRunning) : turn.halts = false := by
  cases h <;> rfl

theorem LeavesRunning.move (h : turn.LeavesRunning)
    (move : turn.move r world = some (turn', ring, world')) : turn'.LeavesRunning := by
  cases h with
  | finish _ => cases move
  | access next =>
    obtain ⟨_, hrun, he⟩ := Option.map_eq_some_iff.mp move
    cases he
    exact next _ _ _ hrun
  | attempt item rest =>
    obtain ⟨-, -, result, rfl⟩ := move_attempt move
    exact rest result
  | look rest =>
    cases move
    exact rest _

end Turn

/-- No call of the handler halts the ring. -/
def EventHandler.LeavesRunning (handler : EventHandler α η σ) : Prop :=
  ∀ call : HandlerCall α, (call.turn handler).LeavesRunning

namespace Station
variable {s s' : Station α η σ} {scene scene' : Scene σ} {notes : List (Note α)}
  {notices : List (Notice α)}

/-- A ring is halted by a step only if the handler's turn does it. -/
theorem Does.halted_eq (does : Does s scene notes notices s' scene') :
    s'.ring.halted = (s.ring.halted || s.worker.phase.turn?.any Turn.halts) := by
  cases does with
  | turn resumes phase move =>
    rw [phase, resumes.turn?_eq]
    exact Turn.move_halted move
  | release phase empty later visible =>
    obtain ⟨metrics, hcount⟩ := { s.ring with gating := _ }.count_eq (·.addWindow _)
    rw [hcount, phase]
    exact (Bool.or_false _).symm
  | begin phase | started phase | enter phase | leave phase | call phase | skip phase
  | returned phase | report phase | finish phase | misused phase | die phase =>
    rw [phase]
    exact (Bool.or_false _).symm

theorem Does.halted (does : Does s scene notes notices s' scene') (halted : s.ring.halted = true) :
    s'.ring.halted = true := by
  rw [does.halted_eq, halted, Bool.true_or]

/-- The handler, also in its turn under way, leaves the ring running. -/
structure LeavesRunning (s : Station α η σ) : Prop where
  handler : s.worker.handler.LeavesRunning
  turn : ∀ turn, s.worker.phase.turn? = some turn → turn.LeavesRunning

theorem LeavesRunning.halted_eq (h : s.LeavesRunning)
    (does : Does s scene notes notices s' scene') : s'.ring.halted = s.ring.halted := by
  rw [does.halted_eq]
  cases hturn : s.worker.phase.turn? with
  | none => exact Bool.or_false _
  | some turn =>
    rw [Option.any_some, (h.turn turn hturn).not_halts, Bool.or_false]

theorem Does.leavesRunning (does : Does s scene notes notices s' scene') (h : s.LeavesRunning) :
    s'.LeavesRunning := by
  refine ⟨by rw [does.keeps.2.1]; exact h.handler, ?_⟩
  intro turn hturn
  cases does with
  | turn resumes phase move =>
    rw [resumes.turn?_eq] at hturn
    cases hturn
    exact (h.turn _ (by rw [phase]; exact resumes.turn?_eq _)).move move
  | begin | leave | call =>
    cases hturn
    exact h.handler _
  | @returned outcome sequence window tally phase =>
    cases hfailed : outcome.failure? <;> rw [hfailed] at hturn <;> cases hturn
  | _ => cases hturn

end Station
end MessageRing
