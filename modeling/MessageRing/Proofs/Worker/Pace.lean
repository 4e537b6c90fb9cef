import MessageRing.Proofs.Worker.Halting

/-!
How long a worker goes on by itself.

A handler whose turns are acts on the world, and no more of them than so many, leaves the ring alone.
Its worker then takes a bounded number of steps for each sequence, however the sequences fall into
windows and whatever the acts do to the world.
-/
namespace MessageRing
variable {α η σ : Type}

namespace Turn
variable {ω : Type}

/-- The turn consists of at most so many acts on the world. -/
inductive Within : Turn α ω → Nat → Prop
  | finish (outcome : Outcome) (n : Nat) : Within (.finish outcome) n
  | access {run : ω → Option (Turn α ω × ω)} {n : Nat}
      (next : ∀ world turn world', run world = some (turn, world') → Within turn n) :
    Within (.access run) (n + 1)

namespace Within
variable {turn turn' : Turn α ω} {r ring : Ring α} {world world' : ω} {n : Nat}

theorem mono (h : turn.Within n) {m : Nat} (le : n ≤ m) : turn.Within m := by
  induction h generalizing m with
  | finish outcome n => exact .finish outcome m
  | access next ih =>
    obtain ⟨m, rfl⟩ := Nat.exists_eq_add_of_le' (Nat.one_le_of_lt le)
    exact .access fun world turn world' hrun => ih _ _ _ hrun (Nat.le_of_succ_le_succ le)

theorem ofAct (act : Act σ (Except HandlerError Unit)) :
    (ofAct act : Turn α (η × Scene σ)).Within 1 := by
  refine .access fun world turn world' hrun => ?_
  obtain ⟨_, _, he⟩ := Option.map_eq_some_iff.mp hrun
  cases he
  exact .finish _ 0

/-- Either it is over or the next move is an act. -/
theorem cases_on (h : turn.Within n) :
    (∃ outcome, turn = .finish outcome) ∨ ∃ run, turn = .access run := by
  cases h with
  | finish outcome => exact .inl ⟨outcome, rfl⟩
  | access next => exact .inr ⟨_, rfl⟩

/-- A move leaves fewer acts to come. -/
theorem move (h : turn.Within n) (move : turn.move r world = some (turn', ring, world')) :
    ∃ m < n, turn'.Within m := by
  cases h with
  | finish outcome => cases move
  | access next =>
    obtain ⟨_, hrun, he⟩ := Option.map_eq_some_iff.mp move
    cases he
    exact ⟨_, Nat.lt_succ_self _, next _ _ _ hrun⟩

end Within
end Turn

/-- Every turn of the handler consists of at most so many acts on the world. -/
def EventHandler.Within (handler : EventHandler α η σ) (n : Nat) : Prop :=
  ∀ call : HandlerCall α, (call.turn handler).Within n

/-- One sequence more brings at most five changes of phase. -/
theorem Phase.rank_le (phase : Phase α η σ) {cursor cursor' : Int} (le : cursor' ≤ cursor + 1)
    (next : Int) : phase.rank cursor' next ≤ phase.rank cursor next + 5 := by
  cases phase <;> simp only [rank] <;> omega

namespace Station

/-- The worker takes at most `n` steps, if nothing more comes to its ring; a turn of its handler
consists of at most `w` acts. -/
structure Due (s : Station α η σ) (w n : Nat) : Prop where
  handler : s.worker.handler.Within w
  turn : ∃ t ≤ w, (∀ turn, s.worker.phase.turn? = some turn → turn.Within t) ∧
    (w + 1) * s.rank + t ≤ n

namespace Due
variable {s s' : Station α η σ} {scene scene' : Scene σ} {notes : List (Note α)}
  {notices trace : List (Notice α)} {l : Ledger α} {w n : Nat}

theorem within (h : s.Due w n) {turn : Turn α (η × Scene σ)}
    (here : s.worker.phase.turn? = some turn) : turn.Within w := by
  obtain ⟨t, hle, hturn, -⟩ := h.turn
  exact (hturn turn here).mono hle

/-- The turn under way leaves the ring alone. -/
theorem move_ring (h : s.Due w n) {resume : Turn α (η × Scene σ) → Phase α η σ}
    {turn turn' : Turn α (η × Scene σ)} {ring : Ring α} {world world' : η × Scene σ}
    (resumes : Phase.Resumes resume) (phase : s.worker.phase = resume turn)
    (move : turn.move s.ring world = some (turn', ring, world')) :
    ring = s.ring ∧ turn.notes s.ring = [] := by
  have hwithin := h.within (by rw [phase]; exact resumes.turn?_eq turn)
  exact Turn.move_aside hwithin.cases_on move

theorem cursor_eq (h : s.Due w n) (does : Does s scene notes notices s' scene') :
    s'.ring.cursor = s.ring.cursor := by
  cases does with
  | turn resumes phase move => rw [(h.move_ring resumes phase move).1]
  | @release window tally phase empty later visible =>
    obtain ⟨metrics, hcount⟩ := { s.ring with gating := _ }.count_eq (·.addWindow tally)
    rw [hcount]
  | _ => rfl

theorem halted_eq (h : s.Due w n) (does : Does s scene notes notices s' scene') :
    s'.ring.halted = s.ring.halted := by
  rw [does.halted_eq]
  cases hturn : s.worker.phase.turn? with
  | none => exact Bool.or_false _
  | some turn =>
    rcases (h.within hturn).cases_on with ⟨outcome, rfl⟩ | ⟨run, rfl⟩ <;> exact Bool.or_false _

/-- The worker does what a consumer does and nothing else. -/
theorem unproduced (h : s.Due w n) (does : Does s scene notes notices s' scene') :
    ∀ note ∈ notes, note.produced = false := by
  cases does with
  | turn resumes phase move =>
    rw [(h.move_ring resumes phase move).2]
    simp
  | _ => simp [Note.produced]

theorem within_step (h : s.Due w n) (does : Does s scene notes notices s' scene')
    {turn : Turn α (η × Scene σ)} (here : s'.worker.phase.turn? = some turn) :
    turn.Within w := by
  cases does with
  | turn resumes phase move =>
    rw [resumes.turn?_eq] at here
    cases here
    have hwithin := h.within (by rw [phase]; exact resumes.turn?_eq _)
    obtain ⟨m, hlt, hturn⟩ := hwithin.move move
    exact hturn.mono hlt.le
  | begin | leave | call =>
    cases here
    exact h.handler _
  | @returned outcome sequence window tally phase =>
    cases hfailed : outcome.failure? <;> rw [hfailed] at here <;> cases here
  | _ => cases here

/-- Each step is one less to come. -/
theorem step (h : s.Due w n) (does : Does s scene notes notices s' scene') (books : s.ring.Books l)
    (tells : s.Tells l trace) : ∃ m < n, s'.Due w m := by
  have hhandler : s'.worker.handler.Within w := by
    rw [does.keeps.2.1]
    exact h.handler
  obtain ⟨t, hle, hturn, hn⟩ := h.turn
  rcases does.rank_lt books tells (h.cursor_eq does) with hlt | ⟨resume, turn, turn', ring, memory,
    scene₂, hresumes, hphase, hmove, hphase', hrank⟩
  · -- a phase is over, which leaves room for any turn
    have hrank : (w + 1) * (s'.rank + 1) ≤ (w + 1) * s.rank := Nat.mul_le_mul_left _ hlt
    rw [Nat.mul_succ] at hrank
    exact ⟨(w + 1) * s'.rank + w, by omega, hhandler, w, le_rfl,
      fun turn here => h.within_step does here, le_rfl⟩
  · obtain ⟨m, hlt, hwithin⟩ :=
      (hturn turn (by rw [hphase]; exact hresumes.turn?_eq turn)).move hmove
    refine ⟨(w + 1) * s'.rank + m, by rw [hrank]; omega, hhandler, m, by omega, ?_, le_rfl⟩
    intro turn₂ here
    rw [hphase', hresumes.turn?_eq] at here
    cases here
    exact hwithin

/-- What others do at the ring costs the worker five phases for a sequence that becomes visible. -/
theorem ring (h : s.Due w n) {r : Ring α} (le : r.cursor ≤ s.ring.cursor + 1) :
    Due { s with ring := r } w (n + 5 * (w + 1)) := by
  obtain ⟨t, hle, hturn, hn⟩ := h.turn
  have hrank : rank { s with ring := r } ≤ s.rank + 5 := s.worker.phase.rank_le le s.worker.next
  have hmul := Nat.mul_le_mul_left (w + 1) hrank
  rw [Nat.mul_add] at hmul
  exact ⟨h.handler, t, hle, hturn, by omega⟩

end Due
end Station
end MessageRing
