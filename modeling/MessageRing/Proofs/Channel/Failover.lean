import Mathlib.Data.List.Perm.Subperm
import Mathlib.Data.List.Rotate
import MessageRing.Proofs.Channel.Attempts

/-!
Failing over from one subscriber to the next.

A dispatch calls the subscribers from its starting place on and around the list, each at most once.
Every failure but the last one's is reported before the next subscriber is called. With failover the
dispatch ends with the first subscriber that takes the message, or has tried all of them; without,
it ends with the one at the starting place. What subscribers do to the world is up to them.
-/
namespace MessageRing
variable {ι π σ : Type}

/-- A step of a dispatch. -/
inductive Tries.Step (ι : Type) where
  | call (subscriber : ι)
  | report (record : Record)

/-- What a step does to the world, when it is known what the subscribers do to it. -/
def Tries.Step.apply (does : ι → Scene σ → Scene σ) (scene : Scene σ) : Tries.Step ι → Scene σ
  | .call i => does i scene
  | .report record => scene.report record

/-- Who was tried in a dispatch: those who failed and were passed over, each with the failure, and
then the last one. -/
structure Tries (ι : Type) where
  failures : List (ι × Cause)
  last : ι

namespace Tries

def called (t : Tries ι) : List ι := t.failures.map Prod.fst ++ [t.last]

/-- The steps of the dispatch, the attempts being counted from `first` on. -/
def steps (t : Tries ι) (message : Message π) (first : Nat) : List (Step ι) :=
  (t.failures.zipIdx first).flatMap (fun ((i, failure), attempts) =>
    [.call i, .report (.failingOver message.headers.id attempts failure)]) ++ [.call t.last]

theorem length_called (t : Tries ι) : t.called.length = t.failures.length + 1 := by
  simp [called]

theorem last_eq {t : Tries ι} {place : Nat → ι}
    (h : t.called = (List.range t.called.length).map place) :
    t.last = place (t.called.length - 1) := by
  rw [length_called, List.range_succ, List.map_append] at h
  have hlast := congrArg List.getLast? h
  simpa [called] using hlast

/-- Where only one was called, that is all there is to tell. -/
theorem eq_single {t : Tries ι} {place : Nat → ι}
    (h : t.called = (List.range t.called.length).map place) (single : t.called.length ≤ 1) :
    t = ⟨[], place 0⟩ := by
  have hnone : t.failures = [] := by
    apply List.length_eq_zero_iff.mp
    rw [length_called] at single
    omega
  have hlast := last_eq h
  rw [length_called, hnone] at hlast
  calc t = ⟨t.failures, t.last⟩ := rfl
    _ = ⟨[], place 0⟩ := by rw [hnone, hlast]; rfl

/-- When everyone has been tried unless the last one took the message, that one took it if anyone
would. -/
theorem took_iff {t : Tries ι} {outcome : ι → Except Cause Unit} {everyone : List ι}
    (failed : ∀ f ∈ t.failures, outcome f.1 = .error f.2) (there : t.last ∈ everyone)
    (ended : outcome t.last = .ok () ∨ everyone = t.called) :
    outcome t.last = .ok () ↔ ∃ i ∈ everyone, outcome i = .ok () := by
  constructor
  · intro htook
    exact ⟨t.last, there, htook⟩
  · rintro ⟨i, hi, htakes⟩
    rcases ended with htook | hround
    · exact htook
    · rw [hround, called, List.mem_append, List.mem_singleton] at hi
      rcases hi with hpassed | rfl
      · obtain ⟨f, hf, rfl⟩ := List.mem_map.mp hpassed
        rw [failed f hf] at htakes
        cases htakes
      · exact htakes

end Tries

namespace Dispatcher

/-- The subscriber that is so many places after the first one to be tried, around the list. -/
def place (d : Dispatcher ι) (someone : 0 < d.subscribers.length) (j : Nat) : ι :=
  d.subscribers.get ⟨(d.start + j) % d.subscribers.length, Nat.mod_lt _ someone⟩

theorem start_lt (d : Dispatcher ι) (someone : 0 < d.subscribers.length) :
    d.start < d.subscribers.length := by
  unfold start
  cases d.balancing with
  | none => exact someone
  | roundRobin => exact Nat.mod_lt _ someone

theorem rotated_eq (d : Dispatcher ι) (someone : 0 < d.subscribers.length) :
    d.rotated = (List.range d.subscribers.length).map (d.place someone) := by
  have hrotate : d.rotated = d.subscribers.rotate d.start :=
    (List.rotate_eq_drop_append_take (d.start_lt someone).le).symm
  apply List.ext_getElem?
  intro j
  rw [hrotate]
  by_cases hj : j < d.subscribers.length
  · rw [List.getElem?_rotate hj, List.getElem?_map, List.getElem?_range hj]
    simp [place, Nat.add_comm, Nat.mod_lt _ someone]
  · rw [List.getElem?_eq_none (by simpa using hj), List.getElem?_eq_none (by simpa using hj)]

theorem begin_candidates (d : Dispatcher ι) : d.begin.1 = d.candidates := by
  unfold begin
  cases d.balancing <;> rfl

/-- With failover the whole round is tried, without it only the start of it. -/
theorem candidates_eq (d : Dispatcher ι) (someone : 0 < d.subscribers.length) :
    ∃ i rest spared, d.candidates = i :: rest ∧ d.rotated = d.candidates ++ spared ∧
      (d.failover = true → spared = []) ∧ (d.failover = false → rest = []) := by
  obtain ⟨i, rest, hrotated⟩ := List.exists_cons_of_length_pos
    (show 0 < d.rotated.length by rw [d.rotated_perm.length_eq]; exact someone)
  unfold candidates
  rw [hrotated]
  cases d.failover with
  | true => exact ⟨i, rest, [], rfl, by simp, fun _ => rfl, by simp⟩
  | false => exact ⟨i, [], rest, rfl, rfl, by simp, fun _ => rfl⟩

/-- Who comes first in the round is found by place. -/
theorem called_eq_map_place {d : Dispatcher ι} (someone : 0 < d.subscribers.length)
    {called spared : List ι} (h : d.rotated = called ++ spared) :
    called = (List.range called.length).map (d.place someone) := by
  have hlength : called.length ≤ d.subscribers.length := by
    rw [← d.rotated_perm.length_eq, h, List.length_append]
    omega
  calc called = d.rotated.take called.length := by rw [h, List.take_left]
    _ = (List.range called.length).map (d.place someone) := by
      rw [d.rotated_eq someone, ← List.map_take, List.take_range, Nat.min_eq_left hlength]

section Answers
variable {call : Delivery ι π σ} {message : Message π}
  {ends : ι → Except Panic (Except Cause Unit)} {does : ι → Scene σ → Scene σ}

theorem attempt_eq {i : ι} {scene : Scene σ}
    (answers : call i message scene = some (ends i, does i scene)) :
    attempt call message i scene = some (.ok (Delivery.outcome (ends i)), does i scene) := by
  have hguarded : (call i message).guarded scene = some (.ok (ends i), does i scene) := by
    simp [Act.guarded, answers]
  refine (Act.bind_ok hguarded).trans ?_
  cases ends i <;> rfl

theorem tryInTurn_eq {i : ι} {rest : List ι}
    (answers : ∀ j ∈ i :: rest, ∀ scene, call j message scene = some (ends j, does j scene))
    (attempts : Nat) (scene : Scene σ) :
    ∃ (t : Tries ι) (left : List ι),
      i :: rest = t.called ++ left ∧
      (∀ f ∈ t.failures, Delivery.outcome (ends f.1) = .error f.2) ∧
      (Delivery.outcome (ends t.last) = .ok () ∨ left = []) ∧
      tryInTurn call message attempts i rest scene =
        some (.ok ((Delivery.outcome (ends t.last)).mapError
            (.deliveryFailed (attempts + t.failures.length))),
          (t.steps message attempts).foldl (Tries.Step.apply does) scene) := by
  have hattempt (scene : Scene σ) := attempt_eq (answers i List.mem_cons_self scene)
  induction rest generalizing attempts i scene with
  | nil =>
    refine ⟨⟨[], i⟩, [], rfl, by simp, .inr rfl, ?_⟩
    unfold tryInTurn
    refine (Act.bind_ok (hattempt scene)).trans ?_
    cases Delivery.outcome (ends i) <;> rfl
  | cons next rest ih =>
    unfold tryInTurn
    cases houtcome : Delivery.outcome (ends i) with
    | ok _ =>
      refine ⟨⟨[], i⟩, next :: rest, rfl, by simp, .inl houtcome, ?_⟩
      refine (Act.bind_ok (hattempt scene)).trans ?_
      simp only [houtcome]
      rfl
    | error failure =>
      -- the rest is tried with one attempt more behind it, once the failure has been reported
      have hrest := fun j hj => answers j (List.mem_cons_of_mem i hj)
      obtain ⟨t, left, hcalled, hfailed, hended, htry⟩ := ih hrest (attempts + 1)
        ((does i scene).report (.failingOver message.headers.id attempts failure))
        fun scene => attempt_eq (hrest next List.mem_cons_self scene)
      refine ⟨⟨(i, failure) :: t.failures, t.last⟩, left, ?_, ?_, hended, ?_⟩
      · simp [hcalled, Tries.called]
      · intro f hf
        rcases List.mem_cons.mp hf with rfl | hf
        · exact houtcome
        · exact hfailed f hf
      · refine (Act.bind_ok (hattempt scene)).trans ?_
        simp only [houtcome]
        refine (Act.bind_ok rfl).trans (htry.trans ?_)
        simp [Tries.steps, Tries.Step.apply, Nat.add_assoc, Nat.add_comm 1]

theorem mapError_eq_ok {ε ε' β : Type} {outcome : Except ε β} {f : ε → ε'} {b : β} :
    outcome.mapError f = .ok b ↔ outcome = .ok b := by
  cases outcome <;> simp [Except.mapError]

theorem mapError_eq_error {ε ε' β : Type} {outcome : Except ε β} {f : ε → ε'} {e' : ε'} :
    outcome.mapError f = .error e' ↔ ∃ e, outcome = .error e ∧ f e = e' := by
  cases outcome <;> simp [Except.mapError]

/-- A dispatch that finds subscribers calls them from its starting place on and around, none more
often than it has subscribed, and all but the last one called fail. With failover the last one
takes the message if anyone does, and everyone has been called if not; without, only the first is
called. The answer goes by the last call: its failure is the source of the error, which counts the
calls. A panic is a failure with the panic's text. -/
theorem tried_in_turn {d : Dispatcher ι} (someone : 0 < d.subscribers.length)
    (answers : ∀ i ∈ d.subscribers, ∀ scene, call i message scene = some (ends i, does i scene))
    (scene : Scene σ) :
    let outcome := fun i => Delivery.outcome (ends i)
    ∃ (t : Tries ι) (result : Except MessagingError Unit),
      deliver call message d.begin.1 scene =
        some (.ok result, (t.steps message 1).foldl (Tries.Step.apply does) scene) ∧
      result = (outcome t.last).mapError (.deliveryFailed t.called.length) ∧
      t.called = (List.range t.called.length).map (d.place someone) ∧
      t.called.Subperm d.subscribers ∧
      (∀ f ∈ t.failures, outcome f.1 = .error f.2) ∧
      (d.failover = true →
        (result = .ok () ↔ ∃ i ∈ d.subscribers, outcome i = .ok ()) ∧
        (result ≠ .ok () → t.called.length = d.subscribers.length ∧
          t.last = d.place someone (d.subscribers.length - 1))) ∧
      (d.failover = false → t = ⟨[], d.place someone 0⟩) ∧
      (∀ attempts source, result = .error (.deliveryFailed attempts source) →
        ∃ i ∈ d.subscribers, outcome i = .error source) ∧
      (∀ i p, ends i = .error p → outcome i = .error (.handler (.panicked p.message))) := by
  intro outcome
  obtain ⟨i, rest, spared, hcandidates, hrotated, hall, hone⟩ := d.candidates_eq someone
  have hmem {j : ι} (hj : j ∈ d.candidates) : j ∈ d.subscribers := by
    apply d.rotated_perm.mem_iff.mp
    rw [hrotated]
    exact List.mem_append_left spared hj
  rw [hcandidates] at hrotated hmem
  obtain ⟨t, left, hcalled, hfailed, hended, htry⟩ :=
    tryInTurn_eq (fun j hj => answers j (hmem hj)) 1 scene
  rw [hcalled, List.append_assoc] at hrotated
  have hplaces := called_eq_map_place someone hrotated
  have hlast : t.last ∈ d.subscribers := by
    apply hmem
    simp [hcalled, Tries.called]
  refine ⟨t, _, ?_, rfl, hplaces, ?_, hfailed, ?_, ?_, ?_, ?_⟩
  · rw [begin_candidates, hcandidates, t.length_called, Nat.add_comm]
    exact htry
  · apply List.Subperm.trans _ d.rotated_perm.subperm
    rw [hrotated]
    exact (List.sublist_append_left _ _).subperm
  · intro hfailover
    have hround : outcome t.last = .ok () ∨ d.rotated = t.called := by
      apply hended.imp_right
      intro hleft
      rw [hrotated, hall hfailover, hleft, List.append_nil, List.append_nil]
    rw [Ne, mapError_eq_ok]
    constructor
    · rw [Tries.took_iff hfailed (d.rotated_perm.mem_iff.mpr hlast) hround]
      simp only [d.rotated_perm.mem_iff]
    · intro hfail
      have hlength : t.called.length = d.subscribers.length := by
        rw [← hround.resolve_left hfail, d.rotated_perm.length_eq]
      exact ⟨hlength, hlength ▸ Tries.last_eq hplaces⟩
  · intro hfailover
    apply Tries.eq_single hplaces
    have hlength := congrArg List.length hcalled
    rw [hone hfailover, List.length_append, List.length_singleton] at hlength
    omega
  · intro attempts source herror
    obtain ⟨cause, hcause, heq⟩ := mapError_eq_error.mp herror
    cases heq
    exact ⟨t.last, hlast, hcause⟩
  · intro i p hp
    simp only [outcome, hp]
    rfl

end Answers

/-- A round that starts in the middle: a failure, a panic, and around the end one that takes the
message. -/
theorem tried_in_turn_around :
    let d : Dispatcher Nat :=
      { subscribers := [0, 1, 2], rotation := 4, failover := true, max := 3, balancing := .roundRobin }
    let message : Message Unit := ⟨(), .empty⟩
    let ends : Nat → Except Panic (Except Cause Unit) := fun
      | 1 => .ok (.error (.text "down"))
      | 2 => .error (.text "bug")
      | _ => .ok (.ok ())
    let does : Nat → Scene (List Nat) → Scene (List Nat) := fun i scene =>
      { scene with outside := scene.outside ++ [i] }
    let call : Delivery Nat Unit (List Nat) := fun i _ scene => some (ends i, does i scene)
    let scene : Scene (List Nat) := { outside := [], log := [], mint := .spread 0 0 }
    0 < d.subscribers.length ∧
    (∀ i ∈ d.subscribers, ∀ scene, call i message scene = some (ends i, does i scene)) ∧
    deliver call message d.begin.1 scene = some (.ok (.ok ()), { scene with
      outside := [1, 2, 0]
      log := [.failingOver .nil 1 (.text "down"),
        .failingOver .nil 2 (.handler (.panicked "bug"))] }) ∧
    ∃ t : Tries Nat, t.called.Subperm d.subscribers ∧
      deliver call message d.begin.1 scene =
        some (.ok (.ok ()), (t.steps message 1).foldl (Tries.Step.apply does) scene) := by
  intro d message ends does call scene
  have hsomeone : 0 < d.subscribers.length := by decide
  have hanswers : ∀ i ∈ d.subscribers, ∀ scene,
      call i message scene = some (ends i, does i scene) := fun _ _ _ => rfl
  obtain ⟨t, result, hdeliver, -, -, honce, -, hfailover, -⟩ :=
    tried_in_turn hsomeone hanswers scene
  have htook : result = .ok () := (hfailover rfl).1.mpr ⟨0, by decide, rfl⟩
  have hbegin : d.begin.1 = [1, 2, 0] := by decide
  refine ⟨hsomeone, hanswers, ?_, t, honce, htook ▸ hdeliver⟩
  rw [hbegin]
  simp only [deliver, tryInTurn]
  rfl

end Dispatcher
end MessageRing
