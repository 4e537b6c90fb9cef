import Mathlib.Data.List.Nodup
import MessageRing.Dispatcher
import MessageRing.Proofs.Acts

/-!
No subscriber is there twice, and so none is tried twice in one dispatch. What a dispatch does to
the world is what its subscribers do.
-/
namespace MessageRing
namespace Dispatcher
variable {ι : Type} {d : Dispatcher ι}

theorem candidates_nodup (h : d.subscribers.Nodup) : d.candidates.Nodup := by
  have hrotated : d.rotated.Nodup := d.rotated_perm.nodup_iff.mpr h
  unfold candidates
  split_ifs
  · exact hrotated
  · exact hrotated.sublist (List.take_sublist 1 d.rotated)

/-- A dispatch moves the rotation on, if there is one and anyone to try. -/
theorem begin_eq (d : Dispatcher ι) : d.begin = (d.candidates,
    if d.balancing = .roundRobin ∧ d.subscribers ≠ [] then { d with rotation := d.rotation + 1 }
    else d) := by
  unfold begin
  cases d.balancing with
  | none => simp
  | roundRobin => by_cases h : d.subscribers = [] <;> simp [h]

theorem begin_nodup (d : Dispatcher ι) (h : d.subscribers.Nodup) :
    d.begin.1.Nodup ∧ d.begin.2.subscribers.Nodup := by
  rw [begin_eq]
  refine ⟨candidates_nodup h, ?_⟩
  dsimp only
  split_ifs <;> exact h

section Single
variable {π σ : Type} {call : Delivery ι π σ} {message : Message π} {i : ι} {scene : Scene σ}

/-- A dispatch with one candidate goes as that one's call goes. -/
theorem deliver_of_some {outcome : Except Cause Unit} {after : Scene σ}
    (h : call i message scene = some (.ok outcome, after)) :
    deliver call message [i] scene =
      some (.ok (outcome.mapError (.deliveryFailed 1)), after) := by
  have hguarded : (call i message).guarded scene = some (.ok (.ok outcome), after) := by
    simp only [Act.guarded, h]
  have hattempt : attempt call message i scene = some (.ok outcome, after) :=
    (Act.bind_ok hguarded).trans rfl
  rw [deliver, tryInTurn, Act.bind_ok hattempt]
  cases outcome <;> rfl

theorem deliver_of_waits (h : call i message scene = none) :
    deliver call message [i] scene = none := by
  have hguarded : (call i message).guarded scene = none := by
    simp only [Act.guarded, h]
  rw [deliver, tryInTurn]
  exact Act.bind_of_waits _ (Act.bind_of_waits _ hguarded)

end Single

section Keeps
variable {π σ : Type} {R : σ → σ → Prop} {call : Delivery ι π σ} {message : Message π}
  (refl : ∀ w, R w w) (trans : ∀ u v w, R u v → R v w → R u w)
  (kept : ∀ i message, (call i message).Keeps R)
include refl trans kept

theorem keeps_attempt (i : ι) : (attempt call message i).Keeps R := by
  refine (kept i message).guarded.bind trans fun outcome => ?_
  cases outcome <;> exact .pure refl _

theorem keeps_tryInTurn (attempts : Nat) (i : ι) (rest : List ι) :
    (tryInTurn call message attempts i rest).Keeps R := by
  induction rest generalizing attempts i with
  | nil =>
    rw [tryInTurn]
    refine (keeps_attempt refl trans kept i).bind trans fun outcome => ?_
    cases outcome <;> exact .pure refl _
  | cons following rest ih =>
    rw [tryInTurn]
    refine (keeps_attempt refl trans kept i).bind trans fun outcome => ?_
    cases outcome with
    | ok _ => exact .pure refl _
    | error failure =>
      exact (Act.Keeps.report refl _).bind trans fun _ => ih (attempts + 1) following

theorem keeps_deliver (candidates : List ι) : (deliver call message candidates).Keeps R := by
  cases candidates with
  | nil => exact .pure refl _
  | cons i rest => exact keeps_tryInTurn refl trans kept 1 i rest

end Keeps

variable [DecidableEq ι]

theorem subscribe_nodup (h : d.subscribers.Nodup) (i : ι) :
    (d.subscribe i).2.subscribers.Nodup := by
  unfold subscribe
  split_ifs with hthere hfull
  · exact h
  · exact h
  · exact h.append (List.nodup_singleton i) (List.disjoint_singleton.mpr hthere)

theorem unsubscribe_nodup (h : d.subscribers.Nodup) (i : ι) :
    (d.unsubscribe i).2.subscribers.Nodup := by
  unfold unsubscribe
  split_ifs
  · exact h.filter _
  · exact h

end Dispatcher
end MessageRing
