import MessageRing.Proofs.Ring.Halt
import MessageRing.Proofs.Ring.Metrics

/-!
What a ring counts of its producers.

Each advance of the cursor counts one sequence as published, so the counter is ahead of the cursor
by what it began with (`elder`). A push that is rejected is counted, and nothing else is counted as
one. Claims are counted by notes alone: a sequence is held from the note that gives it out to the
note that hands it in.
-/
namespace MessageRing

/-- The call was a push that a full ring has rejected. -/
def Ring.Answer.rejected {α : Type} : Ring.Answer α → Bool
  | .refused .rejected => true
  | _ => false

namespace Ring
variable {α β : Type} {r r' : Ring α} {notes : List (Note α)}

theorem onClaim_same {part : Ring α → β} {s : Int} {run : Unit → Answer α × Ring α}
    (same : part (run ()).2 = part r) : part (r.onClaim s run).2 = part r := by
  unfold onClaim
  split_ifs
  · exact same
  · rfl

theorem onClaim_not_rejected {s : Int} {run : Unit → Answer α × Ring α}
    (h : s ∈ r.held → (run ()).1.rejected = false) : (r.onClaim s run).1.rejected = false := by
  unfold onClaim
  split_ifs with hheld
  · exact h hheld
  · rfl

/-- A call of others than the consumer changes no part that claims leave alone, unless it is a push
that does. -/
theorem Untouched.answer {part : Ring α → β} (h : Untouched part)
    (attach : ∀ r : Ring α, part { r with consumed := true } = part r)
    (halt : ∀ r : Ring α, part r.halt = part r) {call : Call α} (other : call.consumes = false)
    (push : ∀ item, call = .push item → part (r.push item).2 = part r) :
    part (r.answer call).2 = part r := by
  have hfill (s : Int) (content : Option α) : part ((r.put s content).publish s).2 = part r :=
    (h.publish _ s).trans (h.put r s content)
  cases call with
  | push item => exact (congrArg part (reply_ring _ _)).trans (push item rfl)
  | pushEmpty => exact (congrArg part (reply_ring _ _)).trans (h.pushEmpty r)
  | claim => exact (congrArg part (reply_ring _ _)).trans (h.tryClaim r)
  | claimBlocking => exact (congrArg part (reply_ring _ _)).trans (h.claimBlocking r)
  | look s => exact onClaim_same rfl
  | set s content => exact onClaim_same (h.put r s content)
  | publish s => exact onClaim_same ((congrArg part (reply_ring _ _)).trans (h.publish r s))
  | write s item =>
    exact onClaim_same ((congrArg part (reply_ring _ _)).trans (hfill s (some item)))
  | abandon s => exact onClaim_same ((congrArg part (reply_ring _ _)).trans (hfill s none))
  | consumer =>
    unfold Ring.answer takeConsumer
    split_ifs
    · rfl
    · exact attach r
  | next =>
    unfold Ring.answer onConsumer
    split_ifs <;> rfl
  | halt => exact halt r
  | status => rfl
  | waitFor _ | drain _ _ _ | release _ => cases other

theorem Spared.answer {part : Ring α → β} (h : Spared part)
    (attach : ∀ r : Ring α, part { r with consumed := true } = part r)
    (halt : ∀ r : Ring α, part r.halt = part r) {call : Call α} (other : call.consumes = false) :
    part (r.answer call).2 = part r :=
  h.untouched.answer attach halt other fun item _ => h.push r item

/-- What had been counted as published before the first sequence of this ring. -/
def elder (r : Ring α) : Int := r.metrics.published - if r.config.metrics then r.cursor + 1 else 0

theorem elder_advance (r : Ring α) : r.advance.elder = r.elder := by
  unfold advance count elder
  split_ifs
  · push_cast
    omega
  · rfl

theorem spared_elder : Spared (elder (α := α)) where
  glance _ _ := rfl
  grant _ := rfl
  reject r := by
    unfold count elder
    split_ifs <;> rfl
  put _ _ _ := rfl
  publish := publish_same elder elder_advance (fun _ _ => rfl) fun _ _ => rfl

theorem untouched_rejected : Untouched fun r : Ring α => r.metrics.rejected where
  glance _ _ := rfl
  grant _ := rfl
  put _ _ _ := rfl
  publish := publish_same (·.metrics.rejected) (fun r => by
    unfold advance count
    split_ifs <;> rfl) (fun _ _ => rfl) fun _ _ => rfl

theorem count_rejected (r : Ring α) :
    (r.count fun m => { m with rejected := m.rejected + 1 }).metrics.rejected =
      r.metrics.rejected + if r.config.metrics then 1 else 0 := by
  unfold count
  split_ifs <;> rfl

theorem count_config (r : Ring α) (event : Metrics → Metrics) :
    (r.count event).config = r.config := by
  obtain ⟨metrics, hcount⟩ := r.count_eq event
  rw [hcount]

theorem count_addWindow (r : Ring α) (tally : Tally) :
    (r.count (·.addWindow tally)).metrics.worked =
      if r.config.metrics then r.metrics.worked.addWindow tally else r.metrics.worked := by
  unfold count
  split_ifs <;> rfl

theorem takeConsumer_config (r : Ring α) : r.takeConsumer.2.config = r.config := by
  unfold takeConsumer
  split_ifs <;> rfl

theorem tryClaim_not_rejected (h : r.Counted) : r.tryClaim.1 ≠ .refused .rejected := by
  rcases tryClaim_cases h with ⟨_, he, _⟩ | ⟨_, _, he, _⟩ | ⟨_, _, _, _, he, _⟩ |
    ⟨_, _, _, he, _⟩ <;> simp [he]

theorem claimBlocking_not_rejected (h : r.Counted) : r.claimBlocking.1 ≠ .refused .rejected := by
  rcases claimBlocking_cases r with ⟨_, he⟩ | ⟨_, he⟩ <;> rw [he]
  · simp
  · exact tryClaim_not_rejected h

/-- A claim is refused as rejected by pushes alone, and then counted. -/
theorem claimForPush_rejected (h : r.Counted) :
    r.claimForPush.2.metrics.rejected = r.metrics.rejected +
      if r.config.metrics ∧ r.claimForPush.1 = .refused .rejected then 1 else 0 := by
  have hclaim := untouched_rejected.tryClaim r
  have hblocking := untouched_rejected.claimBlocking r
  have hconfig : r.tryClaim.2.config = r.config := (tryClaim_path h).config_eq
  unfold claimForPush
  split
  · simpa [claimBlocking_not_rejected h] using hblocking
  · split
    · rename_i r' he
      rw [he] at hclaim hconfig
      dsimp only at hclaim hconfig
      rw [← hclaim, ← hconfig]
      simpa using r'.count_rejected
    · simpa [tryClaim_not_rejected h] using hclaim

theorem push_rejected (h : r.Counted) (item : α) :
    (r.push item).2.metrics.rejected = r.metrics.rejected +
      if r.config.metrics ∧ (r.push item).1 = .refused .rejected then 1 else 0 := by
  have hclaim := claimForPush_rejected h
  rcases complete_cases h (some item) (claimForPush_path h)
    (fun _ => mem_held_of_claimForPush h) with ⟨s, hdone, hresult⟩ | ⟨-, he⟩
  · have hclaimed : r.claimForPush.2.metrics.rejected = r.metrics.rejected := by
      simpa [hdone] using hclaim
    have hpush : (r.push item).1 = .done s ∨ (r.push item).1 = .waits := hresult
    refine (untouched_rejected.complete hclaimed (some item)).trans ?_
    rcases hpush with he | he <;> simp [he]
  · have hpush : r.push item = r.claimForPush := he
    rwa [hpush]

theorem reply_rejected {ρ : Type} (outcome : Response ρ × Ring α) {ok : ρ → Answer α}
    (well : ∀ value, (ok value).rejected = false) :
    (reply outcome ok).1.rejected = true ↔ outcome.1 = .refused .rejected := by
  obtain ⟨response, r'⟩ := outcome
  cases response with
  | done value => simp [reply, well value]
  | refused e => cases e <;> simp [reply, Answer.rejected]
  | _ => simp [reply, Answer.rejected]

theorem push_rejected_iff (r : Ring α) (item : α) :
    (r.answer (.push item)).1.rejected = true ↔ (r.push item).1 = .refused .rejected :=
  reply_rejected _ fun _ => rfl

/-- No other call than a push is rejected. -/
theorem answer_not_rejected (h : r.Counted) {call : Call α} (other : call.consumes = false)
    (unlike : ∀ item, call ≠ .push item) : (r.answer call).1.rejected = false := by
  cases call with
  | push item => exact absurd rfl (unlike item)
  | pushEmpty =>
    refine Bool.eq_false_iff.mpr ((reply_rejected _ fun _ => rfl).not.mpr fun hrejected => ?_)
    rcases complete_cases h none (tryClaim_path h) (fun _ => mem_held_of_tryClaim h) with
      ⟨s, _, he | he⟩ | ⟨-, he⟩
    · cases he.symm.trans hrejected
    · cases he.symm.trans hrejected
    · exact tryClaim_not_rejected h (he ▸ hrejected)
  | claim =>
    exact Bool.eq_false_iff.mpr ((reply_rejected _ fun _ => rfl).not.mpr (tryClaim_not_rejected h))
  | claimBlocking =>
    exact Bool.eq_false_iff.mpr
      ((reply_rejected _ fun _ => rfl).not.mpr (claimBlocking_not_rejected h))
  | publish s =>
    refine onClaim_not_rejected fun hheld => ?_
    obtain ⟨outcome, hdone⟩ := publish_done h hheld
    rw [reply_of_done (r.publish s) hdone]
    rfl
  | write s item =>
    refine onClaim_not_rejected fun hheld => ?_
    obtain ⟨outcome, hdone⟩ := put_publish_done h (some item) hheld
    rw [reply_of_done (r.write s item) hdone]
    rfl
  | abandon s =>
    refine onClaim_not_rejected fun hheld => ?_
    obtain ⟨outcome, hdone⟩ := put_publish_done h none hheld
    rw [reply_of_done (r.abandon s) hdone]
    cases outcome <;> rfl
  | look s | set s _ => exact onClaim_not_rejected fun _ => rfl
  | consumer =>
    unfold answer takeConsumer
    split_ifs <;> rfl
  | next =>
    unfold answer onConsumer
    split_ifs <;> rfl
  | halt | status => rfl
  | waitFor _ | drain _ _ _ | release _ => cases other

/-- Of the calls of others than the consumer only a rejected push is counted as one. -/
theorem answer_rejected (h : r.Counted) {call : Call α} (other : call.consumes = false) :
    (r.answer call).2.metrics.rejected = r.metrics.rejected +
      if r.config.metrics ∧ (r.answer call).1.rejected then 1 else 0 := by
  by_cases hpush : ∃ item, call = .push item
  · obtain ⟨item, rfl⟩ := hpush
    have hring : (r.answer (.push item)).2 = (r.push item).2 := reply_ring _ _
    rw [hring, push_rejected h]
    simp only [push_rejected_iff]
  · have hother : ∀ item, call ≠ .push item := fun item he => hpush ⟨item, he⟩
    have hsame := untouched_rejected.answer (r := r) (fun _ => rfl) (fun _ => rfl) other
      fun item he => absurd he (hother item)
    rw [answer_not_rejected h other hother, hsame]
    simp

/-- How many sequences were claimed at the ring and handed in. -/
def handed (r : Ring α) : Int := r.claimed + 1 - r.held.length

theorem handedIn_append (notes notes' : List (Note α)) :
    handedIn (notes ++ notes') = handedIn notes ++ handedIn notes' :=
  List.filterMap_append

/-- A sequence is held from when it is given out until it is handed in. -/
theorem Step.handed_eq (step : Step r notes r') (h : r.Counted) :
    r'.handed = r.handed + (handedIn notes).length := by
  cases step with
  | grant running free alone =>
    change r.claimed + 1 + 1 - (r.held ++ [r.claimed + 1]).length = _
    rw [List.length_append, handed]
    simp only [List.length_singleton, handedIn, List.filterMap_cons, List.filterMap_nil,
      List.length_nil]
    omega
  | @handIn s held =>
    have hclaimed := (r.publish_keeps s).claimed
    have hpos := List.length_pos_of_mem held
    have hlength := List.length_erase_of_mem held
    simp only [handed, hclaimed, publish_held h held, handedIn, List.filterMap_cons,
      List.filterMap_nil, List.length_singleton]
    omega
  | _ => exact (add_zero _).symm

theorem Path.handed_eq (path : Path r notes r') (h : r.Counted) :
    r'.handed = r.handed + (handedIn notes).length := by
  induction path with
  | nil => exact (add_zero _).symm
  | cons step rest ih =>
    rw [ih (step.counted h), step.handed_eq h, handedIn_append, List.length_append]
    push_cast
    exact add_assoc _ _ _

/-- Where every sequence is handed in when it is given out, producers hold none. -/
theorem Path.held_eq_nil (path : Path r notes r') (h : r.Counted)
    (prompt : notes.countP Note.gives = (handedIn notes).length) (none : r.held = []) :
    r'.held = [] := by
  have hclaimed := path.claimed_eq
  have hhanded := path.handed_eq h
  rw [handed, handed, none, List.length_nil] at hhanded
  rw [← List.length_eq_zero_iff]
  omega

theorem filled_prompt (content : Option α) (response : Response Int) :
    (filled content response).countP Note.gives = (handedIn (filled content response)).length := by
  cases response <;> rfl

end Ring
end MessageRing
