import MessageRing.Proofs.Ring.Claims

/-!
What the producers leave alone.

The producers count what is published and what is rejected; everything else is counted by the worker
when it gives a window back. Nor does a producer halt a ring.
-/
namespace MessageRing

/-- What only the worker counts. -/
def Metrics.worked (m : Metrics) : Metrics := { m with published := 0, rejected := 0 }

namespace Ring
variable {α β : Type}

/-- A part of a ring that claiming, filling and publishing a sequence leave alone. -/
structure Untouched (part : Ring α → β) : Prop where
  glance (r : Ring α) (cachedGating : Int) : part { r with cachedGating } = part r
  grant (r : Ring α) : part r.grant.2 = part r
  put (r : Ring α) (s : Int) (content : Option α) : part (r.put s content) = part r
  publish (r : Ring α) (s : Int) : part (r.publish s).2 = part r

namespace Untouched
variable {part : Ring α → β} (h : Untouched part)
include h

theorem tryClaim (r : Ring α) : part r.tryClaim.2 = part r := by
  have hsingle : part r.claimSingle.2 = part r := by
    unfold claimSingle
    dsimp only
    split_ifs
    · exact h.glance r r.gating
    · exact h.glance r r.gating
    · exact h.glance r r.gating
    · exact (h.grant _).trans (h.glance r r.gating)
    · rfl
    · rfl
    · exact h.grant r
  have hmulti : part r.claimMulti.2 = part r := by
    unfold claimMulti
    split_ifs
    · rfl
    · exact h.grant r
  unfold Ring.tryClaim
  split_ifs
  · rfl
  · cases r.config.producers with
    | single => exact hsingle
    | multi => exact hmulti

theorem claimBlocking (r : Ring α) : part r.claimBlocking.2 = part r := by
  rcases claimBlocking_cases r with ⟨_, he⟩ | ⟨_, he⟩ <;> rw [he]
  exact h.tryClaim r

theorem complete {r : Ring α} {claim : Response Int × Ring α} (claimed : part claim.2 = part r)
    (content : Option α) :
    part (r.complete claim fun r s => (r.put s content).publish s).2 = part r := by
  unfold Ring.complete
  obtain ⟨response, r'⟩ := claim
  cases response with
  | done s =>
    have hfinish : part ((r'.put s content).publish s).2 = part r :=
      (h.publish _ s).trans ((h.put r' s content).trans claimed)
    dsimp only
    split_ifs
    · rfl
    · generalize (r'.put s content).publish s = finished at hfinish
      obtain ⟨publication, r''⟩ := finished
      cases publication with
      | waits => rfl
      | _ => exact hfinish
  | _ => exact claimed

theorem pushEmpty (r : Ring α) : part r.pushEmpty.2 = part r :=
  h.complete (h.tryClaim r) none

end Untouched

/-- A part of a ring that no step of a producer's push changes. -/
structure Spared (part : Ring α → β) : Prop where
  glance (r : Ring α) (cachedGating : Int) : part { r with cachedGating } = part r
  grant (r : Ring α) : part r.grant.2 = part r
  reject (r : Ring α) : part (r.count fun m => { m with rejected := m.rejected + 1 }) = part r
  put (r : Ring α) (s : Int) (content : Option α) : part (r.put s content) = part r
  publish (r : Ring α) (s : Int) : part (r.publish s).2 = part r

namespace Spared
variable {part : Ring α → β} (h : Spared part)
include h

theorem untouched : Untouched part := { h with }

theorem claimForPush (r : Ring α) : part r.claimForPush.2 = part r := by
  have hclaim := h.untouched.tryClaim r
  unfold Ring.claimForPush
  split
  · exact h.untouched.claimBlocking r
  · split
    · rename_i r' he
      rw [he] at hclaim
      exact (h.reject r').trans hclaim
    · exact hclaim

theorem push (r : Ring α) (item : α) : part (r.push item).2 = part r :=
  h.untouched.complete (h.claimForPush r) (some item)

theorem pushEmpty (r : Ring α) : part r.pushEmpty.2 = part r :=
  h.untouched.pushEmpty r

end Spared

theorem count_worked (r : Ring α) {event : Metrics → Metrics}
    (h : (event r.metrics).worked = r.metrics.worked) :
    (r.count event).metrics.worked = r.metrics.worked := by
  unfold count
  split_ifs
  · exact h
  · rfl

section Publish
variable (part : Ring α → β) (advance : ∀ r : Ring α, part r.advance = part r)
  (deferred : ∀ (r : Ring α) deferred, part { r with deferred } = part r)
  (held : ∀ (r : Ring α) held, part { r with held } = part r)
include advance deferred

theorem settle_go_same (waiting : List Int) (r : Ring α) :
    part (settle.go waiting r) = part r := by
  induction waiting generalizing r with
  | nil => exact deferred r []
  | cons s rest ih =>
    unfold settle.go
    split_ifs
    · exact (ih r.advance).trans (advance r)
    · exact deferred r _

include held

/-- What no advance of the cursor changes stays when a claim is handed in. -/
theorem publish_same (r : Ring α) (s : Int) : part (r.publish s).2 = part r := by
  have hadvance : part (r.without s).advance = part r := (advance _).trans (held r _)
  by_cases hs : s = r.cursor + 1
  · rw [publish_of_next hs]
    cases r.config.producers with
    | single => exact hadvance
    | multi => exact (settle_go_same part advance deferred _ _).trans hadvance
  · rw [publish_of_not_next hs]
    cases r.config.producers with
    | single => rfl
    | multi => exact (deferred (r.without s) _).trans (held r _)

end Publish

theorem spared_worked : Spared fun r : Ring α => r.metrics.worked where
  glance _ _ := rfl
  grant _ := rfl
  reject r := r.count_worked rfl
  put _ _ _ := rfl
  publish := publish_same (·.metrics.worked) (fun _ => count_worked _ rfl) (fun _ _ => rfl)
    fun _ _ => rfl

theorem push_worked (r : Ring α) (item : α) :
    (r.push item).2.metrics.worked = r.metrics.worked :=
  spared_worked.push r item

theorem spared_halted : Spared fun r : Ring α => r.halted where
  glance _ _ := rfl
  grant _ := rfl
  reject r := by
    obtain ⟨metrics, hcount⟩ := r.count_eq fun m => { m with rejected := m.rejected + 1 }
    rw [hcount]
  put _ _ _ := rfl
  publish r s := (r.publish_keeps s).halted

theorem spared_gating : Spared fun r : Ring α => r.gating where
  glance _ _ := rfl
  grant _ := rfl
  reject r := by
    obtain ⟨metrics, hcount⟩ := r.count_eq fun m => { m with rejected := m.rejected + 1 }
    rw [hcount]
  put _ _ _ := rfl
  publish r s := (r.publish_keeps s).gating

theorem count_gating (r : Ring α) (event : Metrics → Metrics) :
    (r.count event).gating = r.gating := by
  obtain ⟨metrics, hcount⟩ := r.count_eq event
  rw [hcount]

end Ring
end MessageRing
