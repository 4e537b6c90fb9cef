import MessageRing.Proofs.Ring.Steps

/-!
Claims as paths of small steps.

On a ring whose counters are in order a claim comes to one of four things, and only the number of
free slots decides between the last two. A push is a claim that is filled and handed in at once.
-/
namespace MessageRing
namespace Ring
variable {α : Type} {r : Ring α}

def gave : Response Int → List (Note α)
  | .done s => [.gave s]
  | _ => []

theorem tryClaim_of_halted (h : r.halted = true) : r.tryClaim = (.refused .notRunning, r) := by
  unfold tryClaim
  rw [if_pos h]

theorem claimBlocking_of_halted (h : r.halted = true) :
    r.claimBlocking = (.refused .notRunning, r) := by
  unfold claimBlocking
  rw [tryClaim_of_halted h]

theorem push_of_halted (h : r.halted = true) (item : α) :
    r.push item = (.refused .notRunning, r) := by
  unfold push claimForPush complete
  cases r.config.whenFull <;> simp [tryClaim_of_halted h, claimBlocking_of_halted h]

theorem pushEmpty_of_halted (h : r.halted = true) : r.pushEmpty = (.refused .notRunning, r) := by
  unfold pushEmpty complete
  rw [tryClaim_of_halted h]

/-- The single producer's own view of the consumer never changes what a claim comes to. -/
theorem claimSingle_of_counted (h : r.Counted) :
    ∃ r', (r' = r ∨ r' = { r with cachedGating := r.gating }) ∧
      r.claimSingle =
        if r.gating + r.capacity ≤ r.claimed then (.refused .insufficientCapacity, r')
        else if r.held ≠ [] then (.broken .secondClaim, r')
        else r'.grant := by
  have hcached := h.cached_le
  unfold claimSingle
  by_cases hfull : r.gating + r.capacity ≤ r.claimed
  · have hwrap : r.claimed + 1 - r.capacity > r.cachedGating ∧
        r.claimed + 1 - r.capacity > r.gating := by omega
    exact ⟨_, .inr rfl, by rw [if_pos hwrap, if_pos hfull]⟩
  · have hwrap : ¬ (r.claimed + 1 - r.capacity > r.cachedGating ∧
        r.claimed + 1 - r.capacity > r.gating) := by omega
    have hlaps : ¬ r.claimed + 1 - r.gating > r.capacity := by omega
    rw [if_neg hwrap]
    by_cases hstale : r.claimed + 1 - r.capacity > r.cachedGating
    · refine ⟨_, .inr rfl, ?_⟩
      simp only [if_pos hstale, if_neg hfull]
      exact if_congr Iff.rfl rfl (if_neg hlaps)
    · refine ⟨r, .inl rfl, ?_⟩
      simp only [if_neg hstale, if_neg hfull]
      exact if_congr Iff.rfl rfl (if_neg hlaps)

theorem tryClaim_cases (h : r.Counted) :
    (r.halted = true ∧ r.tryClaim.1 = .refused .notRunning ∧ Path r [] r.tryClaim.2) ∨
    (r.halted = false ∧ r.gating + r.capacity ≤ r.claimed ∧
      r.tryClaim.1 = .refused .insufficientCapacity ∧ Path r [] r.tryClaim.2) ∨
    (r.halted = false ∧ r.claimed < r.gating + r.capacity ∧
      r.config.producers = .single ∧ r.held ≠ [] ∧
      r.tryClaim.1 = .broken .secondClaim ∧ Path r [] r.tryClaim.2) ∨
    (r.halted = false ∧ r.claimed < r.gating + r.capacity ∧
      (r.config.producers = .single → r.held = []) ∧
      r.tryClaim.1 = .done (r.claimed + 1) ∧ r.claimed + 1 ∈ r.tryClaim.2.held ∧
      Path r [.gave (r.claimed + 1)] r.tryClaim.2) := by
  by_cases hh : r.halted = true
  · have he : r.tryClaim = (.refused .notRunning, r) := by rw [tryClaim, if_pos hh]
    rw [he]
    exact .inl ⟨hh, rfl, .nil r⟩
  have hrun : r.halted = false := by simpa using hh
  right
  cases hp : r.config.producers with
  | single =>
    have he : r.tryClaim = r.claimSingle := by rw [tryClaim, if_neg hh, hp]
    obtain ⟨r', hr', hclaim⟩ := claimSingle_of_counted h
    have hpath : Path r [] r' := by
      rcases hr' with rfl | rfl
      · exact .nil r'
      · exact (Step.glance r).path
    rw [he, hclaim]
    split_ifs with hfull hbusy
    · exact .inl ⟨hrun, hfull, rfl, hpath⟩
    · exact .inr (.inl ⟨hrun, by omega, rfl, hbusy, rfl, hpath⟩)
    · have hidle : r.held = [] := not_not.mp hbusy
      refine .inr (.inr ⟨hrun, by omega, fun _ => hidle, ?_⟩)
      have hfree : r.claimed < r.gating + r.capacity := by omega
      rcases hr' with rfl | rfl
      · exact ⟨rfl, by simp [grant], (Step.grant r' hrun hfree fun _ => hidle).path⟩
      · have hgrant : Step { r with cachedGating := r.gating } [.gave (r.claimed + 1)] _ :=
          .grant _ hrun hfree fun _ => hidle
        exact ⟨rfl, by simp [grant], hpath.trans hgrant.path⟩
  | multi =>
    have he : r.tryClaim = r.claimMulti := by rw [tryClaim, if_neg hh, hp]
    rw [he]
    unfold claimMulti
    split_ifs with hfull
    · exact .inl ⟨hrun, by omega, rfl, .nil r⟩
    · have halone : r.config.producers = .single → r.held = [] := fun hs => by
        rw [hp] at hs
        cases hs
      refine .inr (.inr ⟨hrun, by omega, fun hs => (by cases hs), rfl, by simp [grant], ?_⟩)
      exact (Step.grant r hrun (by omega) halone).path

theorem tryClaim_path (h : r.Counted) : Path r (gave r.tryClaim.1) r.tryClaim.2 := by
  rcases tryClaim_cases h with ⟨_, he, hp⟩ | ⟨_, _, he, hp⟩ | ⟨_, _, _, _, he, hp⟩ |
    ⟨_, _, _, he, _, hp⟩ <;> rw [he] <;> exact hp

theorem mem_held_of_tryClaim (h : r.Counted) {s : Int} (hs : r.tryClaim.1 = .done s) :
    s ∈ r.tryClaim.2.held := by
  rcases tryClaim_cases h with ⟨_, he, _⟩ | ⟨_, _, he, _⟩ | ⟨_, _, _, _, he, _⟩ |
    ⟨_, _, _, he, hm, _⟩ <;> rw [he] at hs <;> cases hs
  exact hm

theorem tryClaim_next (h : r.Counted) {s : Int} (hs : r.tryClaim.1 = .done s) :
    s = r.claimed + 1 := by
  rcases tryClaim_cases h with ⟨_, he, _⟩ | ⟨_, _, he, _⟩ | ⟨_, _, _, _, he, _⟩ |
    ⟨_, _, _, he, _, _⟩ <;> rw [he] at hs <;> cases hs
  rfl

theorem free_of_tryClaim (h : r.Counted) {s : Int} (hs : r.tryClaim.1 = .done s) :
    r.halted = false ∧ r.claimed < r.gating + r.capacity := by
  rcases tryClaim_cases h with ⟨_, he, _⟩ | ⟨_, _, he, _⟩ | ⟨_, _, _, _, he, _⟩ |
    ⟨hrun, hfree, _, he, _⟩ <;> rw [he] at hs <;> cases hs
  exact ⟨hrun, hfree⟩

theorem claimBlocking_cases (r : Ring α) :
    (r.tryClaim.1 = .refused .insufficientCapacity ∧ r.claimBlocking = (.waits, r)) ∨
    (r.tryClaim.1 ≠ .refused .insufficientCapacity ∧ r.claimBlocking = r.tryClaim) := by
  unfold claimBlocking
  split
  · exact .inl ⟨by simp [*], rfl⟩
  · rename_i hne
    exact .inr ⟨fun he => hne r.tryClaim.2 (Prod.ext he rfl), rfl⟩

theorem claimBlocking_done_iff (r : Ring α) {s : Int} :
    r.claimBlocking.1 = .done s ↔ r.tryClaim.1 = .done s := by
  rcases claimBlocking_cases r with ⟨hfull, he⟩ | ⟨_, he⟩
  · simp [hfull, he]
  · rw [he]

theorem claimBlocking_path (h : r.Counted) : Path r (gave r.claimBlocking.1) r.claimBlocking.2 := by
  rcases claimBlocking_cases r with ⟨_, he⟩ | ⟨_, he⟩
  · rw [he]
    exact .nil r
  · rw [he]
    exact tryClaim_path h

theorem claimForPush_cases (r : Ring α) :
    r.claimForPush = r.claimBlocking ∨ r.claimForPush = r.tryClaim ∨
    (r.tryClaim.1 = .refused .insufficientCapacity ∧
      ∃ metrics, r.claimForPush = (.refused .rejected, { r.tryClaim.2 with metrics })) := by
  unfold claimForPush
  split
  · exact .inl rfl
  · split
    · rename_i r' he
      obtain ⟨m, hm⟩ := r'.count_eq fun m => { m with rejected := m.rejected + 1 }
      refine .inr (.inr ⟨by rw [he], m, ?_⟩)
      rw [hm, he]
    · exact .inr (.inl rfl)

theorem claimForPush_done_iff (r : Ring α) {s : Int} :
    r.claimForPush.1 = .done s ↔ r.tryClaim.1 = .done s := by
  rcases claimForPush_cases r with he | he | ⟨hfull, m, he⟩ <;> rw [he]
  · exact claimBlocking_done_iff r
  · simp [hfull]

theorem claimForPush_path (h : r.Counted) :
    Path r (gave r.claimForPush.1) r.claimForPush.2 := by
  rcases claimForPush_cases r with he | he | ⟨hfull, m, he⟩
  · rw [he]
    exact claimBlocking_path h
  · rw [he]
    exact tryClaim_path h
  · have hp := tryClaim_path h
    rw [hfull] at hp
    rw [he]
    exact hp.trans (Step.tally _ m).path

theorem mem_held_of_claimForPush (h : r.Counted) {s : Int} (hs : r.claimForPush.1 = .done s) :
    s ∈ r.claimForPush.2.held := by
  rcases claimForPush_cases r with he | he | ⟨_, m, he⟩ <;> rw [he] at hs ⊢
  · rcases claimBlocking_cases r with ⟨_, hb⟩ | ⟨_, hb⟩ <;> rw [hb] at hs ⊢
    · cases hs
    · exact mem_held_of_tryClaim h hs
  · exact mem_held_of_tryClaim h hs
  · cases hs

/-- The changes of a claim that was filled and handed in at once. -/
def filled (content : Option α) : Response Int → List (Note α)
  | .done s => [.gave s, .stored s content, .handedIn s]
  | _ => []

theorem put_publish_path {r : Ring α} {s : Int} (content : Option α) (hheld : s ∈ r.held) :
    Path r [.stored s content, .handedIn s] ((r.put s content).publish s).2 :=
  (Step.store r content hheld).path.trans (Step.handIn (r.put s content) hheld).path

theorem put_publish_done {r : Ring α} (h : r.Counted) {s : Int} (content : Option α)
    (hheld : s ∈ r.held) : ∃ outcome, ((r.put s content).publish s).1 = .done outcome :=
  publish_done ((Step.store r content hheld).counted h) hheld

theorem complete_path (h : r.Counted) (content : Option α) {claim : Response Int × Ring α}
    (hpath : Path r (gave claim.1) claim.2) (hheld : ∀ s, claim.1 = .done s → s ∈ claim.2.held) :
    Path r (filled content (r.complete claim fun r s => (r.put s content).publish s).1)
      (r.complete claim fun r s => (r.put s content).publish s).2 := by
  obtain ⟨response, r'⟩ := claim
  cases response with
  | done s =>
    obtain ⟨outcome, hdone⟩ := put_publish_done (hpath.counted h) content (hheld s rfl)
    have hput := put_publish_path content (hheld s rfl)
    have he : (r'.put s content).publish s = (.done outcome, ((r'.put s content).publish s).2) :=
      Prod.ext hdone rfl
    unfold complete
    dsimp only
    split_ifs
    · exact .nil r
    · rw [he]
      exact hpath.trans hput
  | refused e => exact hpath
  | broken v => exact hpath
  | waits => exact hpath

/-- A claim that succeeds is completed at once when no other one is on its way. -/
theorem complete_done_iff (h : r.Counted) (settled : r.outstanding = []) (content : Option α)
    {claim : Response Int × Ring α} (hpath : Path r (gave claim.1) claim.2)
    (hheld : ∀ s, claim.1 = .done s → s ∈ claim.2.held) {s : Int} :
    (r.complete claim fun r s => (r.put s content).publish s).1 = .done s ↔ claim.1 = .done s := by
  have hunsettled : r.unsettled = false := by
    simpa [outstanding, unsettled] using settled
  obtain ⟨response, r'⟩ := claim
  cases response with
  | done t =>
    obtain ⟨outcome, hdone⟩ := put_publish_done (hpath.counted h) content (hheld t rfl)
    have he : (r'.put t content).publish t = (.done outcome, ((r'.put t content).publish t).2) :=
      Prod.ext hdone rfl
    unfold complete
    dsimp only
    rw [hunsettled, if_neg (by simp), he]
  | refused e => exact Iff.rfl
  | broken v => exact Iff.rfl
  | waits => exact Iff.rfl

/-- A claim that succeeds is completed or has to wait, and nothing else is done about any other. -/
theorem complete_cases (h : r.Counted) (content : Option α) {claim : Response Int × Ring α}
    (hpath : Path r (gave claim.1) claim.2) (hheld : ∀ s, claim.1 = .done s → s ∈ claim.2.held) :
    (∃ s, claim.1 = .done s ∧
      ((r.complete claim fun r s => (r.put s content).publish s).1 = .done s ∨
        (r.complete claim fun r s => (r.put s content).publish s).1 = .waits)) ∨
    (∀ s, claim.1 ≠ .done s) ∧
      r.complete claim (fun r s => (r.put s content).publish s) = claim := by
  obtain ⟨response, r'⟩ := claim
  cases response with
  | done s =>
    obtain ⟨outcome, hdone⟩ := put_publish_done (hpath.counted h) content (hheld s rfl)
    have he : (r'.put s content).publish s = (.done outcome, ((r'.put s content).publish s).2) :=
      Prod.ext hdone rfl
    refine .inl ⟨s, rfl, ?_⟩
    unfold complete
    dsimp only
    split_ifs
    · exact .inr rfl
    · rw [he]
      exact .inl rfl
  | refused e => exact .inr ⟨by simp, rfl⟩
  | broken v => exact .inr ⟨by simp, rfl⟩
  | waits => exact .inr ⟨by simp, rfl⟩

theorem push_path (h : r.Counted) (item : α) :
    Path r (filled (some item) (r.push item).1) (r.push item).2 :=
  complete_path h (some item) (claimForPush_path h) fun _ => mem_held_of_claimForPush h

theorem pushEmpty_path (h : r.Counted) : Path r (filled none r.pushEmpty.1) r.pushEmpty.2 :=
  complete_path h none (tryClaim_path h) fun _ => mem_held_of_tryClaim h

/-- The item of the last claim, if there was one since. -/
def stored (r r' : Ring α) : List α :=
  if r'.claimed = r.claimed then [] else (r'.peek r'.claimed).toList

theorem complete_done {claim : Response Int × Ring α}
    {finish : Ring α → Int → Response Publication × Ring α} {s : Int}
    (done : (r.complete claim finish).1 = .done s) :
    claim.1 = .done s ∧ (r.complete claim finish).2 = (finish claim.2 s).2 := by
  obtain ⟨response, r'⟩ := claim
  cases response with
  | done t =>
    unfold complete at done ⊢
    dsimp only at done ⊢
    split_ifs at done ⊢
    generalize hfinish : finish r' t = outcome at done ⊢
    obtain ⟨answer, _⟩ := outcome
    cases answer <;> cases done
    exact ⟨rfl, by rw [hfinish]⟩
  | _ => cases done

/-- A claim that was filled and handed in at once can be read in its slot. -/
theorem complete_stored (h : r.Counted) (content : Option α) {claim : Response Int × Ring α}
    (hpath : Path r (gave claim.1) claim.2) (hheld : ∀ s, claim.1 = .done s → s ∈ claim.2.held)
    (next : ∀ s, claim.1 = .done s → s = r.claimed + 1) :
    r.stored (r.complete claim fun r s => (r.put s content).publish s).2 =
      (filled content (r.complete claim fun r s => (r.put s content).publish s).1).filterMap
        Note.item? := by
  have hclaimed := (complete_path h content hpath hheld).claimed_eq
  cases hanswer : (r.complete claim fun r s => (r.put s content).publish s).1 with
  | done s =>
    obtain ⟨hclaim, hring⟩ := complete_done hanswer
    have hlast : (r.complete claim fun r s => (r.put s content).publish s).2.claimed = s := by
      rw [hanswer] at hclaimed
      exact hclaimed.trans (next s hclaim).symm
    have hpeek : (r.complete claim fun r s => (r.put s content).publish s).2.peek s = content := by
      rw [hring, ((claim.2.put s content).publish_keeps s).peek, peek_put_self]
    rw [stored, hlast, hpeek, if_neg (by rw [next s hclaim]; omega)]
    cases content <;> rfl
  | _ =>
    rw [hanswer] at hclaimed
    rw [stored, if_pos (hclaimed.trans (add_zero _))]
    rfl

theorem push_stored (h : r.Counted) (item : α) :
    r.stored (r.push item).2 = (filled (some item) (r.push item).1).filterMap Note.item? := by
  refine complete_stored h (some item) (claimForPush_path h)
    (fun _ => mem_held_of_claimForPush h) fun s hs => ?_
  exact tryClaim_next h ((claimForPush_done_iff r).mp hs)

theorem pushEmpty_stored (h : r.Counted) :
    r.stored r.pushEmpty.2 = (filled none r.pushEmpty.1).filterMap Note.item? :=
  complete_stored h none (tryClaim_path h) (fun _ => mem_held_of_tryClaim h)
    fun _ => tryClaim_next h

end Ring
end MessageRing
