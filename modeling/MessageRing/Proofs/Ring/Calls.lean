import MessageRing.Proofs.Ring.Claims

/-!
Calls as paths of small steps, and what holds in every state that calls lead to.
-/
namespace MessageRing
namespace Ring
variable {α : Type} {r : Ring α}

theorem drainNext_of_le (r : Ring α) {d : Drain} (h : d.next ≤ d.available) :
    r.drainNext d =
      some ((d.next, r.peek d.next), { d with next := d.next + 1 }, r.put d.next none) := by
  unfold drainNext
  rw [if_neg (by omega)]

theorem drainNext_of_lt (r : Ring α) {d : Drain} (h : d.available < d.next) :
    r.drainNext d = none := by
  unfold drainNext
  rw [if_pos h]

theorem drainMany_path (limit : Nat) (r : Ring α) (d : Drain) (h : d.available ≤ r.cursor) :
    Path r ((drainMany limit r d).1.map fun entry => .took entry.1 entry.2)
      (drainMany limit r d).2.2 := by
  induction limit generalizing r d with
  | zero => exact .nil r
  | succ limit ih =>
    by_cases hd : d.next ≤ d.available
    · have hrest := ih (r.put d.next none) { d with next := d.next + 1 } h
      unfold drainMany
      rw [drainNext_of_le r hd]
      exact (Step.take r (hd.trans h)).path.trans hrest
    · unfold drainMany
      rw [drainNext_of_lt r (by omega)]
      exact .nil r

/-- A drain either breaks off and changes nothing or takes entries out one by one. -/
theorem drain_cases (r : Ring α) (next available : Int) (limit : Nat) :
    (∃ v, r.drain next available limit = (.broken v, r)) ∨
    (available ≤ r.cursor ∧ ∃ before after,
      r.drain next available limit =
        (.drained (drainMany limit r ⟨next, available⟩).1 before after,
          (drainMany limit r ⟨next, available⟩).2.2)) := by
  unfold drain drainUpTo
  split_ifs with hbeyond
  · exact .inl ⟨_, rfl⟩
  · dsimp only [bind, Except.bind, pure, Except.pure]
    cases Drain.sizeHint ⟨next, available⟩ with
    | error v => exact .inl ⟨v, rfl⟩
    | ok before =>
      dsimp only
      cases Drain.sizeHint (drainMany limit r ⟨next, available⟩).2.1 with
      | error v => exact .inl ⟨v, rfl⟩
      | ok after => exact .inr ⟨by omega, before, after, rfl⟩

/-- A call on a claim that no producer holds does nothing. -/
theorem onClaim_path {s : Int} {call : Call α} {run : Unit → Answer α × Ring α}
    (hrun : s ∈ r.held → Path r (notes (call, (run ()).1)) (run ()).2)
    (hnone : notes (call, (.noClaim : Answer α)) = []) :
    Path r (notes (call, (r.onClaim s run).1)) (r.onClaim s run).2 := by
  unfold onClaim
  split_ifs with hs
  · exact hrun hs
  · rw [hnone]
    exact .nil r

/-- A call of the consumer does nothing before the handle has been given out. -/
theorem onConsumer_path {call : Call α} {run : Unit → Answer α × Ring α}
    (hrun : Path r (notes (call, (run ()).1)) (run ()).2)
    (hnone : notes (call, (.noConsumer : Answer α)) = []) :
    Path r (notes (call, (r.onConsumer run).1)) (r.onConsumer run).2 := by
  unfold onConsumer
  split_ifs with hc
  · exact hrun
  · rw [hnone]
    exact .nil r

theorem release_cases (r : Ring α) (s : Int) :
    (r.gating ≤ s ∧ s ≤ r.cursor ∧ r.release s = .ok { r with gating := s }) ∨
    ∃ v, r.release s = .error v := by
  unfold release
  split_ifs with hback hbeyond
  · exact .inr ⟨_, rfl⟩
  · exact .inr ⟨_, rfl⟩
  · exact .inl ⟨by omega, by omega, rfl⟩

theorem release_of_le {r : Ring α} {s : Int} (later : r.gating ≤ s) (visible : s ≤ r.cursor) :
    r.release s = .ok { r with gating := s } := by
  unfold release
  rw [if_neg (by omega), if_neg (by omega)]

theorem waitFor_upTo {r : Ring α} {required s : Int} (h : r.waitFor required = .upTo s) :
    s = r.cursor ∧ required ≤ r.cursor := by
  unfold waitFor at h
  split_ifs at h with hvisible
  cases h
  exact ⟨rfl, hvisible⟩

theorem waitFor_halted {r : Ring α} {required : Int} (h : r.waitFor required = .halted) :
    r.cursor < required ∧ r.halted = true ∧ r.claimed < required := by
  unfold waitFor at h
  split_ifs at h with hvisible hover
  exact ⟨by omega, hover.1, hover.2⟩

theorem reply_notes {ρ : Type} {f : Response ρ → List (Note α)} {call : Call α} {ok : ρ → Answer α}
    (outcome : Response ρ × Ring α)
    (hnotes : ∀ response, notes (call, (reply (response, outcome.2) ok).1) = f response) :
    notes (call, (reply outcome ok).1) = f outcome.1 :=
  hnotes outcome.1

theorem reply_ring {ρ : Type} (outcome : Response ρ × Ring α) (ok : ρ → Answer α) :
    (reply outcome ok).2 = outcome.2 := by
  obtain ⟨response, r⟩ := outcome
  cases response <;> rfl

theorem notes_push (r : Ring α) (item : α) :
    notes (.push item, (r.answer (.push item)).1) = filled (some item) (r.push item).1 :=
  reply_notes _ fun response => by cases response <;> rfl

theorem reply_path {ρ : Type} {f : Response ρ → List (Note α)} {call : Call α} {ok : ρ → Answer α}
    {outcome : Response ρ × Ring α} (hpath : Path r (f outcome.1) outcome.2)
    (hnotes : ∀ response, notes (call, (reply (response, outcome.2) ok).1) = f response) :
    Path r (notes (call, (reply outcome ok).1)) (reply outcome ok).2 := by
  rw [reply_notes outcome hnotes, reply_ring]
  exact hpath

/-- Every call is a path of small changes, and its answer tells which. -/
theorem answer_path (h : r.Counted) (call : Call α) :
    Path r (notes (call, (r.answer call).1)) (r.answer call).2 := by
  cases call with
  | push item => exact reply_path (push_path h item) fun response => by cases response <;> rfl
  | pushEmpty => exact reply_path (pushEmpty_path h) fun response => by cases response <;> rfl
  | claim => exact reply_path (tryClaim_path h) fun response => by cases response <;> rfl
  | claimBlocking =>
    exact reply_path (claimBlocking_path h) fun response => by cases response <;> rfl
  | look s => exact onClaim_path (fun _ => .nil r) rfl
  | set s content => exact onClaim_path (fun hs => (Step.store r content hs).path) rfl
  | publish s =>
    refine onClaim_path (fun hs => ?_) rfl
    obtain ⟨outcome, hdone⟩ := publish_done h hs
    have hpublish : r.publish s = (.done outcome, (r.publish s).2) := Prod.ext hdone rfl
    have hstep := (Step.handIn r hs).path
    rw [hpublish] at hstep ⊢
    exact hstep
  | write s item =>
    refine onClaim_path (fun hs => ?_) rfl
    obtain ⟨outcome, hdone⟩ := put_publish_done h (some item) hs
    have hwrite : r.write s item = (.done outcome, (r.write s item).2) := Prod.ext hdone rfl
    have hput : Path r _ (r.write s item).2 := put_publish_path (some item) hs
    rw [hwrite] at hput ⊢
    exact hput
  | abandon s =>
    refine onClaim_path (fun hs => ?_) rfl
    obtain ⟨outcome, hdone⟩ := put_publish_done h none hs
    have habandon : r.abandon s = (.done outcome, (r.abandon s).2) := Prod.ext hdone rfl
    have hput : Path r _ (r.abandon s).2 := put_publish_path none hs
    rw [habandon] at hput ⊢
    cases outcome <;> exact hput
  | consumer =>
    unfold answer takeConsumer
    split_ifs
    · exact .nil r
    · exact (Step.attach r).path
  | next => exact onConsumer_path (.nil r) rfl
  | waitFor s =>
    refine onConsumer_path ?_ rfl
    cases hw : r.waitFor s with
    | upTo a =>
      obtain ⟨rfl, _⟩ := waitFor_upTo hw
      exact (Step.tell r).path
    | halted => exact .nil r
    | waits => exact .nil r
  | drain next available limit =>
    refine onConsumer_path ?_ rfl
    rcases drain_cases r next available limit with ⟨v, hd⟩ | ⟨hle, before, after, hd⟩ <;> rw [hd]
    · exact .nil r
    · exact drainMany_path limit r ⟨next, available⟩ hle
  | release s =>
    refine onConsumer_path ?_ rfl
    rcases release_cases r s with ⟨hlater, hvisible, he⟩ | ⟨v, he⟩ <;> rw [he]
    · exact (Step.release r hlater hvisible).path
    · exact .nil r
  | halt => exact (Step.halt r).path
  | status => exact .nil r

def Call.consumes : Call α → Bool
  | .waitFor _ | .drain _ _ _ | .release _ => true
  | _ => false

theorem filled_produced (content : Option α) (response : Response Int) :
    ∀ note ∈ filled content response, note.produced = true := by
  cases response <;> simp [filled, Note.produced]

/-- Calls of others than the consumer change nothing that is the consumer's. -/
theorem notes_produced {call : Call α} (other : call.consumes = false) (answer : Answer α) :
    ∀ note ∈ notes (call, answer), note.produced = true := by
  unfold notes
  split
  case h_10 h | h_11 h | h_12 h =>
    -- only the consumer makes these calls
    cases h
    cases other
  all_goals simp [Note.produced]

def Call.claims : Call α → Bool
  | .push _ | .pushEmpty | .claim | .claimBlocking => true
  | _ => false

/-- A call that would claim is refused by a halted ring, be it full or not, and changes nothing. -/
theorem answer_of_halted (h : r.halted = true) {call : Call α} (claims : call.claims = true) :
    r.answer call = (.refused .notRunning, r) := by
  cases call with
  | push item => simp [answer, push_of_halted h, reply]
  | pushEmpty => simp [answer, pushEmpty_of_halted h, reply]
  | claim => simp [answer, tryClaim_of_halted h, reply]
  | claimBlocking => simp [answer, claimBlocking_of_halted h, reply]
  | _ => cases claims

/-- The states of a list of calls are joined by its notes. -/
theorem history_path (h : r.Counted) (calls : List (Call α)) :
    Path r (r.history calls) (r.after calls) := by
  induction calls generalizing r with
  | nil => exact .nil r
  | cons call calls ih =>
    have hfirst := answer_path h call
    exact hfirst.trans (ih (hfirst.counted h))

/-- A call gives out one sequence at most. -/
theorem countP_gives_notes (event : Call α × Answer α) :
    (notes event).countP Note.gives ≤ 1 := by
  unfold notes
  split
  case h_11 entries _ _ =>
    rw [List.countP_map]
    exact (List.countP_eq_zero.mpr fun entry _ => Bool.false_ne_true).trans_le (Nat.zero_le 1)
  all_goals simp [List.countP_cons, Note.gives]

theorem claimed_after_le (h : r.Counted) (calls : List (Call α)) :
    (r.after calls).claimed ≤ r.claimed + calls.length := by
  induction calls generalizing r with
  | nil => simp [after]
  | cons call calls ih =>
    have hfirst := answer_path h call
    have hone := countP_gives_notes (call, (r.answer call).1)
    have hclaimed := hfirst.claimed_eq
    have hrest := ih (hfirst.counted h)
    change ((r.answer call).2.after calls).claimed ≤ _
    rw [List.length_cons]
    omega

/-- A ring has been called more often than it has made a sequence visible. -/
theorem cursor_after_lt {config : Config} {metrics : Metrics} {new : Ring α}
    (made : Ring.make config metrics = .ok new) (calls : List (Call α)) :
    (new.after calls).cursor < calls.length := by
  have hnew := make_counted made
  have hcursor := ((history_path hnew calls).counted hnew).cursor_le
  have hclaimed := claimed_after_le hnew calls
  rw [make_claimed made] at hclaimed
  omega

theorem Reachable.counted {config : Config} (h : Ring.Reachable config r) : r.Counted := by
  obtain ⟨new, calls, hnew, rfl⟩ := h
  exact (history_path (make_counted hnew) calls).counted (make_counted hnew)

/-- A ring that is made is found by evaluation. -/
theorem exists_make (config : Config) (metrics : Metrics) (p : Ring α → Prop) [DecidablePred p]
    (h : (Ring.make config metrics).toOption.any (fun new => p new) = true) :
    ∃ new, Ring.make config metrics = .ok new ∧ p new := by
  cases hmake : Ring.make (α := α) config metrics with
  | error fault => simp [hmake, Except.toOption] at h
  | ok new => exact ⟨new, rfl, by simpa [hmake, Except.toOption] using h⟩

/-- The counters of a ring keep their order and never go back, whatever is called and however the
calls end. Between the cursor and the last claimed sequence lie exactly the outstanding claims, and
the two counts reported to callers are plain differences. -/
theorem reachable_counters {config : Config} (h : Ring.Reachable config r) :
    (-1 ≤ r.gating ∧ r.gating ≤ r.cursor ∧ r.cursor ≤ r.claimed ∧
      r.claimed ≤ r.gating + r.capacity) ∧
    (r.outstanding.Nodup ∧ (∀ s, s ∈ r.outstanding ↔ r.cursor < s ∧ s ≤ r.claimed) ∧
      r.claimed - r.cursor = r.outstanding.length) ∧
    r.cachedGating ≤ r.gating ∧
    ((r.length : Int) = r.cursor - r.gating ∧ r.length ≤ r.capacity) ∧
    (r.remaining : Int) = r.capacity - (r.claimed - r.gating) ∧
    ∀ call, r.claimed ≤ (r.answer call).2.claimed ∧ r.cursor ≤ (r.answer call).2.cursor ∧
      r.gating ≤ (r.answer call).2.gating := by
  have hc := h.counted
  have hcursor := hc.cursor_le
  have hclaimed := hc.claimed_le
  have hlength := hc.length_eq
  refine ⟨⟨hc.start, hc.gating_le, hcursor, hclaimed⟩, ⟨hc.nodup, hc.mem_outstanding, ?_⟩,
    hc.cached_le, ⟨hlength, by omega⟩, hc.remaining_eq,
    fun call => (answer_path hc call).counters_le⟩
  exact hc.length_outstanding.symm

/-- A ring of two slots after a wrap, with an outstanding claim, a claim that broke off, and
sequences given back without having been taken. -/
theorem reachable_counters_wrapped :
    ∃ r : Ring Nat, Ring.Reachable { capacity := 2, producers := .single } r ∧
      r.outstanding = [3] ∧ r.gating = 1 ∧ r.cursor = 2 ∧
      r.claimed - r.cursor = r.outstanding.length ∧ r.claimed ≤ r.gating + r.capacity := by
  let calls : List (Call Nat) :=
    [.consumer, .push 5, .claim, .write 1 6, .push 7, .release 1, .release 0, .push 7, .claim,
      .claim, .drain 0 9 1]
  obtain ⟨new, hnew, hrun⟩ := exists_make { capacity := 2, producers := .single } {}
    (fun new : Ring Nat => (new.after calls).outstanding = [3] ∧ (new.after calls).gating = 1 ∧
      (new.after calls).cursor = 2) (by decide +kernel)
  have h : Ring.Reachable _ (new.after calls) := ⟨new, calls, hnew, rfl⟩
  exact ⟨_, h, hrun.1, hrun.2.1, hrun.2.2, (reachable_counters h).2.1.2.2,
    (reachable_counters h).1.2.2.2⟩

end Ring
end MessageRing
