import MessageRing.Proofs.Ring.Calls
import MessageRing.Worker.Turn

/-!
A single producer's ring does what a ring for several producers does.

As long as at most one claim is on its way, the two modes differ only in how they look for room:
a single producer goes by its own copy of the consumer's place for as long as that suffices.
`shared` takes a single producer's ring to the ring for several that is in the same state; every
call commutes with it.
-/
namespace MessageRing
namespace Ring
variable {α : Type} {r : Ring α}

/-- The same ring, set up for several producers. These keep no copy of the consumer's place. -/
def shared (r : Ring α) : Ring α :=
  { r with
    config := { r.config with producers := .multi }
    valid := r.valid
    slots := r.slots
    cachedGating := -1 }

/-- The outcome of a call on the same ring, set up for several producers. -/
def sharedOutcome {ρ : Type} (outcome : ρ × Ring α) : ρ × Ring α := (outcome.1, outcome.2.shared)

/-- At most one claim is on its way: none is when a call would claim, unless it is refused anyway. -/
def Sole (r : Ring α) (call : Call α) : Prop :=
  call.claims = true → r.outstanding = [] ∨ r.halted = true ∨ r.remaining = 0

instance (r : Ring α) (call : Call α) : Decidable (r.Sole call) :=
  inferInstanceAs (Decidable (_ → _))

def SoleAll (r : Ring α) : List (Call α) → Prop
  | [] => True
  | call :: calls => r.Sole call ∧ (r.answer call).2.SoleAll calls

instance decidableSoleAll (r : Ring α) : (calls : List (Call α)) → Decidable (r.SoleAll calls)
  | [] => .isTrue trivial
  | call :: calls =>
    have := (r.answer call).2.decidableSoleAll calls
    inferInstanceAs (Decidable (_ ∧ _))

/-- Everything that can be seen of a ring while calls are made: their answers, and after each of
them the counters and the metrics. -/
def reports (r : Ring α) : List (Call α) → List (Answer α × Status × Metrics)
  | [] => []
  | call :: calls =>
    let outcome := r.answer call
    (outcome.1, outcome.2.status, outcome.2.metrics) :: outcome.2.reports calls

theorem make_shared (config : Config) (metrics : Metrics) :
    Ring.make { config with producers := .multi } metrics =
      (Ring.make (α := α) { config with producers := .single } metrics).map shared := by
  unfold Ring.make
  have hvalid : Config.Valid { config with producers := .multi } ↔
      Config.Valid { config with producers := .single } := Iff.rfl
  by_cases h : Config.Valid { config with producers := .single }
  · rw [dif_pos h, dif_pos (hvalid.mpr h)]
    dsimp only
    split_ifs <;> rfl
  · rw [dif_neg h, dif_neg (hvalid.not.mpr h)]
    rfl

theorem shared_count (r : Ring α) (event : Metrics → Metrics) :
    r.shared.count event = (r.count event).shared := by
  unfold count
  by_cases h : r.config.metrics = true
  · rw [if_pos h, if_pos (show r.shared.config.metrics = true from h)]
    rfl
  · rw [if_neg h, if_neg (show ¬ r.shared.config.metrics = true from h)]

theorem shared_advance (r : Ring α) : r.shared.advance = r.advance.shared :=
  shared_count { r with cursor := r.cursor + 1 } _

/-- The copy of the consumer's place changes nothing in what a claim comes to. -/
theorem tryClaim_shared (h : r.Counted) (single : r.config.producers = .single)
    (sole : r.held = [] ∨ r.halted = true ∨ r.remaining = 0) :
    r.shared.tryClaim = sharedOutcome r.tryClaim := by
  have hremaining := h.remaining_eq
  by_cases hh : r.halted = true
  · rw [tryClaim_of_halted hh, tryClaim_of_halted (show r.shared.halted = true from hh)]
    rfl
  · obtain ⟨r', hr', hclaim⟩ := claimSingle_of_counted h
    have hone : r.tryClaim = r.claimSingle := by rw [tryClaim, if_neg hh, single]
    have hmany : r.shared.tryClaim = r.shared.claimMulti := by
      rw [tryClaim, if_neg (show ¬ r.shared.halted = true from hh)]
      rfl
    have hsame : r'.shared = r.shared := by rcases hr' with rfl | rfl <;> rfl
    rw [hone, hmany, hclaim]
    unfold claimMulti
    by_cases hfull : r.gating + r.capacity ≤ r.claimed
    · have hfull' : r.shared.claimed + 1 - r.shared.capacity > r.shared.gating := by
        change r.claimed + 1 - (r.capacity : Int) > r.gating
        omega
      rw [if_pos hfull, if_pos hfull', sharedOutcome, hsame]
    · have hfree' : ¬ r.shared.claimed + 1 - r.shared.capacity > r.shared.gating := by
        change ¬ r.claimed + 1 - (r.capacity : Int) > r.gating
        omega
      have hidle : r.held = [] := by
        rcases sole with hidle | hhalted | hnone
        · exact hidle
        · exact absurd hhalted hh
        · omega
      rw [if_neg hfull, if_neg hfree', if_neg (not_not.mpr hidle), ← hsame]
      rfl

theorem claimBlocking_shared (htry : r.shared.tryClaim = sharedOutcome r.tryClaim) :
    r.shared.claimBlocking = sharedOutcome r.claimBlocking := by
  unfold claimBlocking
  rw [htry]
  obtain ⟨response, r'⟩ := r.tryClaim
  cases response with
  | refused e => cases e <;> rfl
  | _ => rfl

theorem claimForPush_shared (htry : r.shared.tryClaim = sharedOutcome r.tryClaim) :
    r.shared.claimForPush = sharedOutcome r.claimForPush := by
  have hpolicy : r.shared.config.whenFull = r.config.whenFull := rfl
  unfold claimForPush
  rw [hpolicy, htry]
  cases r.config.whenFull with
  | block => exact claimBlocking_shared htry
  | reject =>
    obtain ⟨response, r'⟩ := r.tryClaim
    cases response with
    | refused e =>
      cases e with
      | insufficientCapacity => exact congrArg (Prod.mk _) (shared_count r' _)
      | _ => rfl
    | _ => rfl

theorem settle_of_none (h : r.deferred = []) : r.settle = r := by
  cases r
  cases h
  rfl

/-- With one claim on its way nothing is ever deferred. -/
theorem publish_shared (h : r.Counted) (single : r.config.producers = .single) {s : Int}
    (hs : s ∈ r.held) : r.shared.publish s = sharedOutcome (r.publish s) := by
  obtain ⟨_, hnext⟩ := h.held_eq_of_single single hs
  have hnone : (r.without s).advance.shared.deferred = [] := by
    obtain ⟨m, he⟩ := (r.without s).advance_eq
    rw [he]
    exact (h.single single).1
  rw [publish_of_next hnext, publish_of_next (show s = r.shared.cursor + 1 from hnext), single]
  refine congrArg (Prod.mk _) ?_
  change (r.without s).shared.advance.settle = (r.without s).advance.shared
  rw [shared_advance, settle_of_none hnone]

theorem put_publish_shared (h : r.Counted) (single : r.config.producers = .single) {s : Int}
    (content : Option α) (hs : s ∈ r.held) :
    (r.shared.put s content).publish s = sharedOutcome ((r.put s content).publish s) :=
  publish_shared ((Step.store r content hs).counted h) single hs

/-- A claim that succeeds finds no other one on its way, so it is completed at once. -/
theorem complete_shared (h : r.Counted) (single : r.config.producers = .single)
    {claim : Response Int × Ring α} (content : Option α)
    (hpath : Path r (gave claim.1) claim.2) (hheld : ∀ s, claim.1 = .done s → s ∈ claim.2.held)
    (hsettled : ∀ s, claim.1 = .done s → r.outstanding = []) :
    r.shared.complete (sharedOutcome claim) (fun r s => (r.put s content).publish s) =
      sharedOutcome (r.complete claim fun r s => (r.put s content).publish s) := by
  obtain ⟨response, r'⟩ := claim
  cases response with
  | done s =>
    have hsingle : r'.config.producers = .single := by rw [hpath.config_eq, single]
    have hunsettled : r.unsettled = false := by
      simpa [outstanding, unsettled] using hsettled s rfl
    have hpublish := put_publish_shared (hpath.counted h) hsingle content (hheld s rfl)
    have hmany : ¬ (r.shared.config.producers = .multi ∧ r.shared.unsettled = true) := by
      change ¬ (_ ∧ r.unsettled = true)
      rw [hunsettled]
      simp
    have hone : ¬ (r.config.producers = .multi ∧ r.unsettled = true) := by simp [single]
    unfold complete sharedOutcome
    dsimp only
    rw [if_neg hmany, if_neg hone, hpublish]
    obtain ⟨outcome, hdone⟩ := put_publish_done (hpath.counted h) content (hheld s rfl)
    have he : (r'.put s content).publish s = (.done outcome, ((r'.put s content).publish s).2) :=
      Prod.ext hdone rfl
    rw [he]
    rfl
  | _ => rfl

theorem reply_shared {ρ : Type} (outcome : Response ρ × Ring α) {ok ok' : ρ → Answer α}
    (hok : ok = ok') :
    reply (sharedOutcome outcome) ok = sharedOutcome (reply outcome ok') := by
  obtain ⟨response, r⟩ := outcome
  cases response <;> simp [reply, sharedOutcome, hok]

theorem onClaim_shared {s : Int} {run run' : Unit → Answer α × Ring α}
    (hrun : s ∈ r.held → run () = sharedOutcome (run' ())) :
    r.shared.onClaim s run = sharedOutcome (r.onClaim s run') := by
  unfold onClaim
  by_cases hs : s ∈ r.held
  · rw [if_pos hs, if_pos (show s ∈ r.shared.held from hs), hrun hs]
  · rw [if_neg hs, if_neg (show ¬ s ∈ r.shared.held from hs)]
    rfl

theorem onConsumer_shared {run run' : Unit → Answer α × Ring α}
    (hrun : run () = sharedOutcome (run' ())) :
    r.shared.onConsumer run = sharedOutcome (r.onConsumer run') := by
  unfold onConsumer
  by_cases hc : r.consumed = true
  · rw [if_pos hc, if_pos (show r.shared.consumed = true from hc), hrun]
  · rw [if_neg hc, if_neg (show ¬ r.shared.consumed = true from hc)]
    rfl

theorem drainMany_shared (limit : Nat) (r : Ring α) (d : Drain) :
    drainMany limit r.shared d =
      ((drainMany limit r d).1, (drainMany limit r d).2.1, (drainMany limit r d).2.2.shared) := by
  induction limit generalizing r d with
  | zero => rfl
  | succ limit ih =>
    have hrest := ih (r.put d.next none) { d with next := d.next + 1 }
    unfold drainMany
    by_cases hd : d.next ≤ d.available
    · rw [drainNext_of_le r hd, drainNext_of_le r.shared hd]
      have hput : r.shared.put d.next none = (r.put d.next none).shared := rfl
      dsimp only
      rw [hput, hrest]
      rfl
    · rw [drainNext_of_lt r (by omega), drainNext_of_lt r.shared (by omega)]

theorem drain_shared (r : Ring α) (next available : Int) (limit : Nat) :
    r.shared.drain next available limit = sharedOutcome (r.drain next available limit) := by
  have hbegin : r.shared.drainUpTo next available = r.drainUpTo next available := rfl
  unfold drain
  rw [hbegin]
  cases r.drainUpTo next available with
  | error v => rfl
  | ok d =>
    dsimp only [bind, Except.bind, pure, Except.pure]
    cases d.sizeHint with
    | error v => rfl
    | ok before =>
      rw [drainMany_shared]
      dsimp only
      cases Drain.sizeHint (drainMany limit r d).2.1 <;> rfl

theorem release_shared (r : Ring α) (s : Int) :
    r.shared.release s = (r.release s).map shared := by
  unfold release
  by_cases hback : s < r.gating
  · rw [if_pos hback, if_pos (show s < r.shared.gating from hback)]
    rfl
  · rw [if_neg hback, if_neg (show ¬ s < r.shared.gating from hback)]
    by_cases hbeyond : s > r.cursor
    · rw [if_pos hbeyond, if_pos (show s > r.shared.cursor from hbeyond)]
      rfl
    · rw [if_neg hbeyond, if_neg (show ¬ s > r.shared.cursor from hbeyond)]
      rfl

/-- Every call commutes with setting the ring up for several producers. -/
theorem answer_shared (h : r.Counted) (single : r.config.producers = .single) {call : Call α}
    (sole : r.Sole call) : r.shared.answer call = sharedOutcome (r.answer call) := by
  have htry (hclaims : call.claims = true) : r.shared.tryClaim = sharedOutcome r.tryClaim :=
    tryClaim_shared h single
      ((sole hclaims).imp_left fun hnone => (List.append_eq_nil_iff.mp hnone).1)
  have hsettled (hclaims : call.claims = true) (s : Int) (hdone : r.tryClaim.1 = .done s) :
      r.outstanding = [] := by
    have hremaining := h.remaining_eq
    obtain ⟨hrun, hfree⟩ := free_of_tryClaim h hdone
    refine (sole hclaims).resolve_right ?_
    rw [hrun]
    rintro (hhalted | hfull)
    · cases hhalted
    · omega
  cases call with
  | push item =>
    refine (congrArg (reply · Answer.sequence) ?_).trans (reply_shared (r.push item) rfl)
    unfold push
    rw [claimForPush_shared (htry rfl)]
    exact complete_shared h single (some item) (claimForPush_path h)
      (fun _ => mem_held_of_claimForPush h)
      fun s hdone => hsettled rfl s ((claimForPush_done_iff r).mp hdone)
  | pushEmpty =>
    refine (congrArg (reply · Answer.empty) ?_).trans (reply_shared r.pushEmpty rfl)
    unfold pushEmpty
    rw [htry rfl]
    exact complete_shared h single none (tryClaim_path h) (fun _ => mem_held_of_tryClaim h)
      (hsettled rfl)
  | claim =>
    simp only [answer]
    rw [htry rfl]
    exact reply_shared r.tryClaim rfl
  | claimBlocking =>
    simp only [answer]
    rw [claimBlocking_shared (htry rfl)]
    exact reply_shared r.claimBlocking rfl
  | look s =>
    simp only [answer]
    exact onClaim_shared fun _ => rfl
  | set s content =>
    simp only [answer]
    exact onClaim_shared fun _ => rfl
  | publish s =>
    simp only [answer]
    refine onClaim_shared fun hs => ?_
    rw [publish_shared h single hs]
    exact reply_shared _ rfl
  | write s item =>
    simp only [answer]
    refine onClaim_shared fun hs => ?_
    unfold write
    rw [put_publish_shared h single (some item) hs]
    exact reply_shared _ rfl
  | abandon s =>
    simp only [answer]
    refine onClaim_shared fun hs => ?_
    unfold abandon
    rw [put_publish_shared h single none hs]
    exact reply_shared _ rfl
  | consumer =>
    unfold answer takeConsumer
    by_cases hc : r.consumed = true
    · rw [if_pos hc, if_pos (show r.shared.consumed = true from hc)]
      rfl
    · rw [if_neg hc, if_neg (show ¬ r.shared.consumed = true from hc)]
      rfl
  | next =>
    simp only [answer]
    exact onConsumer_shared rfl
  | waitFor s =>
    simp only [answer]
    refine onConsumer_shared ?_
    have hsame : r.shared.waitFor s = r.waitFor s := rfl
    rw [hsame]
    cases r.waitFor s <;> rfl
  | drain next available limit =>
    simp only [answer]
    exact onConsumer_shared (drain_shared r next available limit)
  | release s =>
    simp only [answer]
    refine onConsumer_shared ?_
    rw [release_shared]
    cases r.release s <;> rfl
  | halt => rfl
  | status => rfl

/-- Along calls with at most one claim on its way the two modes cannot be told apart. -/
theorem reports_shared (h : r.Counted) (single : r.config.producers = .single)
    (calls : List (Call α)) (sole : r.SoleAll calls) : r.shared.reports calls = r.reports calls := by
  induction calls generalizing r with
  | nil => rfl
  | cons call calls ih =>
    obtain ⟨hcall, hrest⟩ := sole
    have hpath := answer_path h call
    have hnext := ih (hpath.counted h) (by rw [hpath.config_eq, single]) hrest
    unfold reports
    rw [answer_shared h single hcall]
    exact congrArg (_ :: ·) hnext

/-- The single producer's own copy of the consumer's place neither admits a claim that a plain look
at the consumer refuses nor refuses one that it admits. -/
theorem claimSingle_full_iff (h : r.Counted) :
    r.claimSingle.1 = .refused .insufficientCapacity ↔
      r.claimMulti.1 = .refused .insufficientCapacity := by
  obtain ⟨r', _, he⟩ := claimSingle_of_counted h
  rw [he]
  unfold claimMulti
  by_cases hfull : r.gating + r.capacity ≤ r.claimed
  · rw [if_pos hfull, if_pos (show r.claimed + 1 - (r.capacity : Int) > r.gating by omega)]
  · rw [if_neg hfull, if_neg (show ¬ r.claimed + 1 - (r.capacity : Int) > r.gating by omega)]
    split_ifs <;> simp [grant]

/-- A ring for a single producer does what a ring for several does. The same settings are refused
for both. As long as at most one claim is on its way, every call gets the same answer and leaves the
same counters and metrics; and whatever is called, the single producer's look for room comes to what
the plain look does. -/
theorem single_agrees_with_multi (config : Config) (metrics : Metrics) :
    (∀ fault, Ring.make (α := α) { config with producers := .single } metrics = .error fault ↔
      Ring.make (α := α) { config with producers := .multi } metrics = .error fault) ∧
    ∀ one many : Ring α,
      Ring.make { config with producers := .single } metrics = .ok one →
      Ring.make { config with producers := .multi } metrics = .ok many →
      ∀ calls : List (Call α),
        (one.SoleAll calls → one.reports calls = many.reports calls) ∧
        ((one.after calls).claimSingle.1 = .refused .insufficientCapacity ↔
          (one.after calls).claimMulti.1 = .refused .insufficientCapacity) := by
  constructor
  · intro fault
    rw [make_shared]
    cases Ring.make (α := α) { config with producers := .single } metrics <;> simp [Except.map]
  · intro one many hone hmany calls
    have hcounted := make_counted hone
    have hsingle : one.config.producers = .single := by
      unfold Ring.make at hone
      split_ifs at hone
      cases hone
      rfl
    have hsame : many = one.shared := by
      rw [make_shared, hone] at hmany
      cases hmany
      rfl
    subst hsame
    have hafter := (history_path hcounted calls).counted hcounted
    exact ⟨fun hsole => (reports_shared hcounted hsingle calls hsole).symm,
      claimSingle_full_iff hafter⟩

/-- Three times around a ring of two slots: pushes and claims refused and admitted with a copy of the
consumer's place that is out of date, a claim given up, a drain and a release too far, and a halt. -/
theorem single_agrees_with_multi_wrapped :
    ∃ (one many : Ring Nat) (calls : List (Call Nat)),
      Ring.make { capacity := 2, producers := .single, metrics := true } {} = .ok one ∧
      Ring.make { capacity := 2, producers := .multi, metrics := true } {} = .ok many ∧
      one.SoleAll calls ∧ (one.after calls).cachedGating < (one.after calls).gating ∧
      one.reports calls = many.reports calls := by
  let calls : List (Call Nat) :=
    [.consumer, .push 5, .push 6, .push 7, .waitFor 0, .drain 0 1 1, .release 0, .claim, .write 2 8,
      .claim, .push 9, .drain 1 3 1, .release 1, .claim, .abandon 3, .release 9, .release 3, .push 4,
      .release 4, .push 3, .halt, .push 2, .waitFor 6, .status]
  obtain ⟨one, hone, hsole, hstale⟩ := exists_make
    { capacity := 2, producers := .single, metrics := true } {}
    (fun one : Ring Nat => one.SoleAll calls ∧
      (one.after calls).cachedGating < (one.after calls).gating) (by decide +kernel)
  obtain ⟨many, hmany, _⟩ := exists_make
    { capacity := 2, producers := .multi, metrics := true } {} (fun _ : Ring Nat => True)
    (by decide +kernel)
  exact ⟨one, many, calls, hone, hmany, hsole, hstale,
    (((single_agrees_with_multi { capacity := 2, metrics := true } {}).2 one many hone hmany
      calls).1 hsole)⟩

end Ring
end MessageRing
