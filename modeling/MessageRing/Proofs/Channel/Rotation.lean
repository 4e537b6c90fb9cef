import Mathlib.Algebra.Order.Floor.Div
import Mathlib.Data.Int.CardIntervalMod
import MessageRing.Dispatcher.Call
import MessageRing.Proofs.Acts
import MessageRing.Proofs.Channel.Failover
import MessageRing.Proofs.Dispatcher

/-!
Who is tried first.

The rotation counts the dispatches that found subscribers, and nothing else moves it: no call on the
subscriptions, no dispatch without subscribers and nothing that happens after a dispatch has begun.
So with rotation the dispatches go around the list, and each subscriber has its turn as often as any
other, up to one.
-/
namespace MessageRing
variable {ι π σ : Type}

namespace Dispatcher

section Turns
variable [DecidableEq ι] {d : Dispatcher ι}

/-- The dispatcher as each dispatch finds it that finds subscribers. -/
def turns (d : Dispatcher ι) : List (Call ι) → List (Dispatcher ι)
  | [] => []
  | call :: calls =>
    (if call = .dispatch ∧ d.subscribers ≠ [] then [d] else []) ++ (d.next call).turns calls

theorem balancing_next (d : Dispatcher ι) (call : Call ι) :
    (d.next call).balancing = d.balancing := by
  cases call with
  | subscribe i =>
    simp only [next, subscribe]
    split_ifs <;> rfl
  | unsubscribe i =>
    simp only [next, unsubscribe]
    split_ifs <;> rfl
  | dispatch =>
    simp only [next, begin_eq]
    split_ifs <;> rfl

theorem nodup_next (once : d.subscribers.Nodup) (call : Call ι) :
    (d.next call).subscribers.Nodup := by
  cases call with
  | subscribe i => exact subscribe_nodup once i
  | unsubscribe i => exact unsubscribe_nodup once i
  | dispatch => exact (d.begin_nodup once).2

theorem rotation_next (d : Dispatcher ι) (call : Call ι) :
    (d.next call).rotation =
      if call = .dispatch ∧ d.balancing = .roundRobin ∧ d.subscribers ≠ [] then d.rotation + 1
      else d.rotation := by
  cases call with
  | subscribe i =>
    simp only [next, subscribe]
    split_ifs <;> simp_all
  | unsubscribe i =>
    simp only [next, unsubscribe]
    split_ifs <;> simp_all
  | dispatch =>
    simp only [next, begin_eq]
    by_cases h : d.balancing = .roundRobin ∧ d.subscribers ≠ [] <;> simp [h]

/-- What every call keeps holds at every turn, and someone is there. -/
theorem forall_mem_turns {P : Dispatcher ι → Prop} (kept : ∀ d call, P d → P (d.next call))
    (here : P d) (calls : List (Call ι)) : ∀ t ∈ d.turns calls, P t ∧ t.subscribers ≠ [] := by
  induction calls generalizing d with
  | nil => simp [turns]
  | cons call calls ih =>
    intro t ht
    rcases List.mem_append.mp ht with ht | ht
    · split_ifs at ht with h
      · exact List.mem_singleton.mp ht ▸ ⟨here, h.2⟩
      · cases ht
    · exact ih (kept d call here) t ht

theorem length_turns_le (d : Dispatcher ι) (calls : List (Call ι)) :
    (d.turns calls).length ≤ calls.count .dispatch := by
  induction calls generalizing d with
  | nil => simp [turns]
  | cons call calls ih =>
    have hrest := ih (d.next call)
    rw [turns, List.length_append, List.count_cons]
    by_cases hcall : call = .dispatch
    · rw [hcall] at hrest ⊢
      by_cases hsomeone : d.subscribers = [] <;> simp [hsomeone] <;> omega
    · simpa [hcall] using hrest

/-- Each dispatch that finds subscribers finds the rotation moved on by one. -/
theorem rotation_turn (rotates : d.balancing = .roundRobin) (calls : List (Call ι)) {m : Nat}
    {t : Dispatcher ι} (turn : (d.turns calls)[m]? = some t) :
    t.rotation = d.rotation + UInt64.ofNat m := by
  induction calls generalizing d m with
  | nil => simp [turns] at turn
  | cons call calls ih =>
    have hrotates := (d.balancing_next call).trans rotates
    have hnext := d.rotation_next call
    rw [turns] at turn
    by_cases hturn : call = .dispatch ∧ d.subscribers ≠ []
    · rw [if_pos hturn] at turn
      rw [if_pos ⟨hturn.1, rotates, hturn.2⟩] at hnext
      cases m with
      | zero =>
        cases turn
        simp
      | succ m =>
        rw [ih hrotates turn, hnext, Nat.add_comm m 1, UInt64.ofNat_add, UInt64.add_assoc]
        rfl
    · rw [if_neg hturn] at turn
      rw [if_neg fun h => hturn ⟨h.1, h.2.2⟩] at hnext
      rw [ih hrotates turn, hnext]

end Turns

theorem head?_candidates (d : Dispatcher ι) : d.candidates.head? = d.subscribers[d.start]? := by
  have hrotated : d.rotated.head? = d.subscribers[d.start]? := by
    by_cases hsomeone : 0 < d.subscribers.length
    · rw [rotated, List.head?_append, List.head?_drop,
        List.getElem?_eq_getElem (d.start_lt hsomeone), Option.some_or]
    · rw [Nat.not_lt, Nat.le_zero, List.length_eq_zero_iff] at hsomeone
      simp [rotated, hsomeone]
  unfold candidates
  split_ifs
  · exact hrotated
  · rw [List.head?_take, if_neg one_ne_zero, hrotated]

/-- Whom the next dispatch calls first. -/
def first? (d : Dispatcher ι) : Option ι := d.begin.1.head?

theorem first?_eq (d : Dispatcher ι) : d.first? = d.subscribers[d.start]? := by
  rw [first?, begin_candidates, head?_candidates]

section Fairness
variable {subscribers : List ι}

/-- Starts that go around a list come to a place of it again after as many starts as the list is
long. -/
theorem add_mod_eq_iff {s j n p : Nat} (hp : p < n) :
    (s + j) % n = p ↔ j ≡ p + (n - s % n) [MOD n] := by
  have hround : s + (p + (n - s % n)) ≡ p [MOD n] := by
    have hs := Nat.div_add_mod s n
    have hlt := Nat.mod_lt s (Nat.zero_lt_of_lt hp)
    have hsum : s + (p + (n - s % n)) = p + n * (s / n + 1) := by
      rw [Nat.mul_add]
      omega
    rw [hsum]
    exact Nat.add_mul_mod_self_left p n _
  constructor
  · intro h
    apply Nat.ModEq.add_left_cancel' s
    exact (show (s + j) % n = p % n by rw [h, Nat.mod_eq_of_lt hp]).trans hround.symm
  · intro h
    have hstart : s + j ≡ p [MOD n] := (h.add_left s).trans hround
    rwa [Nat.ModEq, Nat.mod_eq_of_lt hp] at hstart

/-- Around a list every member comes up equally often, up to one. -/
theorem count_around [DecidableEq ι] (once : subscribers.Nodup) {i : ι} (there : i ∈ subscribers)
    (s k : Nat) :
    let starts := (List.range k).map fun j => subscribers[(s + j) % subscribers.length]?
    starts.count (some i) = k / subscribers.length ∨
      starts.count (some i) = k ⌈/⌉ subscribers.length := by
  intro starts
  obtain ⟨p, hp, rfl⟩ := List.getElem_of_mem there
  have hpos := Nat.zero_lt_of_lt hp
  have hcount : starts.count (some subscribers[p]) =
      Nat.count (· ≡ p + (subscribers.length - s % subscribers.length)
        [MOD subscribers.length]) k := by
    rw [List.count, List.countP_map, Nat.count]
    congr 1
    funext j
    simp only [Function.comp_apply, beq_eq_decide, decide_eq_decide]
    rw [← add_mod_eq_iff hp, List.getElem?_eq_getElem (Nat.mod_lt _ hpos), Option.some_inj,
      once.getElem_inj_iff]
  rw [hcount, Nat.count_modEq_card k hpos]
  split_ifs with hrest
  · -- the last round is not over, so rounding up gives one more
    right
    have hk := Nat.div_add_mod' k subscribers.length
    have hlt := Nat.mod_lt k hpos
    rw [Nat.ceilDiv_eq_add_pred_div, eq_comm]
    apply Nat.div_eq_of_lt_le
    · rw [Nat.succ_mul]
      omega
    · rw [Nat.succ_mul, Nat.succ_mul]
      omega
  · exact .inl rfl

end Fairness

/-- A dispatch calls the one that it begins with before anything else. -/
theorem dispatch_eq (call : Delivery ι π (Dispatcher ι × σ)) (message : Message π)
    {scene : Scene (Dispatcher ι × σ)} {i : ι} (first : scene.outside.1.first? = some i) :
    ∃ next, dispatch call message scene = (attempt call message i >>= next)
      (scene.withOutside (scene.outside.1.begin.2, scene.outside.2)) := by
  obtain ⟨rest, hcandidates⟩ := List.head?_eq_some_iff.mp first
  change ∃ next, deliver call message scene.outside.1.begin.1 _ = _
  rw [hcandidates, deliver, tryInTurn]
  exact ⟨_, rfl⟩

section Whole
variable [DecidableEq ι] {β : Type}

/-- What the act does to the dispatcher it does by calls. -/
def Orderly (act : Act (Dispatcher ι × σ) β) : Prop :=
  ∀ scene result scene', act scene = some (result, scene') →
    ∃ calls, scene'.outside.1 = scene.outside.1.after calls

theorem after_append (d : Dispatcher ι) (calls calls' : List (Call ι)) :
    d.after (calls ++ calls') = (d.after calls).after calls' :=
  List.foldl_append

theorem orderly_deliver {call : Delivery ι π (Dispatcher ι × σ)} {message : Message π}
    (orderly : ∀ i message, Orderly (call i message)) (candidates : List ι) :
    Orderly (deliver call message candidates) := by
  refine keeps_deliver
    (R := fun w w' : Dispatcher ι × σ => ∃ calls, w'.1 = w.1.after calls) ?_ ?_ orderly candidates
  · intro w
    exact ⟨[], rfl⟩
  · rintro u v w ⟨calls, hv⟩ ⟨calls', hw⟩
    exact ⟨calls ++ calls', by rw [hw, hv, after_append]⟩

end Whole

variable [DecidableEq ι]

/-- From a new dispatcher on, the m-th turn is at place m around the list of that moment. -/
theorem first?_turn {d : Dispatcher ι} (rotates : d.balancing = .roundRobin) (new : d.rotation = 0)
    {calls : List (Call ι)} (few : calls.count .dispatch < UInt64.size) {m : Nat}
    {t : Dispatcher ι} (turn : (d.turns calls)[m]? = some t) :
    t.first? = t.subscribers[m % t.subscribers.length]? := by
  have hm : m < UInt64.size := by
    have hlength := (List.getElem?_eq_some_iff.mp turn).1
    have hturns := d.length_turns_le calls
    omega
  have hrotation : t.rotation.toNat = m := by
    rw [rotation_turn rotates calls turn, new, UInt64.zero_add]
    exact UInt64.toNat_ofNat_of_lt' hm
  have hrotates : t.balancing = .roundRobin :=
    (forall_mem_turns (P := fun d => d.balancing = .roundRobin)
      (fun d call => (d.balancing_next call).trans) rotates calls t (List.mem_of_getElem? turn)).1
  rw [first?_eq, start, hrotates, hrotation]

/-- The m-th dispatch that finds subscribers begins with the one at place m, counted around the list
of that moment; a dispatch that finds none and a call on the subscriptions do not move the rotation.
So while the list stays the same the dispatches go around it, and of k dispatches each of the n
subscribers is the first to be tried in k / n, rounded down or up. Without rotation the first
subscriber is. All this is about where dispatches begin, for that is where they change the
dispatcher: the one they begin with is called at once, and whatever subscribers then do, be it calls
of the same dispatcher, counts as calls that come later. -/
theorem starts_in_rotation (failover : Bool) (max : Nat) (calls : List (Call ι))
    (few : calls.count .dispatch < UInt64.size) :
    let turns := (make failover max .roundRobin).turns calls
    (∀ (m : Nat) (d : Dispatcher ι), turns[m]? = some d →
      d.subscribers ≠ [] ∧ d.first? = d.subscribers[m % d.subscribers.length]?) ∧
    (∀ (d : Dispatcher ι) (call : Call ι), call ≠ .dispatch ∨ d.subscribers = [] →
      (d.next call).rotation = d.rotation) ∧
    (∀ before segment behind subscribers, turns = before ++ segment ++ behind →
      (∀ d ∈ segment, d.subscribers = subscribers) →
      segment.map first? = (List.range segment.length).map (fun j =>
        subscribers[(before.length + j) % subscribers.length]?) ∧
      ∀ i ∈ subscribers,
        (segment.map first?).count (some i) = segment.length / subscribers.length ∨
        (segment.map first?).count (some i) = segment.length ⌈/⌉ subscribers.length) ∧
    (∀ calls, ∀ d ∈ (make failover max .none : Dispatcher ι).turns calls,
      d.first? = d.subscribers.head?) ∧
    ∀ (call : Delivery ι π (Dispatcher ι × σ)) (message : Message π) scene,
      (∀ i, scene.outside.1.first? = some i →
        ∃ next, dispatch call message scene = (attempt call message i >>= next)
          (scene.withOutside (scene.outside.1.begin.2, scene.outside.2))) ∧
      ((∀ i message, Orderly (call i message)) → ∀ result scene',
        dispatch call message scene = some (result, scene') →
          ∃ inner, scene'.outside.1 = scene.outside.1.after (.dispatch :: inner)) := by
  intro turns
  have hfirst {m : Nat} {d : Dispatcher ι} (hturn : turns[m]? = some d) :
      d.first? = d.subscribers[m % d.subscribers.length]? :=
    first?_turn rfl rfl few hturn
  have hturns : ∀ d ∈ turns, d.subscribers.Nodup ∧ d.subscribers ≠ [] :=
    forall_mem_turns (P := fun d => d.subscribers.Nodup) (fun _ call once => nodup_next once call)
      List.nodup_nil calls
  refine ⟨?_, ?_, ?_, ?_, ?_⟩
  · intro m d hturn
    exact ⟨(hturns d (List.mem_of_getElem? hturn)).2, hfirst hturn⟩
  · intro d call hstill
    rw [rotation_next, if_neg]
    rintro ⟨hdispatch, -, hsomeone⟩
    exact hstill.elim (· hdispatch) hsomeone
  · intro before segment behind subscribers hsplit hsame
    have hstarts : segment.map first? = (List.range segment.length).map (fun j =>
        subscribers[(before.length + j) % subscribers.length]?) := by
      apply List.ext_getElem
      · simp
      · intro j hj _
        rw [List.length_map] at hj
        have hturn : turns[before.length + j]? = some segment[j] := by
          rw [hsplit, List.append_assoc, List.getElem?_append_right (by omega),
            Nat.add_sub_cancel_left, List.getElem?_append_left hj, List.getElem?_eq_getElem hj]
        simp [hfirst hturn, hsame segment[j] (List.getElem_mem hj)]
    refine ⟨hstarts, fun i hi => ?_⟩
    rw [hstarts]
    cases segment with
    | nil => exact .inl (by simp)
    | cons d segment =>
      refine count_around ?_ hi _ _
      rw [← hsame d List.mem_cons_self]
      exact (hturns d (by simp [hsplit])).1
  · intro calls d hd
    have hbalancing : d.balancing = .none :=
      (forall_mem_turns (P := fun d => d.balancing = .none)
        (fun d call => (d.balancing_next call).trans) rfl calls d hd).1
    rw [first?_eq, start, hbalancing, List.head?_eq_getElem?]
  · intro call message scene
    refine ⟨fun i => dispatch_eq call message, ?_⟩
    intro orderly result scene' hdispatch
    exact orderly_deliver orderly _ _ _ _ hdispatch

/-- Five turns while subscribers come and go, after a dispatch that found none. -/
theorem starts_in_rotation_resubscribed :
    let calls : List (Call Nat) := [.dispatch, .subscribe 7, .subscribe 8, .dispatch, .dispatch,
      .subscribe 9, .dispatch, .unsubscribe 7, .dispatch, .dispatch]
    let turns := (make true 3 .roundRobin).turns calls
    calls.count .dispatch < UInt64.size ∧
    turns.map (·.subscribers) = [[7, 8], [7, 8], [7, 8, 9], [8, 9], [8, 9]] ∧
    turns.map first? = [some 7, some 8, some 9, some 9, some 8] ∧
    ∀ d, turns[3]? = some d → d.first? = d.subscribers[3 % d.subscribers.length]? := by
  intro calls turns
  have few : calls.count .dispatch < UInt64.size := by decide +kernel
  refine ⟨few, by decide, by decide, fun d hturn => ?_⟩
  exact ((starts_in_rotation (π := Unit) (σ := Unit) true 3 calls few).1 3 d hturn).2

end Dispatcher
end MessageRing
