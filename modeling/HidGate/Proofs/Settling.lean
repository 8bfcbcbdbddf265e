import HidGate.Proofs.Rest

/-!
# Settling

While all clients are idle only the listener has steps, one at a time and each decided by the state. Every step takes
an item or brings the thread nearer to taking one, so it comes to rest, and within the number of steps that a settling
system is given. What arrives meanwhile goes to the end of the queue and changes nothing of the steps before it. So it
has no part in the outcome when the items come, as long as they come in the same order.
-/

namespace HidGate

open Bench (Item)

/-! ## The listener by itself -/

def Duty.rank : Duty → Nat
  | .read .drain | .read (.hand _) => 17
  | .leave _ => 16
  | .pause => 15
  | .gate => 14
  | .pass => 13
  | .check => 12
  | .acquire => 11
  | .read .poll => 10
  | .read .fetch => 9

def Worker.rank : Worker → Nat
  | .working d => d.rank
  | .finished | .crashed => 0

theorem Worker.rank_le (w : Worker) : w.rank ≤ 17 := by
  cases w with
  | finished | crashed => simp [rank]
  | working d =>
    cases d with
    | read st => cases st <;> simp [rank, Duty.rank]
    | _ => simp [rank, Duty.rank]

section
variable {wanted : Bool} {d : Duty} {w : Worker} {g k : Gate Bench}

/-- Without a byte in the pipe each step takes an item or brings the thread on. -/
theorem DutyStep.rank_lt (h : DutyStep wanted g d w k) (unheard : g.lock.pipe = .empty) :
    16 * k.endpoint.queue.length + w.rank < 16 * g.endpoint.queue.length + d.rank := by
  cases h with
  | reads step =>
    cases step with
    | pollFault fault =>
      obtain ⟨rest, queue, rfl⟩ := Bench.pollFault?_eq_some.mp fault
      simp [Duty.ofRead, Worker.rank, Duty.rank, queue, Bench.advance]
      omega
    | wake _ byte => rw [unheard] at byte; cases byte
    | ready => simp [Duty.ofRead, Worker.rank, Duty.rank]
    | drain => simp [Duty.ofRead, Worker.rank, Duty.rank]
    | fault fetch | empty fetch | overlong fetch | report fetch =>
      obtain ⟨x, rest, queue, -, rfl⟩ := Bench.fetch?_eq_some.mp fetch
      simp [Duty.ofRead, Worker.rank, Duty.rank, queue, Bench.advance]
      omega
    | accepted | rejected | crashed => simp [Duty.ofRead, Worker.rank, Duty.rank]
  | _ => simp [Worker.rank, Duty.rank, Gate.note, Gate.enter]

/-! ## What arrives goes to the end -/

def Gate.receive (xs : List Item) (g : Gate Bench) : Gate Bench := { g with endpoint := g.endpoint.arrive xs }

theorem Gate.hand_receive (who : Party) (report : Bytes) (xs : List Item) (g : Gate Bench) :
    (g.receive xs).hand who report = ((g.hand who report).1, (g.hand who report).2.receive xs) := by
  obtain ⟨endpoint, lock, handler, heard, registered, feed, journal⟩ := g
  rcases handler with _ | ⟨k, judge | _⟩ <;> rfl

theorem Bench.pollFault?_of_ready {b : Bench} (ready : Endpoint.ready b = true) : Endpoint.pollFault? b = none := by
  obtain ⟨x, rest, answer, queue, hx⟩ := ready_iff.mp ready
  cases fault : Endpoint.pollFault? b with
  | none => rfl
  | some y =>
    obtain ⟨rest', queue', -⟩ := pollFault?_eq_some.mp fault
    cases queue.symm.trans queue'
    cases hx

theorem ReadStep.receive {who : Party} {propagate : Bool} {st : ReadStage} {next : ReadNext}
    (h : ReadStep who propagate g st next k) (unheard : g.lock.pipe = .empty) (xs : List Item) :
    ReadStep who propagate (g.receive xs) st next (k.receive xs) := by
  have fetches {answer : Except SystemError Reading} {b : Bench}
      (fetch : Endpoint.fetch? g.endpoint = some (answer, b)) :
      Endpoint.fetch? (g.receive xs).endpoint = some (answer, b.arrive xs) := by
    obtain ⟨x, rest, queue, hx, rfl⟩ := Bench.fetch?_eq_some.mp fetch
    exact Bench.fetch?_eq_some.mpr ⟨x, rest ++ xs, by simp [Gate.receive, Bench.arrive, queue], hx, rfl⟩
  cases h with
  | @pollFault n _ fault =>
    obtain ⟨rest, queue, rfl⟩ := Bench.pollFault?_eq_some.mp fault
    have queue' : (g.receive xs).endpoint.queue = .pollFault n :: (rest ++ xs) := by
      simp only [Gate.receive, Bench.arrive, queue, List.cons_append]
    exact .pollFault (Bench.pollFault?_eq_some.mpr ⟨rest ++ xs, queue', rfl⟩)
  | wake _ byte => rw [unheard] at byte; cases byte
  | ready _ byte ready =>
    have ready' := (Bench.Moved.befall (.arrive xs) g.endpoint).ready ready
    exact .ready (Bench.pollFault?_of_ready ready') byte ready'
  | drain => exact .drain
  | fault fetch => exact .fault (fetches fetch)
  | empty fetch claim => exact .empty (fetches fetch) claim
  | overlong fetch claim => exact .overlong (fetches fetch) claim
  | report fetch positive fits => exact .report (fetches fetch) positive fits
  | accepted verdict => exact .of_hand (.accepted verdict) (g.hand_receive ..) fun _ _ => rfl
  | rejected verdict => exact .of_hand (.rejected verdict) (g.hand_receive ..) fun _ _ => rfl
  | crashed verdict => exact .of_hand (.crashed verdict) (g.hand_receive ..) fun _ _ => rfl

theorem DutyStep.receive (h : DutyStep wanted g d w k) (unheard : g.lock.pipe = .empty) (xs : List Item) :
    DutyStep wanted (g.receive xs) d w (k.receive xs) := by
  cases h with
  | @reads st next g' step =>
    have reads : DutyStep wanted (g.receive xs) (.read st) _ _ := .reads (step.receive unheard xs)
    rcases next with st' | (f | report) | _ <;> exact reads
  | goesOn on => exact .goesOn on
  | exits off => exact .exits off
  | acquires free => exact .acquires free
  | drained => exact .drained
  | bears transient => exact .bears transient
  | fails hard => exact .fails hard
  | resumes => exact .resumes
  | grabs free => exact .grabs free
  | passes => exact .passes

end

namespace System

section
variable {s t u : System Bench}

def receive (xs : List Item) (s : System Bench) : System Bench := s.withEndpoint (s.endpoint.arrive xs)

theorem receive_append (xs ys : List Item) (s : System Bench) : s.receive (xs ++ ys) = (s.receive xs).receive ys := by
  simp [receive, withEndpoint, System.endpoint, Handle.onGate, Bench.arrive]

theorem Reachable.receive (hs : Reachable s) (xs : List Item) : Reachable (s.receive xs) :=
  hs.step (e := .incident (Bench.Incident.arrive xs)) ⟨rfl, rfl⟩

inductive Works : System Bench → System Bench → Prop
  | refl (s : System Bench) : Works s s
  | step {s t u : System Bench} (runs : s.run? .listener = some t) (rest : Works t u) : Works s u

theorem Works.trans (h : Works s t) (h' : Works t u) : Works s u := by
  induction h with
  | refl => exact h'
  | step runs _ ih => exact .step runs (ih h')

/-- Where the listener stops is decided by where it begins. -/
theorem Works.unique (h : Works s t) (ht : t.run? .listener = none) (h' : Works s u)
    (hu : u.run? .listener = none) : t = u := by
  induction h with
  | refl =>
    cases h' with
    | refl => rfl
    | step runs => cases ht.symm.trans runs
  | step runs _ ih =>
    cases h' with
    | refl => cases hu.symm.trans runs
    | step runs' rest' =>
      cases runs.symm.trans runs'
      exact ih ht rest'

theorem run?_eq_some_iff : s.run? .listener = some t ↔ ∃ wanted d w g,
    s.handle.listener = .running wanted (.working d) ∧ DutyStep wanted s.handle.gate d w g ∧
      t = s.work wanted (w, g) := by
  constructor
  · intro runs
    simp only [run?] at runs
    split at runs
    · rename_i wanted d on_duty
      obtain ⟨⟨w, g⟩, goes, rfl⟩ := Option.map_eq_some_iff.mp runs
      exact ⟨wanted, d, w, g, on_duty, Duty.dutyStep goes, rfl⟩
    · cases runs
  · rintro ⟨wanted, d, w, g, on_duty, goes, rfl⟩
    simp only [run?, on_duty, goes.step?, Option.map_some]

theorem Step.of_run (runs : s.run? .listener = some t) : Step s (.move (.run .listener)) t := ⟨rfl, runs⟩

theorem clients_of_run (runs : s.run? .listener = some t) : t.clients = s.clients := by
  obtain ⟨_, _, _, _, -, -, rfl⟩ := run?_eq_some_iff.mp runs
  rfl

structure Unhurried (s : System Bench) : Prop where
  reachable : Reachable s
  idle : ∀ c ∈ s.clients, c.isIdle = true

theorem Unhurried.pipe (h : Unhurried s) : s.lock.pipe = .empty := h.reachable.pipe_of_idle h.idle

theorem Unhurried.run (h : Unhurried s) (runs : s.run? .listener = some t) : Unhurried t :=
  ⟨h.reachable.step (Step.of_run runs), by rw [clients_of_run runs]; exact h.idle⟩

theorem Unhurried.receive (h : Unhurried s) (xs : List Item) : Unhurried (s.receive xs) :=
  ⟨h.reachable.receive xs, h.idle⟩

theorem Works.clients (h : Works s t) : t.clients = s.clients := by
  induction h with
  | refl => rfl
  | step runs _ ih => exact ih.trans (clients_of_run runs)

theorem Works.unhurried (h : Works s t) (hs : Unhurried s) : Unhurried t := by
  induction h with
  | refl => exact hs
  | step runs _ ih => exact ih (hs.run runs)

theorem Works.receive (h : Works s t) (hs : Unhurried s) (xs : List Item) : Works (s.receive xs) (t.receive xs) := by
  induction h with
  | refl => exact .refl _
  | step runs _ ih =>
    obtain ⟨wanted, d, w, g, on_duty, goes, rfl⟩ := run?_eq_some_iff.mp runs
    refine .step (run?_eq_some_iff.mpr ⟨wanted, d, w, g.receive xs, on_duty, goes.receive hs.pipe xs, rfl⟩) ?_
    exact ih (hs.run runs)

/-! ## Settling -/

def nearness (s : System Bench) : Nat :=
  match s.handle.listener with
  | .stopped => 0
  | .running _ w => 16 * s.endpoint.queue.length + w.rank

theorem nearness_lt (hs : Unhurried s) (runs : s.run? .listener = some t) : t.nearness < s.nearness := by
  obtain ⟨wanted, d, w, g, on_duty, goes, rfl⟩ := run?_eq_some_iff.mp runs
  have before : s.nearness = 16 * s.handle.gate.endpoint.queue.length + d.rank := by
    unfold nearness
    rw [on_duty]
    rfl
  rw [before]
  exact goes.rank_lt hs.pipe

theorem nearness_le (s : System Bench) : s.nearness ≤ longestCall * (s.endpoint.queue.length + 2) := by
  unfold nearness longestCall
  split
  · exact Nat.zero_le _
  · rename_i w _
    have := w.rank_le
    omega

theorem advance?_of_idle {σ : Type} [Endpoint σ] {s : System σ} (idle : ∀ c ∈ s.clients, c.isIdle = true) :
    s.advance? = s.run? .listener := by
  have resting {n : Nat} {c : Client} (hc : s.clients[n]? = some c) : c.activity = .idle :=
    Client.isIdle_iff.mp (idle c (List.mem_of_getElem? hc))
  have runs (n : Nat) : s.run? (.client n) = none := by
    cases hc : s.clients[n]? with
    | none => simp [run?, hc]
    | some c => simp [run?, hc, Handle.step?, resting hc]
  have late (n : Nat) : s.expire? (.client n) = none := by
    cases hc : s.clients[n]? with
    | none => simp [expire?, hc]
    | some c => simp [expire?, hc, Handle.expire?, resting hc]
  have first : (((List.range s.clients.length).map Party.client).map Move.run).findSome? (next · s) = none := by
    simp [List.findSome?_eq_none_iff, next, runs]
  have last : (((List.range s.clients.length).map Party.client).map Move.expire).findSome? (next · s) = none := by
    simp [List.findSome?_eq_none_iff, next, late]
  unfold advance? choices
  rw [List.findSome?_append, first, Option.none_or, List.findSome?_cons, last]
  have listener : next (.run .listener) s = s.run? .listener := rfl
  rw [listener]
  cases s.run? .listener <;> rfl

theorem settleFor_works {fuel : Nat} (hs : Unhurried s) (enough : s.nearness ≤ fuel) :
    Works s (settleFor fuel s) ∧ (settleFor fuel s).run? .listener = none := by
  induction fuel generalizing s with
  | zero =>
    refine ⟨.refl s, ?_⟩
    cases runs : s.run? .listener with
    | none => exact runs
    | some t =>
      have := nearness_lt hs runs
      omega
  | succ fuel ih =>
    unfold settleFor
    rw [advance?_of_idle hs.idle]
    cases runs : s.run? .listener with
    | none => exact ⟨.refl s, runs⟩
    | some t =>
      have less := nearness_lt hs runs
      obtain ⟨rest, still⟩ := ih (hs.run runs) (by omega)
      exact ⟨.step runs rest, still⟩

theorem settle_works (hs : Unhurried s) : Works s s.settle ∧ s.settle.run? .listener = none := by
  apply settleFor_works hs
  have near := nearness_le s
  have more : s.endpoint.queue.length + 2 ≤
      Endpoint.backlog s.handle.gate.endpoint + 2 * s.clients.length + 2 := by
    change s.endpoint.queue.length + 2 ≤ s.endpoint.queue.length + 2 * s.clients.length + 2
    omega
  exact Nat.le_trans near (Nat.mul_le_mul_left _ more)

/-- Whatever has arrived is settled in the order in which it came: whether the listener came to rest in between has no
part in where it comes to rest. -/
theorem settle_receive_append (hs : Unhurried s) (xs ys : List Item) :
    (s.receive (xs ++ ys)).settle = ((s.receive xs).settle.receive ys).settle := by
  obtain ⟨first, -⟩ := settle_works (hs.receive xs)
  have between := first.unhurried (hs.receive xs)
  obtain ⟨rest, still⟩ := settle_works (between.receive ys)
  obtain ⟨whole, still'⟩ := settle_works (hs.receive (xs ++ ys))
  have parts := (first.receive (hs.receive xs) ys).trans rest
  rw [← receive_append] at parts
  exact whole.unique still' parts still

end

end System

end HidGate
