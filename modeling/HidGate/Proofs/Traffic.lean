import HidGate.Proofs.Echo
import HidGate.Proofs.Granting

/-!
# Input, features and output do not interfere

One caller reads, listens, hands over reports, makes requests and writes, in any order, with the listener at any
point of its cycle and in any state. What its requests and writes bring is the same without all that concerns the
input, and what concerns the input is the same without the requests and writes. Only a request under a permit is
left out: it would wait for its own caller.
-/

namespace HidGate

/-! ## Requests -/

def Activity.isRequest : Activity → Bool
  | .enter (.request ..) | .steal _ (.request _) | .exchange .. | .leave .. => true
  | _ => false

theorem Activity.isRequest_of_mayWait {a : Activity} (exchange : a.isExchange = true) (waits : a.mayWait = true) :
    a.isRequest = true := by
  cases a with
  | enter call =>
    cases call with
    | request => rfl
    | write => cases waits
    | _ => cases exchange
  | steal st errand =>
    cases errand with
    | permit => cases exchange
    | request => rfl
  | _ => cases waits

theorem Handle.isRequest_of_step? {σ : Type} [Endpoint σ] {n : Nat} {c d : Client} {h h' : Handle σ}
    (hs : h.step? n c = some (d, h')) (request : d.activity.isRequest = true) :
    c.activity.isRequest = true ∧ d.permits = c.permits := by
  cases clientStep hs with
  | steals doing enter =>
    rcases call_of_steals enter with ⟨-, rfl⟩ | ⟨kind, r, rfl, rfl, -⟩
    · cases request
    · rw [doing]; exact ⟨rfl, rfl⟩
  | requests doing | exchanges doing => rw [doing]; exact ⟨rfl, rfl⟩
  | @stealing st st' errand l doing =>
    rw [doing]
    cases errand with
    | permit => cases request
    | request => exact ⟨rfl, rfl⟩
  | @stolen errand doing =>
    rw [doing]
    cases errand with
    | permit => cases request
    | request => exact ⟨rfl, rfl⟩
  | @reading st buffer propagate next => rcases next with st | (f | report) | _ <;> cases request
  | @halted st closing => cases closing <;> cases request
  | _ => cases request

namespace System

variable {σ : Type} [Endpoint σ] [Surroundings σ] [Separate σ] {s : System σ} {c : Client} {tr : Trace σ}

/-! ## Orderly runs -/

theorem Seemly.of_move {m : Move} (unheld : (.move m : Event σ).isRequest = true →
    s.clients.all (·.permits.isEmpty) = true) : Seemly s (.move m) where
  unheld := unheld
  between setting := by cases setting

theorem Seemly.of_incident {i : Surroundings.Incident σ} (free : s.isServing = false) : Seemly s (.incident i) where
  unheld request := by cases request
  between _ := free

theorem Seemly.of_silent {e : Event σ} (silent : e.isOperation = false) : Seemly s e := by
  cases e with
  | incident => cases silent
  | move m =>
    refine .of_move fun request => ?_
    cases m with
    | ask => cases silent
    | run | expire => cases request

theorem orderly_of_silent (silent : operations tr = []) : Orderly s tr := by
  induction tr generalizing s with
  | nil => trivial
  | cons x tr ih =>
    obtain ⟨e, t⟩ := x
    have none_at_all : ∀ e' ∈ e :: tr.map Prod.fst, e'.isOperation = false := fun e' he' => by
      simpa using List.filter_eq_nil_iff.mp silent e' he'
    refine ⟨.of_silent (none_at_all e List.mem_cons_self), ih ?_⟩
    exact List.filter_eq_nil_iff.mpr fun e' he' => by simp [none_at_all e' (List.mem_cons_of_mem _ he')]

omit [Separate σ] in
theorem Lone.asks (h : Lone s c) (hf : Follows s tr) {n : Nat} {call : Call}
    (asked : .move (.ask n call) ∈ operations tr) : n = 0 := by
  induction tr generalizing s c with
  | nil => cases asked
  | cons x tr ih =>
    obtain ⟨e, t⟩ := x
    obtain ⟨d, sole, lone⟩ := h.step hf.1
    rcases List.mem_cons.mp (List.mem_filter.mp asked).1 with rfl | later
    · cases sole; rfl
    · exact ih lone hf.2 (List.mem_filter.mpr ⟨later, rfl⟩)

theorem Lone.unheld_along (h : Lone s c) (unheld : c.activity.isRequest = true → c.permits = []) (hf : Follows s tr)
    (orderly : Orderly s tr) :
    ∃ d, Lone (final s tr) d ∧ (d.activity.isRequest = true → d.permits = []) := by
  induction tr generalizing s c with
  | nil => exact ⟨c, h, unheld⟩
  | cons x tr ih =>
    obtain ⟨e, t⟩ := x
    obtain ⟨seemly, orderly⟩ := orderly
    obtain ⟨d, sole, lone⟩ := h.step hf.1
    refine ih lone ?_ hf.2 orderly
    cases sole with
    | @ask call =>
      intro request
      cases call with
      | request kind r =>
        have none_held := seemly.unheld rfl
        rw [h.clients] at none_held
        simpa using none_held
      | _ => cases request
    | listener | listenerLate | incident => exact unheld
    | clientLate =>
      intro request
      cases request
    | client step =>
      intro request
      obtain ⟨before, permits⟩ := Handle.isRequest_of_step? step request
      rw [permits, unheld before]

/-! ## Requests and writes by themselves -/

omit [Endpoint σ] [Surroundings σ] [Separate σ] in
theorem isServing_of_idle (hc : s.clients = [c]) (idle : c.activity = .idle) : s.isServing = false := by
  rw [isServing, hc, List.any_cons, idle]; rfl

structure Resting (s : System σ) (c : Client) : Prop where
  reachable : Reachable s
  lone : Lone s c
  idle : c.activity = .idle
  unheld : c.permits = []
  stopped : s.isListening = false
  unclosed : s.handle.released = 0

theorem Resting.serves (h : Resting s c) {e : Event σ} (outward : e.isOutward = true)
    (asks : ∀ n call, e = .move (.ask n call) → n = 0) :
    ∃ tr d, Follows s tr ∧ Orderly s tr ∧ operations tr = [e] ∧ Resting (final s tr) d := by
  cases e with
  | incident i =>
    have befalls : Step s (.incident i) (s.withEndpoint (Surroundings.befall i s.handle.gate.endpoint)) := ⟨rfl, rfl⟩
    have seemly : Seemly s (.incident i) := .of_incident (isServing_of_idle h.lone.clients h.idle)
    exact ⟨[(.incident i, _)], c, ⟨befalls, trivial⟩, ⟨seemly, trivial⟩, rfl, h.reachable.step befalls,
      h.lone.of_step befalls h.lone.clients, h.idle, h.unheld, h.stopped, h.unclosed⟩
  | move m =>
    cases m with
    | run | expire => cases outward
    | ask n call =>
      obtain rfl := asks n call rfl
      have exchange : call.isExchange = true := by
        simpa [Event.isOutward, Event.isExchange, Event.isSetting] using outward
      have shared : call.isExclusive = false := by cases call <;> first | rfl | cases exchange
      have admitted : s.admits call = true := by
        simp [admits, h.unclosed, h.lone.clients, h.idle, Activity.isExclusive, shared]
      have honored : s.honors (.move (.ask 0 call)) = true := by
        cases call <;> first | rfl | cases exchange
      have seemly : Seemly s (.move (.ask 0 call)) := .of_move fun _ => by simp [h.lone.clients, h.unheld]
      have asks := step_of_ask h.lone.clients h.idle admitted honored
      have lone := h.lone.of_step asks rfl
      obtain ⟨t, d, ⟨tr, follows, silent, rfl⟩, hd, idle, permits, listening, released⟩ :=
        (h.reachable.step asks).ends lone exchange fun _ => h.unheld
      obtain ⟨d', lone⟩ := lone.follows follows
      cases lone.clients.symm.trans hd
      refine ⟨(.move (.ask 0 call), _) :: tr, d, ⟨asks, follows⟩, ⟨seemly, orderly_of_silent silent⟩, ?_,
        (h.reachable.step asks).follows follows, lone, idle, permits.trans h.unheld, listening.trans h.stopped,
        released.trans h.unclosed⟩
      exact (operations_append [(.move (.ask 0 call), _)] tr).trans (by rw [silent]; rfl)

/-- A handle whose listener is stopped serves any requests and writes, one after the other. -/
theorem Resting.serves_all {es : List (Event σ)} (h : Resting s c) (outward : ∀ e ∈ es, e.isOutward = true)
    (asks : ∀ n call, .move (.ask n call) ∈ es → n = 0) :
    ∃ tr, Follows s tr ∧ Orderly s tr ∧ operations tr = es ∧ (final s tr).isServing = false := by
  induction es generalizing s c with
  | nil => exact ⟨[], trivial, trivial, rfl, isServing_of_idle h.lone.clients h.idle⟩
  | cons e es ih =>
    obtain ⟨tr, d, follows, orderly, ops, rests⟩ := h.serves (outward e List.mem_cons_self)
      fun n call first => asks n call (first ▸ List.mem_cons_self)
    obtain ⟨tr', follows', orderly', ops', settled⟩ := ih rests
      (fun e he => outward e (List.mem_cons_of_mem _ he)) fun n call h => asks n call (List.mem_cons_of_mem _ h)
    refine ⟨tr ++ tr', follows_append.mpr ⟨follows, follows'⟩, orderly_append.mpr ⟨orderly, orderly'⟩, ?_, ?_⟩
    · rw [operations_append, ops, ops']; rfl
    · rw [final_append]; exact settled

/-! ## No interference -/

/-- Requests and writes are answered the same in both runs, and the features and the output are left the same. -/
structure ServesAlike (s : System σ) (tr tr' : Trace σ) : Prop where
  answers : (answers none s tr').filter (·.1.isExchange) = (answers none s tr).filter (·.1.isExchange)
  output : Separate.output (final s tr').endpoint = Separate.output (final s tr).endpoint

/-- The second run makes all calls of the first but requests and writes, and is answered the same. The same reports
are handed to the same handlers in the same order, and the input is left the same. -/
structure ReadsAlike (s : System σ) (tr tr' : Trace σ) : Prop where
  operations : operations tr' = (operations tr).filter (!·.isExchange)
  answers : answers none s tr' = (answers none s tr).filter (!·.1.isExchange)
  handings : (final s tr').journal.filterMap Entry.handing? = (final s tr).journal.filterMap Entry.handing?
  feed : (final s tr').handle.gate.feed = (final s tr).handle.gate.feed
  input : Separate.input (final s tr').endpoint = Separate.input (final s tr).endpoint

/-- Let one caller use a new handle, and make requests only while it holds no permit. Its requests and writes
by themselves can be made as well, and however that goes and whatever else is done besides, they are answered the
same and leave the same behind. All the rest can be done without them, with the same answers, reports handed over
and input left. And a request or a write that is under way can be answered. -/
theorem traffic_apart {x : σ} {config : Config} (h : Follows (start (.fresh x config) 1) tr)
    (orderly : Orderly (start (.fresh x config) 1) tr) :
    let s := start (.fresh x config) 1
    ((final s tr).isServing = false →
      (∃ tr', Follows s tr' ∧ Orderly s tr' ∧ operations tr' = (operations tr).filter Event.isOutward ∧
        (final s tr').isServing = false) ∧
      ∀ tr', Follows s tr' → Orderly s tr' →
        (operations tr').filter Event.isOutward = (operations tr).filter Event.isOutward →
        (final s tr').isServing = false → ServesAlike s tr tr') ∧
      (∃ tr', Follows s tr' ∧ ReadsAlike s tr tr') ∧
      ∃ tr', Follows (final s tr) tr' ∧ operations tr' = [] ∧ (final (final s tr) tr').isServing = false := by
  intro s
  have fresh : Reachable s := .start x config 1
  have lone : Lone s .fresh := .start x config
  refine ⟨fun settled => ⟨?_, ?_⟩, ?_, ?_⟩
  · have rests : Resting s .fresh := ⟨fresh, lone, rfl, rfl, rfl, rfl⟩
    exact rests.serves_all (fun e he => (List.mem_filter.mp he).2) fun n call asked =>
      lone.asks h (List.mem_filter.mp asked).1
  · intro tr' h' orderly' same settled'
    -- both runs have the replies that the endpoint alone gives to the same calls
    obtain ⟨replies, output⟩ := served h orderly settled
    obtain ⟨replies', output'⟩ := served h' orderly' settled'
    rw [same] at replies' output'
    exact ⟨replies'.trans replies.symm, output'.trans output.symm⟩
  · -- the second run follows the first, with nothing for its requests and writes
    have alike : s.handle.Alike s.handle := ⟨.refl _, rfl, rfl⟩
    have echo : Echo none none s s .fresh .fresh := ⟨.same rfl rfl, alike, .stopped⟩
    obtain ⟨t', d, d', after, ⟨tr', follows, ops, replies, -, rfl⟩, echo'⟩ :=
      echo.follows lone lone (fun busy => absurd rfl busy) h
    have gates := echo'.handle.gate
    exact ⟨tr', follows, ops, replies, gates.handings.symm, gates.feed.symm, gates.input.symm⟩
  · obtain ⟨d, lone', unheld⟩ := lone.unheld_along (fun request => by cases request) h orderly
    cases serving : d.activity.isExchange with
    | false =>
      refine ⟨[], trivial, rfl, ?_⟩
      rw [isServing, final, lone'.clients, List.any_cons, serving]; rfl
    | true =>
      obtain ⟨t, e, ⟨tr', follows, silent, rfl⟩, he, idle, -⟩ := (fresh.follows h).ends lone' serving
        fun waits => unheld (Activity.isRequest_of_mayWait serving waits)
      exact ⟨tr', follows, silent, isServing_of_idle he idle⟩

/-- The listener has handed over a report and polls again when the caller makes a request: it is woken and makes
room. Then the caller writes. -/
theorem traffic_apart_of_polling :
    let s := start (.fresh { Bench.fresh with features := .put 5 (.reply [5, 9] none) .empty } .standard) 1
    let request := Call.request .feature ⟨.get, 5, [0, 0]⟩
    let tr := play s [.move (.ask 0 (.register (some (.observer fun _ => .accept)))), .move (.run (.client 0)),
      .move (.ask 0 .start), .move (.run (.client 0)),
      .incident (Bench.Incident.arrive [.report (.whole [1, 2]), .report (.whole [3])]), .move (.run .listener),
      .move (.run .listener), .move (.run .listener), .move (.run .listener), .move (.run .listener),
      .move (.run .listener), .move (.run .listener), .move (.run .listener), .move (.run .listener),
      .move (.run .listener), .move (.ask 0 request), .move (.run (.client 0)), .move (.run (.client 0)),
      .move (.run (.client 0)), .move (.run .listener), .move (.run .listener), .move (.run .listener),
      .move (.run (.client 0)), .move (.run (.client 0)), .move (.run (.client 0)), .move (.run (.client 0)),
      .move (.run (.client 0)), .move (.ask 0 (.write [7, 7])), .move (.run (.client 0))]
    tr.length = 29 ∧
      (∃ tr', Follows s tr' ∧ operations tr' = [.move (.ask 0 request), .move (.ask 0 (.write [7, 7]))] ∧
        ((answers none s tr').filter (·.1.isExchange)).map Prod.snd = [⟨.count 2, [5, 9]⟩, ⟨.done, []⟩] ∧
        (final s tr').endpoint.outputs = [[7, 7]]) ∧
      ∃ tr', Follows s tr' ∧ (answers none s tr').map Prod.snd = [⟨.done, []⟩, ⟨.done, []⟩] ∧
        (final s tr').journal.filterMap Entry.handing? = [⟨.listener, .observer 0, [1, 2]⟩] ∧
        (final s tr').endpoint.queue = [.report (.whole [3])] := by
  intro s request tr
  obtain ⟨serves, ⟨tr', follows', reads⟩, -⟩ := traffic_apart (follows_play s _ : Follows s tr) (by decide +kernel)
  obtain ⟨⟨tr'', follows'', orderly, ops, settled⟩, alike⟩ := serves (by decide +kernel)
  have alike := alike tr'' follows'' orderly (by rw [ops, List.filter_filter]; simp) settled
  refine ⟨by decide +kernel, ⟨tr'', follows'', ?_, ?_, ?_⟩, tr', follows', ?_, ?_, ?_⟩
  · rw [ops, operations, map_fst_play (by decide +kernel)]; rfl
  · rw [alike.answers]; decide +kernel
  · exact (congrArg Bench.outputs alike.output).trans (by decide +kernel)
  · rw [reads.answers]; decide +kernel
  · rw [reads.handings]; decide +kernel
  · exact (congrArg Prod.fst reads.input).trans (by decide +kernel)

end System

end HidGate
