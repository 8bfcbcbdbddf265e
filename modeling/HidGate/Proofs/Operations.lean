import HidGate.Proofs.Halting
import HidGate.Proofs.Signal

/-!
# One caller

A system with one client, seen through what is done to it and what it answers: the calls that the client makes,
what befalls the endpoint, and the reply to each call.
-/

namespace HidGate

/-! ## Requests and writes -/

def Call.isExchange : Call → Bool
  | .request .. | .write _ => true
  | _ => false

def Activity.isExchange : Activity → Bool
  | .enter c => c.isExchange
  | .steal _ (.request _) | .exchange .. | .leave .. => true
  | _ => false

def Activity.IsOf (c : Call) : Activity → Prop
  | .idle => True
  | .enter c' => c' = c
  | .steal _ (.request r) | .exchange r _ => ∃ kind, c = .request kind r ∧ r.refusal? kind = none
  | .leave .. => ∃ kind r, c = .request kind r
  | _ => c.isExchange = false

theorem Activity.IsOf.isExchange {c : Call} {a : Activity} (h : a.IsOf c) (busy : a ≠ .idle) :
    a.isExchange = c.isExchange := by
  cases a with
  | idle => exact absurd rfl busy
  | enter => cases h; rfl
  | steal st errand =>
    cases errand with
    | permit => exact h.symm
    | request => obtain ⟨_, rfl, -⟩ := h; rfl
  | exchange => obtain ⟨_, rfl, -⟩ := h; rfl
  | leave => obtain ⟨_, _, rfl⟩ := h; rfl
  | _ => exact h.symm

section
variable {σ : Type} [Endpoint σ]

theorem isOf_of_step? {n : Nat} {call : Call} {c d : Client} {h h' : Handle σ} (of : c.activity.IsOf call)
    (hs : h.step? n c = some (d, h')) : d.activity.IsOf call := by
  cases Handle.clientStep hs with
  | steals doing enter =>
    rw [doing] at of
    cases of
    rcases Handle.call_of_steals enter with ⟨rfl, rfl⟩ | ⟨kind, r, rfl, rfl, fine⟩
    · rfl
    · exact ⟨kind, rfl, fine⟩
  | reads doing => rw [doing] at of; cases of; rfl
  | @requests kind r doing fine => rw [doing] at of; cases of; exact ⟨kind, rfl, fine⟩
  | @stops call' closing doing exclusive =>
    rw [doing] at of
    obtain rfl : call' = call := of
    cases call' with
    | start | stop | close => rfl
    | _ => cases exclusive
  | closes doing => rw [doing] at of; cases of; rfl
  | @stealing st st' errand l doing => rw [doing] at of; cases errand <;> exact of
  | @stolen errand doing =>
    rw [doing] at of
    cases errand with
    | permit => trivial
    | request r => exact of
  | @reading st buffer propagate next g doing =>
    rw [doing] at of
    rcases next with st | (f | report) | _
    · exact of
    · trivial
    · trivial
    · trivial
  | exchanges doing =>
    rw [doing] at of
    obtain ⟨kind, of, -⟩ := of
    exact ⟨kind, _, of⟩
  | halting doing => rw [doing] at of; exact of
  | @halted st closing h' doing =>
    rw [doing] at of
    cases closing with
    | true => exact of
    | false => trivial
  | answered | granted | unlocks | writes | propagates | registers | starts | leaves | releases => trivial

end

/-! ## Operations -/

namespace Event

def isOperation {σ : Type} [Surroundings σ] : Event σ → Bool
  | .move (.ask ..) | .incident _ => true
  | _ => false

def isRequest {σ : Type} [Surroundings σ] : Event σ → Bool
  | .move (.ask _ (.request ..)) => true
  | _ => false

def isExchange {σ : Type} [Surroundings σ] : Event σ → Bool
  | .move (.ask _ c) => c.isExchange
  | _ => false

end Event

namespace System

section
variable {σ : Type} [Surroundings σ]

def operations (tr : Trace σ) : List (Event σ) := (tr.map Prod.fst).filter Event.isOperation

def callAfter (call? : Option Call) (e : Event σ) : Option Call := (e.call? 0).or call?

def ended? (s t : System σ) : Option Reply :=
  match s.clients[0]?, t.clients[0]? with
  | some c, some d => if !c.isIdle && d.isIdle then d.reply else none
  | _, _ => none

def answer? (call? : Option Call) (s t : System σ) : Option (Call × Reply) :=
  call?.bind fun c => (ended? s t).map (c, ·)

/-- The calls of client 0 that ended, each with its reply, oldest first; before the trace the client was in
`call?`. -/
def answers : Option Call → System σ → Trace σ → List (Call × Reply)
  | _, _, [] => []
  | call?, s, (e, t) :: tr => (answer? (callAfter call? e) s t).toList ++ answers (callAfter call? e) t tr

def callAfterAll (call? : Option Call) (tr : Trace σ) : Option Call := tr.foldl (fun c x => callAfter c x.1) call?

theorem callAfter_of_silent {e : Event σ} (call? : Option Call) (silent : e.isOperation = false) :
    callAfter call? e = call? := by
  cases e with
  | incident => cases silent
  | move m =>
    cases m with
    | ask => cases silent
    | run | expire => rfl

theorem operations_append (tr tr' : Trace σ) : operations (tr ++ tr') = operations tr ++ operations tr' := by
  rw [operations, List.map_append, List.filter_append]; rfl

theorem answers_append (call? : Option Call) (s : System σ) (tr tr' : Trace σ) :
    answers call? s (tr ++ tr') = answers call? s tr ++ answers (callAfterAll call? tr) (final s tr) tr' := by
  induction tr generalizing call? s with
  | nil => rfl
  | cons x tr ih =>
    obtain ⟨e, t⟩ := x
    rw [List.cons_append, answers, ih, answers, List.append_assoc]
    rfl

theorem callAfterAll_append (call? : Option Call) (tr tr' : Trace σ) :
    callAfterAll call? (tr ++ tr') = callAfterAll (callAfterAll call? tr) tr' := List.foldl_append

end

/-! ## The only client -/

section
variable {σ : Type} [Endpoint σ] [Surroundings σ] {s t : System σ} {e : Event σ} {c : Client}

inductive SoleStep (s : System σ) (c : Client) : Event σ → System σ → Client → Prop
  | ask {call : Call} (idle : c.activity = .idle) (admitted : s.admits call = true)
      (honored : s.honors (.move (.ask 0 call)) = true) :
      SoleStep s c (.move (.ask 0 call)) ⟨s.handle, [{ c with activity := .enter call, reply := none }]⟩
        { c with activity := .enter call, reply := none }
  | listener {wanted : Bool} {d : Duty} {w : Worker} {g : Gate σ}
      (on_duty : s.handle.listener = .running wanted (.working d))
      (step : d.step? wanted s.handle.gate = some (w, g)) :
      SoleStep s c (.move (.run .listener)) (s.work wanted (w, g)) c
  | listenerLate {wanted : Bool} (on_duty : s.handle.listener = .running wanted (.working (.read .poll)))
      (late : s.handle.gate.isIdle = true) :
      SoleStep s c (.move (.expire .listener))
        (s.work wanted (.working (.leave (.error .timeout)), s.handle.gate)) c
  | client {d : Client} {h : Handle σ} (step : s.handle.step? 0 c = some (d, h)) :
      SoleStep s c (.move (.run (.client 0))) ⟨h, [d]⟩ d
  | clientLate {buffer : Bytes} {propagate : Bool} (doing : c.activity = .read .poll buffer propagate)
      (late : s.handle.gate.isIdle = true) :
      SoleStep s c (.move (.expire (.client 0))) ⟨s.handle, [c.answer ⟨.fault .timeout, buffer⟩]⟩
        (c.answer ⟨.fault .timeout, buffer⟩)
  | incident (i : Surroundings.Incident σ) :
      SoleStep s c (.incident i) (s.withEndpoint (Surroundings.befall i s.handle.gate.endpoint)) c

omit [Surroundings σ] in
theorem isIdle_of_expire? {g : Gate σ} {st : ReadStage} {next : ReadNext} (h : st.expire? g = some next) :
    g.isIdle = true := by
  cases st with
  | poll =>
    simp only [ReadStage.expire?] at h
    split at h
    · rename_i idle; exact idle
    · cases h
  | _ => cases h

theorem Step.sole (h : Step s e t) (hc : s.clients = [c]) : ∃ d, SoleStep s c e t d ∧ t.clients = [d] := by
  have at_zero {n : Nat} {d : Client} (hd : s.clients[n]? = some d) : n = 0 ∧ d = c := by
    rw [hc] at hd
    cases n with
    | zero => cases hd; exact ⟨rfl, rfl⟩
    | succ n => cases hd
  cases h.cause with
  | ask at_n idle admitted honored =>
    obtain ⟨rfl, rfl⟩ := at_zero at_n
    have := SoleStep.ask (c := _) (Client.isIdle_iff.mp idle) admitted honored
    rw [hc]
    exact ⟨_, this, rfl⟩
  | listener on_duty step => exact ⟨c, .listener on_duty step, hc⟩
  | listenerLate on_duty late =>
    obtain ⟨rfl, rfl, rfl⟩ := Duty.expire?_eq_some late
    refine ⟨c, .listenerLate on_duty ?_, hc⟩
    simp only [Duty.expire?, Option.map_eq_some_iff] at late
    obtain ⟨next, late, -⟩ := late
    exact isIdle_of_expire? late
  | @client n client client' h' at_n step =>
    obtain ⟨rfl, rfl⟩ := at_zero at_n
    refine ⟨client', ?_, ?_⟩
    · rw [turn, hc]; exact .client step
    · rw [turn, hc]; rfl
  | @clientLate n client client' h' at_n late =>
    obtain ⟨rfl, rfl⟩ := at_zero at_n
    obtain ⟨buffer, propagate, doing, rfl, rfl⟩ := Handle.expire?_eq_some late
    refine ⟨client.answer ⟨.fault .timeout, buffer⟩, ?_, ?_⟩
    · rw [turn, hc]
      refine .clientLate doing ?_
      simp only [Handle.expire?, doing, Option.map_eq_some_iff] at late
      obtain ⟨next, late, -⟩ := late
      exact isIdle_of_expire? late
    · rw [turn, hc]; rfl
  | incident i => exact ⟨c, .incident i, hc⟩

def Known (call? : Option Call) (c : Client) : Prop :=
  c.activity ≠ .idle → ∃ call, call? = some call ∧ c.activity.IsOf call

theorem Known.step {call? : Option Call} {d : Client} (hk : Known call? c) (h : SoleStep s c e t d) :
    Known (callAfter call? e) d := by
  intro busy
  cases h with
  | @ask call => exact ⟨call, rfl, rfl⟩
  | listener | listenerLate | incident => exact hk busy
  | clientLate => exact absurd rfl busy
  | client step =>
    have before : c.activity ≠ .idle := fun idle => by simp [Handle.step?, idle] at step
    obtain ⟨call, known, of⟩ := hk before
    exact ⟨call, known, isOf_of_step? of step⟩

omit [Surroundings σ] in
theorem Known.isExchange_of_step? {call? : Option Call} {n : Nat} {d : Client} {h h' : Handle σ} (hk : Known call? c)
    (busy : c.activity ≠ .idle) (hs : h.step? n c = some (d, h')) :
    d.activity = .idle ∨ d.activity.isExchange = c.activity.isExchange := by
  obtain ⟨call, -, of⟩ := hk busy
  by_cases idle : d.activity = .idle
  · exact .inl idle
  · exact .inr (((isOf_of_step? of hs).isExchange idle).trans (of.isExchange busy).symm)

omit [Endpoint σ] [Surroundings σ] in
theorem ended?_of_sole {d : Client} (hc : s.clients = [c]) (hd : t.clients = [d]) :
    ended? s t = if !c.isIdle && d.isIdle then d.reply else none := by
  rw [ended?, hc, hd]; rfl

omit [Endpoint σ] [Surroundings σ] in
theorem answer?_of_sole {call? : Option Call} {d : Client} (hc : s.clients = [c]) (hd : t.clients = [d])
    (same : d.isIdle = c.isIdle) : answer? call? s t = none := by
  have : ended? s t = none := by
    rw [ended?_of_sole hc hd, same]
    cases c.isIdle <;> rfl
  rw [answer?, this]
  cases call? <;> rfl

omit [Endpoint σ] [Surroundings σ] in
theorem answer?_of_idle {call? : Option Call} {d : Client} (hc : s.clients = [c]) (hd : t.clients = [d])
    (idle : c.activity = .idle) : answer? call? s t = none := by
  have : ended? s t = none := by
    rw [ended?_of_sole hc hd, Client.isIdle_iff.mpr idle]
    rfl
  rw [answer?, this]
  cases call? <;> rfl

omit [Endpoint σ] [Surroundings σ] in
theorem Known.answer {call? : Option Call} (hk : Known call? c) (busy : c.activity ≠ .idle) {a : Call × Reply}
    (ha : a ∈ (answer? call? s t).toList) : a.1.isExchange = c.activity.isExchange := by
  obtain ⟨call, rfl, of⟩ := hk busy
  simp only [answer?, Option.bind_some, Option.mem_toList, Option.map_eq_some_iff] at ha
  obtain ⟨reply, -, rfl⟩ := ha
  exact (of.isExchange busy).symm

end

/-! ## Steps with one caller -/

section
variable {σ : Type} [Endpoint σ] [Surroundings σ] {s : System σ} {c d : Client}

theorem step_of_duty {wanted : Bool} {d : Duty} {w : Worker} {g : Gate σ}
    (on_duty : s.handle.listener = .running wanted (.working d)) (h : DutyStep wanted s.handle.gate d w g) :
    Step s (.move (.run .listener)) (s.work wanted (w, g)) :=
  ⟨rfl, by simp only [happen?, next, run?, on_duty, h.step?, Option.map_some]⟩

theorem step_of_late {wanted : Bool} (on_duty : s.handle.listener = .running wanted (.working (.read .poll)))
    (late : s.handle.gate.isIdle = true) :
    Step s (.move (.expire .listener)) (s.work wanted (.working (.leave (.error .timeout)), s.handle.gate)) := by
  refine ⟨rfl, ?_⟩
  simp only [happen?, next, expire?, on_duty, Duty.expire?, ReadStage.expire?, late, if_true, Option.map_some]
  rfl

theorem step_of_client {k : Handle σ} (hc : s.clients = [c]) (h : s.handle.step? 0 c = some (d, k)) :
    Step s (.move (.run (.client 0))) ⟨k, [d]⟩ :=
  ⟨rfl, by simp [happen?, next, run?, hc, h, turn]⟩

theorem step_of_ask {call : Call} (hc : s.clients = [c]) (idle : c.activity = .idle) (admitted : s.admits call = true)
    (honored : s.honors (.move (.ask 0 call)) = true) :
    Step s (.move (.ask 0 call)) ⟨s.handle, [{ c with activity := .enter call, reply := none }]⟩ := by
  refine ⟨honored, ?_⟩
  simp [happen?, next, ask?, hc, Client.isIdle, idle, Activity.isIdle, admitted]

end

/-! ## What holds with one caller -/

section
variable {σ : Type} {s t : System σ} {c : Client}

/-- The only client is `c`. A byte in the pipe is its own. A listener that is told to finish, or waited for, is being
stopped by it. While it waits for the read path there is a byte for the listener, or the listener has read. -/
structure Lone (s : System σ) (c : Client) : Prop where
  clients : s.clients = [c]
  sound : Sound s
  owned : ∃ ns, Owned s ns
  stopping : (∃ w, s.handle.listener = .running false w) ∨ (∃ st, c.activity.halt? = some st ∧ st ≠ .clear) →
    Stopping 0 s
  roused : c.activity.isAwaiting = true → s.lock.pipe.isEmpty = false ∨ s.handle.listener.isSpent = true

namespace Lone

theorem start (x : σ) (config : Config) : Lone (start (.fresh x config) 1) .fresh := by
  refine ⟨rfl, sound_start x config 1, ⟨[], .nobody rfl⟩, ?_, nofun⟩
  rintro (⟨w, told⟩ | ⟨st, halt, -⟩)
  · cases told
  · cases halt

theorem at_zero (h : Lone s c) : s.clients[0]? = some c := by rw [h.clients]; rfl

theorem halt?_eq (h : Lone s c) : s.halt? 0 = c.activity.halt? := by rw [halt?, h.at_zero]; rfl

theorem isAwaiting_eq (h : Lone s c) : s.isAwaiting 0 = c.activity.isAwaiting := by
  rw [isAwaiting, h.at_zero]; rfl

/-! ### Who has what -/

theorem holds_eq_zero (h : Lone s c) (listener : s.handle.listener.holds = 0) (client : c.holds = 0) (p : Party) :
    s.holds p = 0 := by
  cases p with
  | listener => exact listener
  | client n =>
    cases n with
    | zero => rw [(holds_of_at h.at_zero).1]; exact client
    | succ n => rw [holds, h.clients]; rfl

theorem grabs_eq_zero (h : Lone s c) (listener : s.handle.listener.grabs = 0) (client : c.activity.grabs = 0)
    (p : Party) : s.grabs p = 0 := by
  cases p with
  | listener => exact listener
  | client n =>
    cases n with
    | zero => rw [(holds_of_at h.at_zero).2]; exact client
    | succ n => rw [grabs, h.clients]; rfl

theorem reader_eq_none (h : Lone s c) (listener : s.handle.listener.holds = 0) (client : c.holds = 0) :
    s.lock.reader = none := h.sound.reader_eq_none (h.holds_eq_zero listener client)

theorem grabber_eq_none (h : Lone s c) (listener : s.handle.listener.grabs = 0) (client : c.activity.grabs = 0) :
    s.lock.grabber = none := h.sound.grabber_eq_none (h.grabs_eq_zero listener client)

theorem not_both_hold (h : Lone s c) (listener : 0 < s.handle.listener.holds) : c.holds = 0 := by
  cases client : c.holds with
  | zero => rfl
  | succ k =>
    have first := h.sound.reader_of_holds (show 0 < s.holds .listener from listener)
    have second := h.sound.reader_of_client_holds h.at_zero (by omega)
    rw [first] at second; cases second

theorem pipe_eq_empty (h : Lone s c) (quiet : c.activity.hasCalled = false) : s.lock.pipe = .empty := by
  obtain ⟨ns, owned⟩ := h.owned
  have nobody : ns = [] := by
    refine List.eq_nil_iff_forall_not_mem.mpr fun n hn => ?_
    have called := owned.called n hn
    cases n with
    | zero =>
      rw [System.hasCalled, h.at_zero, Option.any_some, quiet] at called
      cases called
    | succ n =>
      rw [System.hasCalled, h.clients] at called
      cases called
  exact Pipe.ext (by rw [owned.bytes, nobody]; rfl)

theorem holds_of_halt (h : Lone s c) {st : Halt} (halts : c.activity.halt? = some st) : c.holds = 0 := by
  obtain ⟨none_held, -⟩ := h.sound.alone_of_halt (h.halt?_eq.trans halts) h.at_zero
  cases ha : c.activity with
  | halt => rw [Client.holds, none_held, ha]; rfl
  | _ => rw [ha] at halts; cases halts

/-- A listener that polls an empty pipe has not been called. -/
theorem quiet_of_poll (h : Lone s c) (polls : s.handle.listener = .running true (.working (.read .poll)))
    (empty : s.lock.pipe.isEmpty = true) : c.activity.hasCalled = false := by
  have unheld : c.holds = 0 := h.not_both_hold (by rw [polls]; exact Nat.one_pos)
  cases ha : c.activity with
  | steal st errand =>
    cases st with
    | take =>
      rcases h.roused (by rw [ha]; rfl) with byte | spent
      · rw [empty] at byte; cases byte
      · rw [polls] at spent; cases spent
    | clear =>
      rw [Client.holds_of_activity ha] at unheld
      cases unheld
    | _ => rfl
  | halt st closing =>
    cases st with
    | clear | wake => rfl
    | join | drain =>
      have stops := h.stopping (.inr ⟨_, by rw [ha]; rfl, by decide⟩)
      cases stops.told polls
  | _ => rfl

/-! ### Steps -/

variable [Endpoint σ] [Surroundings σ] {e : Event σ}

theorem stopping_step {d : Client} (h : Lone s c) (st : Step s e t) (sole : SoleStep s c e t d)
    (hd : t.clients = [d])
    (after : (∃ w, t.handle.listener = .running false w) ∨ (∃ st, d.activity.halt? = some st ∧ st ≠ .clear)) :
    Stopping 0 t := by
  have halt?_t : t.halt? 0 = d.activity.halt? := by rw [halt?, hd]; rfl
  have of_before (stops : Stopping 0 s) : Stopping 0 t := by
    rcases stops.step h.sound st with goes_on | ⟨-, returned⟩
    · exact goes_on
    · exfalso
      rcases after with ⟨w, told⟩ | ⟨stage, halts, -⟩
      · rw [returned.stopped] at told; cases told
      · rw [← halt?_t, returned.done] at halts; cases halts
  cases sole with
  | ask =>
    rcases after with told | ⟨stage, halts, -⟩
    · exact of_before (h.stopping (.inl told))
    · cases halts
  | listener on_duty =>
    rcases after with ⟨w, told⟩ | halts
    · cases told; exact of_before (h.stopping (.inl ⟨_, on_duty⟩))
    · exact of_before (h.stopping (.inr halts))
  | listenerLate on_duty =>
    rcases after with ⟨w, told⟩ | halts
    · cases told; exact of_before (h.stopping (.inl ⟨_, on_duty⟩))
    · exact of_before (h.stopping (.inr halts))
  | incident => exact of_before (h.stopping after)
  | clientLate =>
    rcases after with told | ⟨stage, halts, -⟩
    · exact of_before (h.stopping (.inl told))
    · cases halts
  | @client d h' step =>
    by_cases clear : c.activity.halt? = some .clear
    · exact (h.sound.stopping_of_clear (h.halt?_eq.trans clear) st).1
    · refine of_before (h.stopping ?_)
      rcases after with ⟨w, told⟩ | ⟨stage, halts, past⟩
      · left
        cases Handle.step?_steering step with
        | keep same => exact ⟨w, same.symm.trans told⟩
        | start _ _ started => cases started.symm.trans told
        | clear _ _ _ doing => rw [doing] at clear; exact absurd rfl clear
        | join _ _ _ _ _ _ stopped => cases stopped.symm.trans told
      · right
        cases Handle.clientStep step with
        | stops => cases halts; exact absurd rfl past
        | @halting stage' _ _ _ doing =>
          refine ⟨stage', by rw [doing]; rfl, ?_⟩
          rintro rfl
          rw [doing] at clear
          exact clear rfl
        | @stolen errand => cases errand <;> cases halts
        | @reading _ _ _ next => rcases next with _ | (_ | _) | _ <;> cases halts
        | @halted _ closing => cases closing <;> cases halts
        | _ => cases halts

theorem roused_step {d : Client} (h : Lone s c) (st : Step s e t) (sole : SoleStep s c e t d) (hd : t.clients = [d])
    (awaiting : d.activity.isAwaiting = true) :
    t.lock.pipe.isEmpty = false ∨ t.handle.listener.isSpent = true := by
  have awaiting_t : t.isAwaiting 0 = true := by rw [isAwaiting, hd]; exact awaiting
  cases before : s.isAwaiting 0 with
  | true =>
    obtain ⟨spent, pipe⟩ := h.sound.pipe_of_awaiting before st.cause
    have waits := h.isAwaiting_eq.symm.trans before
    rcases h.roused waits with byte | read
    · rcases pipe with same | ⟨m, reads⟩ | ⟨read, -⟩
      · left; rw [same]; exact byte
      · -- the only client waits, so it does not read
        obtain ⟨c', buffer, propagate, hc', reading⟩ := stage?_client_iff.mp reads
        rw [h.clients] at hc'
        obtain rfl := List.mem_singleton.mp (List.mem_of_getElem? hc')
        rw [reading] at waits; cases waits
      · exact .inr read
    · exact .inr (spent read)
  | false =>
    obtain ⟨rfl, -⟩ := st.announces before awaiting_t
    cases sole with
    | @client d h' step =>
      obtain ⟨errand, announcing⟩ := Handle.of_awaiting step awaiting
      obtain ⟨-, pipe⟩ := Handle.step?_calling step (by rw [announcing]; rfl)
      left
      change h'.gate.lock.pipe.isEmpty = false
      rw [pipe]
      exact Pipe.notify_not_empty _

theorem step (h : Lone s c) (st : Step s e t) : ∃ d, SoleStep s c e t d ∧ Lone t d := by
  obtain ⟨d, sole, hd⟩ := st.sole h.clients
  obtain ⟨ns, owned⟩ := h.owned
  exact ⟨d, sole, hd, h.sound.step st.cause, ⟨_, owned.step h.sound st⟩, h.stopping_step st sole hd,
    h.roused_step st sole hd⟩

theorem of_step {d : Client} (h : Lone s c) (st : Step s e t) (hd : t.clients = [d]) : Lone t d := by
  obtain ⟨d', -, h'⟩ := h.step st
  cases h'.clients.symm.trans hd
  exact h'

theorem follows {tr : Trace σ} (h : Lone s c) (hf : Follows s tr) : ∃ d, Lone (final s tr) d := by
  induction tr generalizing s c with
  | nil => exact ⟨c, h⟩
  | cons x tr ih =>
    obtain ⟨d, -, h'⟩ := h.step hf.1
    exact ih h' hf.2

end Lone

end

/-! ## Runs put together -/

section
variable {σ : Type} [Endpoint σ] [Surroundings σ] {s t u : System σ} {e : Event σ} {c d : Client}
  {call? : Option Call}

/-- There is a run from `s` to `t` with these operations and answers. The client is in call `before` at its
beginning, and in `after` at its end. -/
def Leads (before : Option Call) (s : System σ) (os : List (Event σ)) (as : List (Call × Reply))
    (after : Option Call) (t : System σ) : Prop :=
  ∃ tr, Follows s tr ∧ operations tr = os ∧ answers before s tr = as ∧ callAfterAll before tr = after ∧
    final s tr = t

namespace Leads

theorem stay (call? : Option Call) (s : System σ) : Leads call? s [] [] call? s := ⟨[], trivial, rfl, rfl, rfl, rfl⟩

theorem step (call? : Option Call) (h : Step s e t) :
    Leads call? s ([e].filter Event.isOperation) (answer? (callAfter call? e) s t).toList (callAfter call? e) t :=
  ⟨[(e, t)], ⟨h, trivial⟩, rfl, List.append_nil _, rfl, rfl⟩

theorem trans {before between after : Option Call} {os os' : List (Event σ)} {as as' : List (Call × Reply)}
    (h : Leads before s os as between t) (h' : Leads between t os' as' after u) :
    Leads before s (os ++ os') (as ++ as') after u := by
  obtain ⟨tr, follows, rfl, rfl, rfl, rfl⟩ := h
  obtain ⟨tr', follows', rfl, rfl, rfl, rfl⟩ := h'
  exact ⟨tr ++ tr', follows_append.mpr ⟨follows, follows'⟩, operations_append .., answers_append ..,
    callAfterAll_append .., final_append ..⟩

theorem silent (h : Step s e t) (silent : e.isOperation = false) (hc : s.clients = [c]) (hd : t.clients = [d])
    (same : d.isIdle = c.isIdle) : Leads call? s [] [] call? t := by
  have leads := step call? h
  rwa [List.filter_cons_of_neg (by simp [silent]), callAfter_of_silent call? silent,
    answer?_of_sole hc hd same] at leads

end Leads

theorem Lone.leads {before after : Option Call} {os : List (Event σ)} {as : List (Call × Reply)} (h : Lone s c)
    (leads : Leads before s os as after t) (hd : t.clients = [d]) : Lone t d := by
  obtain ⟨tr, follows, -, -, -, rfl⟩ := leads
  obtain ⟨d', h'⟩ := h.follows follows
  cases h'.clients.symm.trans hd
  exact h'

end

end System

end HidGate
