import HidGate.Proofs.Cycle
import HidGate.Proofs.Rest

/-!
# The life of a listener

Whether a listener counts as started, whether its thread lives, and what is in the queue are three things. Starts
and stops that take effect decide the first. The second can end by itself, and then the first stays as it was. As
long as no thread is there, and nobody else reads, the queue only grows; a thread that is started anew finds it so.
-/

namespace HidGate

open Bench (Moved Item)

/-! ## Calls that take effect -/

/-- The activity is part of a call to start the listener, or of one to stop it. -/
def Activity.steers? : Activity → Option Bool
  | .enter (.start _) => some true
  | .enter .stop | .enter .close | .halt .. | .release => some false
  | _ => none

theorem Activity.isExclusive_of_steers {a : Activity} {b : Bool} (h : a.steers? = some b) : a.isExclusive = true := by
  cases a with
  | enter call =>
    cases call with
    | start | stop | close => rfl
    | _ => cases h
  | halt | release => rfl
  | _ => cases h

/-- What the system says to the start that the activity is. -/
def Activity.starting? : Activity → Option (Option SystemError)
  | .enter (.start refusal) => some refusal
  | _ => none

theorem Activity.eq_of_starting {a : Activity} {refusal : Option SystemError} (h : a.starting? = some refusal) :
    a = .enter (.start refusal) := by
  cases a with
  | enter call =>
    cases call with
    | start => cases h; rfl
    | _ => cases h
  | _ => cases h

/-- The listener is stopped, and the call that stopped it is still to return. -/
def Activity.isParting : Activity → Bool
  | .halt .drain _ | .release => true
  | _ => false

/-- What the call has done that is over when client `c` becomes `d`: it has started the listener, or stopped it, or
neither. A call that crashes has no effect. -/
def Client.effect? (c d : Client) : Option Bool :=
  if d.isIdle && d.reply == some ⟨.done, []⟩ then c.activity.steers? else none

theorem Client.effect_of_busy {c d : Client} (busy : d.isIdle = false) : c.effect? d = none := by
  simp [effect?, busy]

theorem Client.effect_of_finish (c : Client) : c.effect? (c.finish .done) = c.activity.steers? := by
  simp [effect?, finish, answer, isIdle, Activity.isIdle]

theorem Client.effect_of_steers {c d : Client} (apart : c.activity.steers? = none) : c.effect? d = none := by
  simp [effect?, apart]

namespace Handle

variable {σ : Type} [Endpoint σ] {n : Nat} {c d : Client} {h k : Handle σ}

theorem effect_of_answered {call : Call} {reply : Reply} (doing : c.activity = .enter call)
    (enter : h.enter n c call = (c.answer reply, h)) :
    c.effect? (c.answer reply) = none ∨ c.effect? (c.answer reply) = some h.listener.isRunning := by
  cases call with
  | start refusal =>
    left
    simp only [Handle.enter, Handle.start] at enter
    split at enter
    · cases enter
      simp [Client.effect?, Client.answer]
    · split at enter
      · cases enter
        simp [Client.effect?, Client.answer]
      · rename_i fresh _
        cases refusal with
        | some e => cases enter; simp [Client.effect?, Client.answer]
        | none =>
        have started := congrArg (fun t => t.2.listener.isRunning) enter
        simp only [note_listener] at started
        exact absurd started.symm fresh
  | stop =>
    right
    simp only [Handle.enter] at enter
    split at enter
    · cases congrArg (fun t => t.1.activity) enter
    · rename_i stopped
      cases enter
      rw [← Client.finish, c.effect_of_finish, doing, Bool.eq_false_iff.mpr stopped]
      rfl
  | close =>
    simp only [Handle.enter] at enter
    have left_idle := congrArg (fun t => t.1.activity) enter
    simp only [Client.goOn_activity, Client.answer_activity] at left_idle
    split at left_idle <;> cases left_idle
  | _ => exact .inl (Client.effect_of_steers (by rw [doing]; rfl))

/-- A step changes whether the listener is started only by the end of a call that does this, or on the way to such an
end. -/
theorem effect_of_step? (fits : c.Fits h.listener.isRunning) (hs : h.step? n c = some (d, k)) :
    d.activity.isParting = true ∨ c.effect? d = some k.listener.isRunning ∨
      c.effect? d = none ∧ k.listener.isRunning = h.listener.isRunning ∧ c.activity.isParting = false := by
  have activity := fits.activity
  cases clientStep hs with
  | answered doing enter =>
    rcases effect_of_answered doing enter with void | now
    · exact .inr (.inr ⟨void, rfl, by rw [doing]; rfl⟩)
    · exact .inr (.inl now)
  | starts doing =>
    right; left
    rw [c.effect_of_finish, doing]
    rfl
  | stops doing => exact .inr (.inr ⟨Client.effect_of_busy rfl, rfl, by rw [doing]; rfl⟩)
  | closes => exact .inl rfl
  | @halting st st' closing k doing step =>
    cases st with
    | clear =>
      simp only [halt?] at step
      split at step
      · cases step
      · rename_i before
        cases step
        refine .inr (.inr ⟨Client.effect_of_busy rfl, ?_, by rw [doing]; rfl⟩)
        rw [before]
        rfl
    | wake => cases step; exact .inr (.inr ⟨Client.effect_of_busy rfl, rfl, by rw [doing]; rfl⟩)
    | join =>
      simp only [halt?] at step
      split at step <;> cases step <;> exact .inl rfl
    | drain => cases step
  | @halted st closing k doing step =>
    rw [doing] at activity
    cases st with
    | clear =>
      have running : h.listener.isRunning = true := activity
      simp only [halt?] at step
      split at step
      · rename_i stopped; rw [stopped] at running; cases running
      · cases step
    | wake => cases step
    | join => simp only [halt?] at step; split at step <;> cases step
    | drain =>
      have stopped : h.listener.isRunning = false := activity
      cases step
      cases closing with
      | true => exact .inl rfl
      | false =>
        right; left
        rw [if_neg Bool.false_ne_true, c.effect_of_finish, doing, note_listener, withLock, stopped]
        rfl
  | releases doing =>
    rw [doing] at activity
    have stopped : h.listener.isRunning = false := activity
    right; left
    rw [c.effect_of_finish, doing, stopped]
    rfl
  | unlocks doing | leaves doing =>
    refine .inr (.inr ⟨Client.effect_of_steers (by rw [doing]; rfl), ?_, by rw [doing]; rfl⟩)
    split <;> rfl
  | steals doing => exact .inr (.inr ⟨Client.effect_of_busy rfl, rfl, by rw [doing]; rfl⟩)
  | granted doing | reads doing | requests doing | writes doing | propagates doing | registers doing | stealing doing
  | stolen doing | reading doing | exchanges doing =>
    exact .inr (.inr ⟨Client.effect_of_steers (by rw [doing]; rfl), rfl, by rw [doing]; rfl⟩)

end Handle

namespace System

section
variable {σ : Type} [Endpoint σ] [Surroundings σ] {s t : System σ} {e : Event σ} {n : Nat}

def effect? (s : System σ) (e : Event σ) (t : System σ) : Option Bool :=
  match e with
  | .move (.run (.client n)) => s.clients[n]?.bind fun c => t.clients[n]?.bind (c.effect? ·)
  | _ => none

def lastEffect : Bool → System σ → Trace σ → Bool
  | last, _, [] => last
  | last, s, (e, t) :: tr => lastEffect ((s.effect? e t).getD last) t tr

omit [Endpoint σ] in
theorem effect_of_turn {c : Client} (hc : s.clients[n]? = some c) (u : Turn σ) :
    s.effect? (.move (.run (.client n))) (s.turn n u) = c.effect? u.1 := by
  have now : (s.turn n u).clients[n]? = some u.1 := getElem?_set_at hc u.1
  simp only [effect?, hc, now, Option.bind_some]

/-- The listener counts as started if the last call to take effect started it, but for the end of a call to stop. -/
def Settled (last : Bool) (s : System σ) : Prop :=
  (∀ (n : Nat) (c : Client), s.clients[n]? = some c → c.activity.isParting = false) → s.isListening = last

theorem Settled.step {last : Bool} (h : Settled last s) (hs : Sound s) (st : Step s e t) :
    Settled ((s.effect? e t).getD last) t := by
  intro nobody_parts
  -- when a client turns that was not parting, nobody was
  have of_turn {n : Nat} {c : Client} {u : Turn σ} (hc : s.clients[n]? = some c)
      (staying : c.activity.isParting = false)
      (now : ∀ (m : Nat) (d : Client), (s.turn n u).clients[m]? = some d → d.activity.isParting = false) :
      s.isListening = last := by
    apply h
    intro m d hd
    by_cases hm : m = n
    · subst hm
      cases hc.symm.trans hd
      exact staying
    · exact now m d ((List.getElem?_set_ne (Ne.symm hm)).trans hd)
  cases st.cause with
  | @ask n call c hc idle =>
    exact of_turn (u := (_, s.handle)) hc (by rw [Client.isIdle_iff.mp idle]; rfl) nobody_parts
  | listener on_duty =>
    have listening := h nobody_parts
    rw [isListening, on_duty] at listening
    exact listening
  | listenerLate on_duty =>
    have listening := h nobody_parts
    rw [isListening, on_duty] at listening
    exact listening
  | incident => exact h nobody_parts
  | clientLate hc late =>
    obtain ⟨_, _, doing, -, rfl⟩ := Handle.expire?_eq_some late
    exact of_turn hc (by rw [doing]; rfl) nobody_parts
  | @client n c d k hc goes =>
    rw [effect_of_turn hc]
    rcases Handle.effect_of_step? (hs.fits n c hc) goes with parting | effect | ⟨none_yet, same, staying⟩
    · rw [nobody_parts n d (getElem?_set_at hc d)] at parting
      cases parting
    · rw [effect]
      rfl
    · rw [none_yet]
      exact Eq.trans same (of_turn hc staying nobody_parts)

theorem Settled.follows {last : Bool} {tr : Trace σ} (h : Settled last s) (hs : Sound s) (hf : Follows s tr) :
    Settled (lastEffect last s tr) (final s tr) := by
  induction tr generalizing s last with
  | nil => exact h
  | cons x tr ih => exact ih (h.step hs hf.1) (hs.step hf.1.cause) hf.2

theorem config_of_step (h : Step s e t) : t.handle.config = s.handle.config := by
  have of_halt {who : Party} {st : Halt} {next : Option Halt} {h k : Handle σ}
      (goes : h.halt? who st = some (next, k)) : k.config = h.config := by
    cases st with
    | clear | join =>
      simp only [Handle.halt?] at goes
      split at goes <;> cases goes <;> rfl
    | wake | drain => cases goes; rfl
  cases h.cause with
  | ask | listener | listenerLate | incident => rfl
  | clientLate hc late =>
    obtain ⟨_, _, -, -, rfl⟩ := Handle.expire?_eq_some late
    rfl
  | client hc goes =>
    cases Handle.clientStep goes with
    | unlocks | leaves => dsimp only [turn]; split <;> rfl
    | halting _ halts | halted _ halts => exact of_halt halts
    | _ => rfl

theorem config_of_follows {tr : Trace σ} (h : Follows s tr) : (final s tr).handle.config = s.handle.config := by
  induction tr generalizing s with
  | nil => rfl
  | cons x tr ih => exact (ih h.2).trans (config_of_step h.1)

end

/-! ## Calls without effect -/

section
variable {σ : Type} [Endpoint σ] [Surroundings σ] {s : System σ} {c : Client} {n : Nat}

theorem start_again {refusal : Option SystemError} (hc : s.clients[n]? = some c)
    (doing : c.activity = .enter (.start refusal)) (listening : s.isListening = true) :
    Step s (.move (.run (.client n))) (s.turn n (c.finish (.crash (some Handle.startedTwice)), s.handle)) := by
  have running : s.handle.listener.isRunning = true := listening
  exact step_of_turn hc (by simp [Handle.step?, doing, Handle.enter, Handle.start, running])

theorem start_refused {e : SystemError} (hc : s.clients[n]? = some c) (doing : c.activity = .enter (.start (some e)))
    (named : Handle.canName s.handle.config.threadName = true) (stopped : s.isListening = false) :
    Step s (.move (.run (.client n))) (s.turn n (c.finish (.fault (.io e)), s.handle)) := by
  have idle : s.handle.listener.isRunning = false := stopped
  exact step_of_turn hc (by simp [Handle.step?, doing, Handle.enter, Handle.start, idle, named])

theorem stop_again (hc : s.clients[n]? = some c) (doing : c.activity = .enter .stop)
    (stopped : s.isListening = false) :
    Step s (.move (.run (.client n))) (s.turn n (c.finish .done, s.handle)) := by
  have idle : s.handle.listener.isRunning = false := stopped
  exact step_of_turn hc (by simp [Handle.step?, doing, Handle.enter, idle])

omit [Endpoint σ] [Surroundings σ] in
/-- Permits that are given while the listener is started are exclusive, whether its thread lives or not. -/
theorem Sound.exclusive_permits (hs : Sound s) (listening : s.isListening = true) (hc : s.clients[n]? = some c)
    {p : Permit} (held : p ∈ c.permits) : p.exclusive = true ∧ s.lock.reader = some (.client n) := by
  have exclusive : p.exclusive = true := ((hs.fits n c hc).permits p held).trans listening
  refine ⟨exclusive, hs.reader_of_client_holds hc ?_⟩
  have counted : 0 < c.permits.countP (·.exclusive) := List.countP_pos_iff.mpr ⟨p, held, exclusive⟩
  unfold Client.holds
  omega

end

end System

/-! ## Without a thread -/

def Listener.isAwake : Listener → Bool
  | .running _ (.working _) => true
  | _ => false

def Activity.isReading : Activity → Bool
  | .read .. | .enter (.read ..) => true
  | _ => false

def Event.isReading {σ : Type} [Surroundings σ] : Event σ → Bool
  | .move (.ask _ (.read ..)) => true
  | _ => false

theorem Handle.isReading_of_step? {σ : Type} [Endpoint σ] {n : Nat} {c d : Client} {h k : Handle σ}
    (hs : h.step? n c = some (d, k)) (unread : c.activity.isReading = false) : d.activity.isReading = false := by
  cases clientStep hs with
  | reads doing | reading doing => rw [doing] at unread; cases unread
  | @stolen errand => cases errand <;> rfl
  | @halted st closing => cases closing <;> rfl
  | _ => rfl

namespace System

section
variable {σ : Type} [Endpoint σ] [Surroundings σ] {s t : System σ} {e : Event σ} {n : Nat}

structure Dormant (s : System σ) : Prop where
  asleep : s.handle.listener.isAwake = false
  unread : ∀ (n : Nat) (c : Client), s.clients[n]? = some c → c.activity.isReading = false

omit [Endpoint σ] [Surroundings σ] in
theorem Dormant.stage? (h : Dormant s) (p : Party) : s.stage? p = none := by
  cases hp : s.stage? p with
  | none => rfl
  | some st =>
    cases p with
    | listener =>
      obtain ⟨wanted, on_duty⟩ := stage?_listener_iff.mp hp
      have asleep := h.asleep
      rw [on_duty] at asleep
      cases asleep
    | client n =>
      obtain ⟨c, _, _, hc, doing⟩ := stage?_client_iff.mp hp
      have unread := h.unread n c hc
      rw [doing] at unread
      cases unread

def launches (s : System σ) (e : Event σ) (t : System σ) : Bool := s.effect? e t == some true

theorem Dormant.step (h : Dormant s) (st : Step s e t) (unread : e.isReading = false)
    (no_start : launches s e t = false) : Dormant t := by
  have of_turn {m : Nat} {c : Client} (u : Turn σ) (hc : s.clients[m]? = some c)
      (asleep : u.2.listener.isAwake = false) (now : u.1.activity.isReading = false) : Dormant (s.turn m u) := by
    refine ⟨asleep, fun k d hd => ?_⟩
    rcases at_turn hc hd with ⟨-, rfl⟩ | ⟨-, hd⟩
    · exact now
    · exact h.unread k d hd
  have asleep := h.asleep
  cases st.cause with
  | @ask m call c hc =>
    refine of_turn ({ c with activity := .enter call, reply := none }, s.handle) hc asleep ?_
    cases call with
    | read => cases unread
    | _ => rfl
  | listener on_duty | listenerLate on_duty => rw [on_duty] at asleep; cases asleep
  | incident => exact ⟨asleep, h.unread⟩
  | clientLate hc late =>
    obtain ⟨_, _, -, rfl, rfl⟩ := Handle.expire?_eq_some late
    exact of_turn _ hc asleep rfl
  | @client m c d k hc goes =>
    refine of_turn (d, k) hc ?_ (Handle.isReading_of_step? goes (h.unread m c hc))
    cases Handle.step?_steering goes with
    | keep same => rw [same]; exact asleep
    | start doing before after =>
      exfalso
      unfold launches at no_start
      rw [effect_of_turn hc] at no_start
      cases Handle.clientStep goes with
      | starts =>
        rw [c.effect_of_finish, doing] at no_start
        cases no_start
      | answered => rw [before] at after; cases after
      | stops _ exclusive running => rw [before] at running; cases running
      | _ => simp_all
    | clear closing wanted w doing before after =>
      rw [before] at asleep
      rw [after]
      cases w with
      | working => cases asleep
      | _ => rfl
    | join _ _ _ _ _ _ after => rw [after]; rfl

theorem Sound.dormant_of_stop (hs : Sound s) (st : Step s e t) (stopped : s.effect? e t = some false) :
    Dormant t := by
  cases st.cause with
  | @client n c d k hc goes =>
    rw [effect_of_turn hc] at stopped
    have idle : d.activity = .idle := by
      cases hd : d.isIdle with
      | true => exact Client.isIdle_iff.mp hd
      | false => rw [Client.effect_of_busy hd] at stopped; cases stopped
    have steers : c.activity.steers? = some false := by
      unfold Client.effect? at stopped
      split at stopped
      · exact stopped
      · cases stopped
    have exclusive : c.activity.isExclusive = true := Activity.isExclusive_of_steers steers
    have off : k.listener.isRunning = false := by
      rcases Handle.effect_of_step? (hs.fits n c hc) goes with parting | effect | ⟨none_yet, -⟩
      · rw [idle] at parting; cases parting
      · exact Option.some.inj (effect.symm.trans stopped)
      · rw [none_yet] at stopped; cases stopped
    refine ⟨?_, fun m d' hd => ?_⟩
    · change k.listener.isAwake = false
      cases hk : k.listener with
      | stopped => rfl
      | running => rw [hk] at off; cases off
    · rcases at_turn hc hd with ⟨-, rfl⟩ | ⟨other, hd⟩
      · rw [idle]; rfl
      · rw [(Client.isAside_iff.mp ((hs.alone n c hc exclusive).2 m d' hd other)).1]; rfl
  | _ => cases stopped

end

/-! ## The queue -/

section
variable {s t : System Bench} {e : Event Bench} {n : Nat}

theorem Dormant.moved (h : Dormant s) (st : Step s e t) : Moved [] e.items s.endpoint t.endpoint := by
  cases st.motion with
  | @read p _ _ _ at_p => rw [h.stage? p] at at_p; cases at_p
  | late _ endpoint => rw [endpoint]; exact .refl _
  | propagate _ _ endpoint => rw [endpoint]; exact .refl _
  | aside _ gate => exact gate.endpoint.moved
  | incident i endpoint => rw [endpoint]; exact .befall i _

theorem Dormant.moved_along {tr : Trace Bench} (h : Dormant s) (hf : Follows s tr)
    (unread : ∀ x ∈ tr, x.1.isReading = false) (no_start : count launches s tr = 0) :
    Moved [] (produced tr) s.endpoint (final s tr).endpoint := by
  induction tr generalizing s with
  | nil => exact .refl _
  | cons x tr ih =>
    obtain ⟨e, t⟩ := x
    unfold count at no_start
    have none_now : launches s e t = false := by
      cases hl : launches s e t with
      | false => rfl
      | true => rw [hl, if_pos rfl] at no_start; omega
    have rest := ih (h.step hf.1 (unread (e, t) List.mem_cons_self) none_now) hf.2
      (fun x hx => unread x (List.mem_cons_of_mem _ hx)) (by omega)
    exact (h.moved hf.1).trans rest

/-- What the death of the listener's thread leaves: the listener counts as started, the read path is free, and the
queue has lost nothing but the report that claimed too much. -/
structure Dies (s t : System Bench) : Prop where
  listening : t.isListening = true
  clients : t.clients = s.clients
  reader : t.lock.reader = none
  queue : t.endpoint = s.endpoint ∨ ∃ r rest, s.endpoint.queue = .report r :: rest ∧ maxRead < r.claimed ∧
    t.endpoint = s.endpoint.advance (.report r) rest

theorem Step.dies {wanted : Bool} (st : Step s (.move (.run .listener)) t)
    (dead : t.handle.listener = .running wanted .crashed) : Dies s t := by
  cases st.cause with
  | @listener wanted d w g on_duty goes =>
    have crashed : w = .crashed := by cases dead; rfl
    cases Duty.dutyStep goes with
    | @reads st next g' step =>
      rcases next with _ | _ | _
      · cases crashed
      · cases crashed
      · refine ⟨rfl, rfl, rfl, ?_⟩
        cases step with
        | @overlong r b fetch claim =>
          obtain ⟨x, rest, queue, hx, rfl⟩ := Bench.fetch?_eq_some.mp fetch
          cases x <;> cases hx
          exact .inr ⟨r, rest, queue, claim, rfl⟩
        | crashed => exact .inl (Gate.hand_endpoint ..)
    | _ => cases crashed

/-! ## Starting anew -/

/-- The listener is started in the step from `s` to `t`, for the call of client `n`, which was `c`. The queue is as it
was. From then on the reports of the items that are taken, in order, are those handed over and the one in hand; and
the thread can by itself take all items up to the first that kills it. -/
structure Resumes (n : Nat) (c : Client) (s t : System Bench) : Prop where
  step : Step s (.move (.run (.client n))) t
  clients : t.clients = s.clients.set n (c.finish .done)
  listener : t.handle.listener = .running true (.working .check)
  endpoint : t.endpoint = s.endpoint
  in_order : ∀ tr, Follows t tr → (∀ x ∈ tr, x.1.isOrdinary = true) → ∃ T hs,
    Moved T (produced tr) t.endpoint (final t tr).endpoint ∧ (final t tr).handings = t.handings ++ hs ∧
      hs.map Handing.report ++ ((final t tr).inHand.map Prod.snd).toList = T.filterMap Item.report?
  delivers : ∃ u, Comes t u ∧ u.clients = t.clients ∧
    Moved (Bench.consumed t.handle.gate.verdictAfter t.endpoint.queue) [] t.endpoint u.endpoint ∧
    u.endpoint.queue = Bench.spared t.handle.gate.verdictAfter t.endpoint.queue ∧
    u.handings = t.handings ++ ((Bench.consumed t.handle.gate.verdictAfter t.endpoint.queue).filterMap Item.report?).map
      (⟨.listener, t.handle.gate.recipient, ·⟩) ∧
    u.handle.listener = .running true
      (if Bench.isFatal t.handle.gate.verdictAfter t.endpoint.queue then .crashed else .working .check)

theorem Carried.in_order {T A : List Item} {J : List Entry} (h : Carried T A J s t) (empty : s.inHand = none) :
    t.handings = s.handings ++ J.filterMap Entry.handing? ∧
      (J.filterMap Entry.handing?).map Handing.report ++ (t.inHand.map Prod.snd).toList = T.filterMap Item.report? := by
  refine ⟨?_, ?_⟩
  · rw [handings, h.journal, List.filterMap_append]
    rfl
  · have handed := congrArg (List.map Prod.snd) h.handed
    rw [empty, Option.toList_none, List.nil_append, h.received, List.map_append, List.map_map] at handed
    rw [handed]
    cases t.inHand <;> rfl

theorem Reachable.resumes (hs : Reachable s) {c : Client} (hc : s.clients[n]? = some c)
    (doing : c.activity = .enter (.start none)) (stopped : s.isListening = false)
    (named : Handle.canName s.handle.config.threadName = true) : ∃ t, Resumes n c s t := by
  have off : s.handle.listener.isRunning = false := stopped
  obtain ⟨t, st, clients, listener, endpoint⟩ : ∃ t, Step s (.move (.run (.client n))) t ∧
      t.clients = s.clients.set n (c.finish .done) ∧ t.handle.listener = .running true (.working .check) ∧
      t.endpoint = s.endpoint := by
    refine ⟨s.turn n (c.finish .done, (s.handle.start none (.client n)).2), ⟨rfl, ?_⟩, rfl, ?_, ?_⟩
    · simp [happen?, System.next, run?, hc, Handle.step?, doing, Handle.enter, Handle.start, off, named]
    · simp [turn, Handle.start, off, named]
    · simp [turn, System.endpoint, Handle.start, off, named, Handle.note, Handle.onGate]
  -- all clients are aside, so both locks are free
  have reachable := hs.step st
  obtain ⟨none_held, others⟩ := hs.sound.alone n c hc (by rw [doing]; rfl)
  have aside (m : Nat) (d : Client) (hd : t.clients[m]? = some d) : d.isAside = true := by
    rw [clients] at hd
    rcases at_turn (u := (c.finish .done, s.handle)) hc hd with ⟨-, rfl⟩ | ⟨other, hd⟩
    · exact Client.isAside_iff.mpr ⟨rfl, none_held⟩
    · exact others m d hd other
  have quiet : t.isQuiet = true := by
    apply List.all_eq_true.mpr
    intro d hd
    obtain ⟨m, hm⟩ := List.getElem?_of_mem hd
    exact aside m d hm
  have free : t.lock = .free := reachable.lock_of_isQuiet quiet (by rw [listener]; exact ⟨rfl, rfl⟩)
  refine ⟨t, st, clients, listener, endpoint, fun tr hf ordinary => ?_, ?_⟩
  · have serving : Serving t := by
      refine ⟨reachable.sound, by rw [isListening, listener]; rfl, fun m d hd => ?_⟩
      rw [(Client.isAside_iff.mp (aside m d hd)).1]
      rfl
    have empty : t.inHand = none := by
      apply inHand_of_none
      intro p
      cases p with
      | listener => rw [stage?, listener]; rfl
      | client m =>
        cases hd : t.clients[m]? with
        | none => simp [stage?, hd]
        | some d => simp [stage?, hd, (Client.isAside_iff.mp (aside m d hd)).1, Activity.stage?]
    obtain ⟨T, J, carried⟩ := serving.carried_along hf ordinary
    obtain ⟨handed, in_order⟩ := carried.in_order empty
    exact ⟨T, _, carried.moved, handed, in_order⟩
  · obtain ⟨w, k, goes, -, -, moved, queue, handings, ends⟩ := Goes.drain free
    obtain ⟨u, comes, same, now, gate, -⟩ := goes.comes listener rfl
    have endpoint : u.endpoint = k.endpoint := congrArg Gate.endpoint gate
    refine ⟨u, comes, same, ?_, ?_, ?_, by rw [now, ends]; rfl⟩
    · rw [endpoint]; exact moved
    · rw [endpoint]; exact queue
    · exact (congrArg Gate.handings gate).trans handings

/-! ## The whole -/

/-- Whatever a handle has been through, while nobody starts, stops or closes it the listener counts as started if and
only if the last such call to take effect was a start. A start while it counts as started crashes, one that the system
refuses a thread is a fault, and a stop while it does not count as started returns; nothing else changes. When the
thread dies the listener still counts as started and the queue keeps what was not read; permits are exclusive all the
while. A stop leaves nobody who reads, and until a start takes effect or somebody reads the queue only grows. A start
then finds it so, and its reports are delivered in order. -/
theorem life_cycle {b : Bench} {config : Config} {k : Nat} {tr : Trace Bench}
    (named : Handle.canName config.threadName = true) (h : Follows (start (.fresh b config) k) tr) :
    let s := start (.fresh b config) k
    let u := final s tr
    ((∀ c ∈ u.clients, c.activity.isExclusive = false) → u.isListening = lastEffect false s tr) ∧
      (∀ n c refusal, u.clients[n]? = some c → c.activity = .enter (.start refusal) → u.isListening = true →
        Step u (.move (.run (.client n))) (u.turn n (c.finish (.crash (some Handle.startedTwice)), u.handle))) ∧
      (∀ n c e, u.clients[n]? = some c → c.activity = .enter (.start (some e)) → u.isListening = false →
        Step u (.move (.run (.client n))) (u.turn n (c.finish (.fault (.io e)), u.handle))) ∧
      (∀ n c, u.clients[n]? = some c → c.activity = .enter .stop → u.isListening = false →
        Step u (.move (.run (.client n))) (u.turn n (c.finish .done, u.handle))) ∧
      (∀ t wanted, Step u (.move (.run .listener)) t → t.handle.listener = .running wanted .crashed → Dies u t) ∧
      (u.isListening = true → ∀ n c p, u.clients[n]? = some c → p ∈ c.permits →
        p.exclusive = true ∧ u.lock.reader = some (.client n)) ∧
      (∀ e t, Step u e t → u.effect? e t = some false → Dormant t) ∧
      (Dormant u → ∀ tr', Follows u tr' → (∀ x ∈ tr', x.1.isReading = false) → count launches u tr' = 0 →
        Moved [] (produced tr') u.endpoint (final u tr').endpoint) ∧
      ∀ n c, u.clients[n]? = some c → c.activity = .enter (.start none) → u.isListening = false →
        ∃ t, Resumes n c u t := by
  intro s u
  have fresh : Reachable s := .start b config k
  have reachable : Reachable u := fresh.follows h
  have named_now : Handle.canName u.handle.config.threadName = true := by
    have settings : u.handle.config = config := config_of_follows h
    rw [settings]
    exact named
  refine ⟨fun shared => ?_, fun n c refusal hc doing => start_again hc doing,
    fun n c e hc doing => start_refused hc doing named_now, fun n c hc doing => stop_again hc doing,
    fun t wanted st => st.dies, fun listening n c p hc => reachable.sound.exclusive_permits listening hc,
    fun e t st => reachable.sound.dormant_of_stop st, fun dormant tr' hf => dormant.moved_along hf,
    fun n c hc doing stopped => reachable.resumes hc doing stopped named_now⟩
  have settled : Settled false s := fun _ => rfl
  refine settled.follows fresh.sound h fun n c hc => ?_
  have shared := shared c (List.mem_of_getElem? hc)
  cases ha : c.activity with
  | halt | release => rw [ha] at shared; cases shared
  | _ => rfl

/-- The listener dies of a report that is too long. A second start crashes; after a stop another report comes, and
with the next start the report behind the long one is handed over before it. -/
theorem life_cycle_past_death :
    let s := start (.fresh Bench.fresh .standard) 1
    let tr := play s [.move (.ask 0 (.register (some (.observer fun _ => .accept)))), .move (.run (.client 0)),
      .move (.ask 0 .start), .move (.run (.client 0)),
      .incident (Bench.Incident.arrive [.report ⟨[9], 5000⟩, .report (.whole [1, 2])]), .move (.run .listener),
      .move (.run .listener), .move (.run .listener), .move (.run .listener), .move (.ask 0 .start),
      .move (.run (.client 0)), .move (.ask 0 .stop), .move (.run (.client 0)), .move (.run (.client 0)),
      .move (.run (.client 0)), .move (.run (.client 0)), .move (.run (.client 0)),
      .incident (Bench.Incident.arrive [.report (.whole [3])]), .move (.ask 0 .start)]
    let u := final s tr
    tr.length = 19 ∧ lastEffect false s tr = false ∧
      u.endpoint.queue = [.report (.whole [1, 2]), .report (.whole [3])] ∧
      ∃ t v, Step u (.move (.run (.client 0))) t ∧ Comes t v ∧ v.endpoint.queue = [] ∧
        v.handings = [⟨.listener, .observer 0, [1, 2]⟩, ⟨.listener, .observer 0, [3]⟩] := by
  intro s tr u
  obtain ⟨-, -, -, -, -, -, -, -, starts⟩ := life_cycle (by decide +kernel) (follows_play s _ : Follows s tr)
  obtain ⟨c, hc⟩ : ∃ c, u.clients[0]? = some c := Option.isSome_iff_exists.mp (by decide +kernel)
  have starting : u.clients[0]?.bind (·.activity.starting?) = some none := by decide +kernel
  rw [hc] at starting
  obtain ⟨t, resumes⟩ := starts 0 c hc (Activity.eq_of_starting starting) (by decide +kernel)
  obtain ⟨v, comes, -, -, queue, handings, -⟩ := resumes.delivers
  have started : Step u (.move (.run (.client 0))) (after u [.move (.run (.client 0))]) :=
    step_after (by decide +kernel)
  have same : t = after u [.move (.run (.client 0))] := Option.some.inj (resumes.step.2.symm.trans started.2)
  subst same
  refine ⟨by decide +kernel, by decide +kernel, by decide +kernel, _, v, started, comes, ?_, ?_⟩
  · rw [queue]; decide +kernel
  · rw [handings]; decide +kernel

end

end System

end HidGate
