import HidGate.Proofs.Service

/-!
# A call that asks for the read path is granted

A client that asks for a permit, for features or for output gets what it asks for if nobody else has the handle in
use. What it will be told can be said from the beginning. It waits for the listener at most, and a listener that
has a lock is a few steps from giving it back. So each step of either brings the call nearer to its end.
-/

namespace HidGate

def Activity.stepsLeft : Activity → Nat
  | .enter _ => 8
  | .steal .grab _ => 7
  | .steal .announce _ => 6
  | .steal .take _ => 5
  | .steal .clear _ => 4
  | .steal .ungrab _ => 3
  | .exchange .. => 2
  | .leave .. => 1
  | _ => 0

theorem Steal.stepsLeft_lt (errand : Errand) {p : Party} {st st' : Steal} {l l' : SoftLock}
    (h : st.step? p l = some (l', some st')) :
    (Activity.steal st' errand).stepsLeft < (Activity.steal st errand).stepsLeft := by
  cases st with
  | grab | take =>
    simp only [Steal.step?, Option.map_eq_some_iff] at h
    obtain ⟨_, -, h⟩ := h
    cases h
    exact Nat.lt_succ_self _
  | announce | clear => cases h; exact Nat.lt_succ_self _
  | ungrab => cases h

def Activity.mayWait : Activity → Bool
  | .enter (.write _) => false
  | .enter _ | .steal .. => true
  | _ => false

section
variable {σ : Type} [Endpoint σ]

/-- The reply that the client has or will have, and the permits that it will then hold, with the listener started
or not and the endpoint as it is. -/
def Client.outlook? (c : Client) (listening : Bool) (b : σ) : Option (Reply × List Permit) :=
  match c.activity with
  | .idle => c.reply.map (·, c.permits)
  | .leave _ reply => some (reply, c.permits)
  | .exchange r _ | .steal _ (.request r) => some ((r.perform (.client 0) (.fresh b)).1, c.permits)
  | .steal _ .permit => some (⟨.done, []⟩, ⟨Handle.number, true⟩ :: c.permits)
  | .enter .lockEvents => some (⟨.done, []⟩, ⟨Handle.number, listening⟩ :: c.permits)
  | .enter (.request kind r) => some (((Call.request kind r).serve b).1, c.permits)
  | .enter (.write report) => some (((Call.write report).serve b).1, c.permits)
  | _ => none

theorem Client.outlook_of_kept (c : Client) (kept : c.activity.isExchange = false) (listening : Bool) (b b' : σ) :
    c.outlook? listening b = c.outlook? listening b' := by
  unfold outlook?
  cases doing : c.activity with
  | enter call =>
    rw [doing] at kept
    cases call with
    | request | write => cases kept
    | _ => rfl
  | steal st errand =>
    rw [doing] at kept
    cases errand with
    | permit => rfl
    | request => cases kept
  | exchange => rw [doing] at kept; cases kept
  | _ => rfl

/-- With a lock in hand a listener is on the way back to its check. -/
theorem DutyStep.stepsLeft_lt {wanted : Bool} {d : Duty} {g k : Gate σ} {w : Worker} (h : DutyStep wanted g d w k)
    (busy : 0 < (Worker.working d).holds + (Worker.working d).grabs) :
    w.stepsLeft < (Worker.working d).stepsLeft := by
  cases h with
  | goesOn | exits => cases busy
  | reads step => cases step <;> simp [Duty.ofRead, Worker.stepsLeft]
  | _ => simp [Worker.stepsLeft]

end

section
variable {σ : Type} [Endpoint σ] [Surroundings σ] [Separate σ]

open Separate

theorem Request.perform_fresh (who : Party) (r : Request) (g : Gate σ) :
    (r.perform who g).1 = (r.perform (.client 0) (.fresh g.endpoint)).1 :=
  (r.perform_output who (.client 0) (show output g.endpoint = output (Gate.fresh g.endpoint).endpoint from rfl)).1

theorem Client.outlook_output (c : Client) (listening : Bool) {b b' : σ} (same : output b = output b') :
    c.outlook? listening b = c.outlook? listening b' := by
  have performs (r : Request) : (r.perform (.client 0) (.fresh b)).1 = (r.perform (.client 0) (.fresh b')).1 :=
    (r.perform_output (.client 0) (.client 0) same).1
  unfold outlook?
  cases c.activity with
  | enter call =>
    cases call with
    | request kind r => simp only [((Call.request kind r).serve_output same).1]
    | write report => simp only [((Call.write report).serve_output same).1]
    | _ => rfl
  | steal st errand =>
    cases errand with
    | permit => rfl
    | request r => simp only [performs]
  | exchange r exclusive => simp only [performs]
  | _ => rfl

/-- What a step of such a call leads to: the same outlook, and less to do. -/
structure Handle.Nears (h : Handle σ) (c : Client) (k : Handle σ) (d : Client) : Prop where
  outlook : d.outlook? k.listener.isRunning k.gate.endpoint = c.outlook? h.listener.isRunning h.gate.endpoint
  listener : k.listener = h.listener
  released : k.released = h.released
  less : d.activity.stepsLeft < c.activity.stepsLeft
  unheld : d.activity.mayWait = true → c.activity.mayWait = true ∧ d.permits = c.permits

namespace Handle

variable {n : Nat} {c d : Client} {h k : Handle σ}

theorem nears_of_enter {call : Call} (doing : c.activity = .enter call)
    (promised : c.outlook? h.listener.isRunning h.gate.endpoint ≠ none) (goes : h.enter n c call = (d, k)) :
    h.Nears c k d := by
  cases call with
  | lockEvents =>
    simp only [Handle.enter] at goes
    split at goes
    · rename_i running
      cases goes
      refine ⟨?_, rfl, rfl, ?_, fun _ => ⟨?_, rfl⟩⟩ <;> simp [Client.outlook?, doing, running, Activity.stepsLeft,
        Activity.mayWait]
    · rename_i stopped
      cases goes
      refine ⟨?_, rfl, rfl, ?_, fun held => absurd held Bool.false_ne_true⟩
      · simp [Client.outlook?, doing, Bool.eq_false_iff.mpr stopped, Client.grant, Client.finish, Client.answer]
      · rw [doing]; exact Nat.succ_pos _
  | request kind r =>
    simp only [Handle.enter] at goes
    split at goes
    · rename_i f refused
      cases goes
      refine ⟨?_, rfl, rfl, ?_, fun held => absurd held Bool.false_ne_true⟩
      · simp [Client.outlook?, doing, Client.answer, Call.serve, refused]
      · rw [doing]; exact Nat.succ_pos _
    · rename_i fine
      split at goes <;> cases goes <;> refine ⟨?_, rfl, rfl, ?_, fun _ => ⟨?_, rfl⟩⟩ <;>
        simp [Client.outlook?, doing, Call.serve, fine, Activity.stepsLeft, Activity.mayWait]
  | write report =>
    simp only [Handle.enter] at goes
    split at goes
    · rename_i f refused
      cases goes
      refine ⟨?_, rfl, rfl, ?_, fun held => absurd held Bool.false_ne_true⟩
      · simp [Client.outlook?, doing, Client.finish, Client.answer, Call.serve, refused]
      · rw [doing]; exact Nat.succ_pos _
    · rename_i fine
      cases goes
      have written := (Gate.writeReport_output (.client n) (.client 0) report
        (show output h.gate.endpoint = output (Gate.fresh h.gate.endpoint).endpoint from rfl)).1
      refine ⟨?_, rfl, rfl, ?_, fun held => absurd held Bool.false_ne_true⟩
      · simp [Client.outlook?, doing, Client.finish, Client.answer, Call.serve, fine, written]
      · rw [doing]; exact Nat.succ_pos _
  | _ => exact absurd (by simp [Client.outlook?, doing]) promised

theorem nears (promised : c.outlook? h.listener.isRunning h.gate.endpoint ≠ none)
    (hs : h.step? n c = some (d, k)) : h.Nears c k d := by
  cases doing : c.activity with
  | idle => simp [step?, doing] at hs
  | enter call =>
    simp only [step?, doing, Option.some.injEq] at hs
    exact nears_of_enter doing promised hs
  | steal st errand =>
    simp only [step?, doing, Option.map_eq_some_iff] at hs
    obtain ⟨⟨l, next⟩, step, hs⟩ := hs
    cases next with
    | some st' =>
      cases hs
      refine ⟨?_, rfl, rfl, ?_, fun _ => ⟨by rw [doing]; rfl, rfl⟩⟩
      · cases errand <;> simp [Client.outlook?, doing, withLock]
      · rw [doing]
        exact Steal.stepsLeft_lt errand step
    | none =>
      cases hs
      cases errand with
      | permit =>
        refine ⟨?_, rfl, rfl, ?_, fun held => absurd held Bool.false_ne_true⟩
        · simp [Client.outlook?, doing, stolen, Client.grant, Client.finish, Client.answer]
        · rw [doing]; cases st <;> exact Nat.succ_pos _
      | request r =>
        refine ⟨?_, rfl, rfl, ?_, fun held => absurd held Bool.false_ne_true⟩
        · simp [Client.outlook?, doing, stolen, withLock]
        · rw [doing]; cases st <;> simp [stolen, Activity.stepsLeft]
  | exchange r exclusive =>
    simp only [step?, doing, Option.some.injEq] at hs
    cases hs
    refine ⟨?_, rfl, rfl, ?_, fun held => absurd held Bool.false_ne_true⟩
    · simp [Client.outlook?, doing, r.perform_fresh (.client n)]
    · rw [doing]; exact Nat.lt_succ_self 1
  | leave exclusive reply =>
    simp only [step?, doing, Option.some.injEq] at hs
    cases hs
    refine ⟨?_, ?_, ?_, ?_, fun held => absurd held Bool.false_ne_true⟩
    · simp [Client.outlook?, doing, Client.answer]
    · split <;> rfl
    · split <;> rfl
    · rw [doing]; exact Nat.succ_pos _
  | _ => exact absurd (by simp [Client.outlook?, doing]) promised

end Handle

end

namespace System

/-! ## Runs without calls -/

section
variable {σ : Type} [Endpoint σ] [Surroundings σ] {s t u : System σ} {e : Event σ}

/-- The system can come from `s` to `t` while nobody makes a call and nothing befalls the endpoint. -/
def Comes (s t : System σ) : Prop := ∃ tr, Follows s tr ∧ operations tr = [] ∧ final s tr = t

theorem Comes.refl (s : System σ) : Comes s s := ⟨[], trivial, rfl, rfl⟩

theorem Comes.step (h : Step s e t) (silent : e.isOperation = false) : Comes s t :=
  ⟨[(e, t)], ⟨h, trivial⟩, by simp [operations, silent], rfl⟩

theorem Comes.trans (h : Comes s t) (h' : Comes t u) : Comes s u := by
  obtain ⟨tr, follows, silent, rfl⟩ := h
  obtain ⟨tr', follows', silent', rfl⟩ := h'
  exact ⟨tr ++ tr', follows_append.mpr ⟨follows, follows'⟩, by rw [operations_append, silent, silent']; rfl,
    final_append ..⟩

end

/-! ## Nobody else in a call -/

section
variable {σ : Type} {s : System σ} {n : Nat} {c : Client}

theorem counts_of_isAside (aside : ∀ d, s.clients[n]? = some d → d.isAside = true) :
    s.holds (.client n) = 0 ∧ s.grabs (.client n) = 0 := by
  cases hd : s.clients[n]? with
  | none => simp [holds, grabs, hd]
  | some d =>
    obtain ⟨idle, none_held⟩ := Client.isAside_iff.mp (aside d hd)
    rw [(holds_of_at hd).1, (holds_of_at hd).2, Client.holds, idle, none_held]
    exact ⟨rfl, rfl⟩

structure Solo (n : Nat) (s : System σ) (c : Client) : Prop where
  at_n : s.clients[n]? = some c
  others : ∀ (m : Nat) (d : Client), s.clients[m]? = some d → m ≠ n → d.isAside = true

theorem Solo.turn (h : Solo n s c) (u : Turn σ) : Solo n (s.turn n u) u.1 := by
  refine ⟨getElem?_set_at h.at_n u.1, fun m d hd other => ?_⟩
  rcases at_turn h.at_n hd with ⟨rfl, -⟩ | ⟨-, hd⟩
  · exact absurd rfl other
  · exact h.others m d hd other

theorem Solo.set (h : Solo n s c) : s.clients.set n c = s.clients := by
  obtain ⟨_, here⟩ := List.getElem?_eq_some_iff.mp h.at_n
  rw [← here, List.set_getElem_self]

theorem Solo.reader_eq_none (h : Solo n s c) (hs : Sound s) (listener : s.handle.listener.holds = 0)
    (client : c.holds = 0) : s.lock.reader = none := by
  apply hs.reader_eq_none
  intro p
  cases p with
  | listener => exact listener
  | client m =>
    by_cases hm : m = n
    · rw [hm, (holds_of_at h.at_n).1]; exact client
    · exact (counts_of_isAside fun d hd => h.others m d hd hm).1

theorem Solo.grabber_eq_none (h : Solo n s c) (hs : Sound s) (listener : s.handle.listener.grabs = 0)
    (client : c.activity.grabs = 0) : s.lock.grabber = none := by
  apply hs.grabber_eq_none
  intro p
  cases p with
  | listener => exact listener
  | client m =>
    by_cases hm : m = n
    · rw [hm, (holds_of_at h.at_n).2]; exact client
    · exact (counts_of_isAside fun d hd => h.others m d hd hm).2

end

variable {σ : Type} [Endpoint σ] [Surroundings σ] [Separate σ] {s t : System σ} {e : Event σ} {n : Nat} {c : Client}
  {x : Reply × List Permit}

/-! ## Waiting for the listener -/

theorem Reachable.listener_goes_on (hs : Reachable s)
    (busy : 0 < s.handle.listener.holds + s.handle.listener.grabs) :
    ∃ e t, Step s e t ∧ e.isOperation = false ∧ t.clients = s.clients ∧
      left Worker.stepsLeft t < left Worker.stepsLeft s := by
  generalize on_duty : s.handle.listener = l at busy
  cases l with
  | stopped => cases busy
  | running wanted w =>
    cases w with
    | finished | crashed => cases busy
    | working d =>
      have nearer {w : Worker} {g : Gate σ} (less : w.stepsLeft < (Worker.working d).stepsLeft) :
          left Worker.stepsLeft (s.work wanted (w, g)) < left Worker.stepsLeft s := by
        rw [left_of_running on_duty, left_of_running (s := s.work wanted (w, g)) rfl]
        exact less
      have of_duty {w : Worker} {g : Gate σ} (goes : DutyStep wanted s.handle.gate d w g) :
          ∃ e t, Step s e t ∧ e.isOperation = false ∧ t.clients = s.clients ∧
            left Worker.stepsLeft t < left Worker.stepsLeft s :=
        ⟨_, _, step_of_duty on_duty goes, rfl, rfl, nearer (goes.stepsLeft_lt busy)⟩
      cases d with
      | read st =>
        have listening : s.isListening = true := by rw [isListening, on_duty]; rfl
        rcases hs.read_goes_on listening (stage?_listener_iff.mpr ⟨wanted, on_duty⟩) with ⟨t, step⟩ | ⟨t, late⟩
        · cases step.cause with
          | listener on_duty' goes =>
            cases on_duty.symm.trans on_duty'
            exact of_duty (Duty.dutyStep goes)
        · cases late.cause with
          | listenerLate on_duty' waited =>
            cases on_duty.symm.trans on_duty'
            obtain ⟨polls, rfl, rfl⟩ := Duty.expire?_eq_some waited
            cases polls
            exact ⟨_, _, late, rfl, rfl, nearer (by decide)⟩
      | leave result =>
        cases result with
        | ok n => exact of_duty .drained
        | error f =>
          cases transient : f.isTransient with
          | true => exact of_duty (.bears transient)
          | false => exact of_duty (.fails transient)
      | pass => exact of_duty .passes
      | _ => cases busy

/-! ## To the end of the call -/

/-- Client `n` is `c`, alone in its call, and it is to have the reply and the permits of `x` in the end. It holds no
permit while it may have to wait. -/
structure Awaits (n : Nat) (s : System σ) (c : Client) (x : Reply × List Permit) : Prop where
  solo : Solo n s c
  outlook : c.outlook? s.isListening s.endpoint = some x
  unheld : c.activity.mayWait = true → c.permits = []

/-- In `t` client `n` has come to the end of its call, and nothing else is changed but for the listener's doings. -/
structure Concluded (n : Nat) (s t : System σ) (d : Client) (x : Reply × List Permit) : Prop where
  clients : t.clients = s.clients.set n d
  idle : d.activity = .idle
  reply : d.reply = some x.1
  permits : d.permits = x.2
  listening : t.isListening = s.isListening
  released : t.handle.released = s.handle.released

namespace Awaits

/-- Until the client makes another call its outlook stays the same, whatever the listener does and whatever arrives. -/
theorem step (h : Awaits n s c x) (st : Step s e t) (nobody_asks : ∀ m call, e ≠ .move (.ask m call))
    (settled : e.isSetting = true → c.activity.isExchange = false) :
    ∃ d, Awaits n t d x ∧ t.clients = s.clients.set n d ∧ t.isListening = s.isListening ∧
      t.handle.released = s.handle.released ∧ (c.activity.isExchange = false → d.activity.isExchange = false) := by
  obtain ⟨solo, outlook, unheld⟩ := h
  have unchanged : s.clients = s.clients.set n c := solo.set.symm
  have only_n {m : Nat} {d : Client} (hd : s.clients[m]? = some d) (busy : d.activity ≠ .idle) : m = n ∧ d = c := by
    by_cases other : m = n
    · subst other
      cases hd.symm.trans solo.at_n
      exact ⟨rfl, rfl⟩
    · exact absurd (Client.isAside_iff.mp (solo.others m d hd other)).1 busy
  cases st.cause with
  | @ask m call => exact absurd rfl (nobody_asks m call)
  | @listener wanted d w g on_duty goes =>
    have running : s.isListening = true := by rw [isListening, on_duty]; rfl
    refine ⟨c, ⟨⟨solo.at_n, solo.others⟩, ?_, unheld⟩, unchanged, running.symm, rfl, fun kept => kept⟩
    rw [← outlook, running]
    exact c.outlook_output true (Duty.output_eq goes)
  | @listenerLate wanted d w g on_duty late =>
    obtain ⟨rfl, rfl, rfl⟩ := Duty.expire?_eq_some late
    have running : s.isListening = true := by rw [isListening, on_duty]; rfl
    refine ⟨c, ⟨⟨solo.at_n, solo.others⟩, ?_, unheld⟩, unchanged, running.symm, rfl, fun kept => kept⟩
    rw [← outlook, running]
    rfl
  | @client m client d k hc goes =>
    obtain ⟨rfl, rfl⟩ := only_n hc fun idle => by simp [Handle.step?, idle] at goes
    have promised : client.outlook? s.isListening s.endpoint ≠ none := by simp [outlook]
    have nears := Handle.nears promised goes
    refine ⟨d, ⟨solo.turn (d, k), ?_, fun waits => ?_⟩, rfl, ?_, nears.released, fun kept => ?_⟩
    · exact nears.outlook.trans outlook
    · obtain ⟨waited, same⟩ := nears.unheld waits
      exact same.trans (unheld waited)
    · exact congrArg Listener.isRunning nears.listener
    · exact (Handle.output_of_step? goes kept).2
  | @clientLate m client d k hc late =>
    obtain ⟨_, _, doing, -, -⟩ := Handle.expire?_eq_some late
    obtain ⟨rfl, rfl⟩ := only_n hc (by rw [doing]; simp)
    simp [Client.outlook?, doing] at outlook
  | incident i =>
    refine ⟨c, ⟨⟨solo.at_n, solo.others⟩, ?_, unheld⟩, unchanged, rfl, rfl, fun kept => kept⟩
    rw [← outlook]
    cases setting : Separate.isSetting i with
    | false => exact c.outlook_output _ (Separate.output_of_arrival _ setting)
    | true => exact c.outlook_of_kept (settled setting) ..

theorem follows {tr : Trace σ} (h : Awaits n s c x) (hf : Follows s tr)
    (nobody_asks : ∀ y ∈ tr, ∀ m call, y.1 ≠ .move (.ask m call))
    (settled : ∀ y ∈ tr, y.1.isSetting = true → c.activity.isExchange = false) :
    ∃ d, Awaits n (final s tr) d x ∧ (final s tr).clients = s.clients.set n d ∧
      (final s tr).isListening = s.isListening ∧ (final s tr).handle.released = s.handle.released := by
  induction tr generalizing s c with
  | nil => exact ⟨c, h, h.solo.set.symm, rfl, rfl⟩
  | cons y tr ih =>
    obtain ⟨e, t⟩ := y
    obtain ⟨d, first, clients, listening, released, kept⟩ := h.step hf.1 (nobody_asks (e, t) List.mem_cons_self)
      (settled (e, t) List.mem_cons_self)
    obtain ⟨d', rest, clients', listening', released'⟩ := ih first hf.2
      (fun y hy => nobody_asks y (List.mem_cons_of_mem _ hy))
      fun y hy setting => kept (settled y (List.mem_cons_of_mem _ hy) setting)
    refine ⟨d', rest, ?_, listening'.trans listening, released'.trans released⟩
    rw [final, clients', clients, List.set_set]

omit [Separate σ] in
theorem goes_on (h : Awaits n s c x) (hs : Reachable s) (busy : c.activity ≠ .idle) :
    (∃ d k, s.handle.step? n c = some (d, k)) ∨ 0 < s.handle.listener.holds + s.handle.listener.grabs := by
  obtain ⟨solo, outlook, unheld⟩ := h
  cases doing : c.activity with
  | idle => exact absurd doing busy
  | enter call => exact .inl ⟨_, _, by simp only [Handle.step?, doing]; rfl⟩
  | exchange r exclusive => exact .inl ⟨_, _, by simp only [Handle.step?, doing]; rfl⟩
  | leave exclusive reply => exact .inl ⟨_, _, by simp only [Handle.step?, doing]; rfl⟩
  | steal st errand =>
    have none_held : c.permits = [] := unheld (by rw [doing]; rfl)
    cases st with
    | grab =>
      by_cases passing : s.handle.listener.grabs = 0
      · have free : s.handle.gate.lock.grabber = none :=
          solo.grabber_eq_none hs.sound passing (by rw [doing]; rfl)
        left
        simp [Handle.step?, doing, Steal.step?, SoftLock.grab?, free]
      · right; omega
    | take =>
      by_cases reading : s.handle.listener.holds = 0
      · have free : s.handle.gate.lock.reader = none :=
          solo.reader_eq_none hs.sound reading (by rw [Client.holds_of_activity doing, none_held]; rfl)
        left
        simp [Handle.step?, doing, Steal.step?, SoftLock.acquire?, free]
      · right; omega
    | announce | clear | ungrab => exact .inl ⟨_, _, by simp only [Handle.step?, doing]; rfl⟩
  | _ => simp [Client.outlook?, doing] at outlook

theorem concludes (h : Awaits n s c x) (hs : Reachable s) : ∃ t d, Comes s t ∧ Concluded n s t d x := by
  -- on the steps that the client and the listener have left
  generalize measure : c.activity.stepsLeft + left Worker.stepsLeft s = k
  induction k using Nat.strongRecOn generalizing s c with
  | ind k ih =>
    have of_step {e : Event σ} {t : System σ} {d : Client} (st : Step s e t) (silent : e.isOperation = false)
        (clients : t.clients = s.clients.set n d)
        (less : d.activity.stepsLeft + left Worker.stepsLeft t < k) : ∃ t d, Comes s t ∧ Concluded n s t d x := by
      have nobody_asks (m : Nat) (call : Call) : e ≠ .move (.ask m call) := by rintro rfl; cases silent
      have settled (setting : e.isSetting = true) : c.activity.isExchange = false := by
        cases e with
        | move => cases setting
        | incident => cases silent
      obtain ⟨d', now, -, listening, released, -⟩ := h.step st nobody_asks settled
      have same : d' = d := by
        have here := getElem?_set_at h.solo.at_n d
        rw [← clients, now.solo.at_n] at here
        exact Option.some.inj here
      subst same
      obtain ⟨u, e, comes, done⟩ := ih _ less now (hs.step st) rfl
      refine ⟨u, e, (Comes.step st silent).trans comes, ?_, done.idle, done.reply, done.permits,
        done.listening.trans listening, done.released.trans released⟩
      rw [done.clients, clients, List.set_set]
    by_cases idle : c.activity = .idle
    · have outlook := h.outlook
      simp only [Client.outlook?, idle, Option.map_eq_some_iff] at outlook
      obtain ⟨reply, said, rfl⟩ := outlook
      exact ⟨s, c, .refl s, h.solo.set.symm, idle, said, rfl, rfl, rfl⟩
    · rcases h.goes_on hs idle with ⟨d, k', goes⟩ | busy
      · have promised : c.outlook? s.isListening s.endpoint ≠ none := by simp [h.outlook]
        have nears := Handle.nears promised goes
        have st : Step s (.move (.run (.client n))) (s.turn n (d, k')) := step_of_turn h.solo.at_n goes
        have same : left Worker.stepsLeft (s.turn n (d, k')) = left Worker.stepsLeft s := by
          rw [left, left, turn, nears.listener]
        have less : d.activity.stepsLeft < c.activity.stepsLeft := nears.less
        exact of_step (d := d) st rfl rfl (by omega)
      · obtain ⟨e, t, st, silent, clients, less⟩ := hs.listener_goes_on busy
        refine of_step st silent (clients.trans h.solo.set.symm) ?_
        omega

end Awaits

/-! ## The only client -/

/-- A request that was made without a permit can come to its end, and so can a write. -/
theorem Reachable.ends (hs : Reachable s) (lone : Lone s c) (serving : c.activity.isExchange = true)
    (unheld : c.activity.mayWait = true → c.permits = []) :
    ∃ t d, Comes s t ∧ t.clients = [d] ∧ d.activity = .idle ∧ d.permits = c.permits ∧
      t.isListening = s.isListening ∧ t.handle.released = s.handle.released := by
  have solo : Solo 0 s c := by
    refine ⟨lone.at_zero, fun m d hd other => ?_⟩
    rw [lone.clients, List.getElem?_singleton, if_neg other] at hd
    cases hd
  obtain ⟨reply, outlook⟩ : ∃ reply, c.outlook? s.isListening s.endpoint = some (reply, c.permits) := by
    unfold Client.outlook?
    cases doing : c.activity with
    | enter call =>
      rw [doing] at serving
      cases call with
      | request | write => exact ⟨_, rfl⟩
      | _ => cases serving
    | steal st errand =>
      rw [doing] at serving
      cases errand with
      | permit => cases serving
      | request => exact ⟨_, rfl⟩
    | exchange | leave => exact ⟨_, rfl⟩
    | _ => rw [doing] at serving; cases serving
  obtain ⟨t, d, comes, done⟩ := Awaits.concludes ⟨solo, outlook, unheld⟩ hs
  refine ⟨t, d, comes, ?_, done.idle, done.permits, done.listening, done.released⟩
  rw [done.clients, lone.clients]
  rfl

end System

end HidGate
