import HidGate.Proofs.Ready

/-!
# No deadlock

Clients that give their permit back before they ask for the device again cannot lock one another out, nor can
the listener. Whoever has the read path needs the right to announce no more: it goes on until it gives the read
path back. Whoever may announce waits for the read path at most. So behind each party that waits stands one that
can step.
-/

namespace HidGate

/-! ## Courtesy -/

/-- A client that holds a permit or not may make these calls one after the other while the listener is started.
It reads under the permit that it holds, gives it back before it asks for the device again, and holds none in
the end. -/
def Courteous : Bool → List Call → Prop
  | held, [] => held = false
  | held, .lockEvents :: cs => held = false ∧ Courteous true cs
  | held, .request _ _ :: cs => held = false ∧ Courteous false cs
  | _, .unlock :: cs => Courteous false cs
  | held, .read permit _ _ :: cs =>
    (permit.guards Handle.number = true → held = true ∧ permit = ⟨Handle.number, true⟩) ∧ Courteous held cs
  | held, .write _ :: cs | held, .propagate _ :: cs | held, .register _ :: cs => Courteous held cs
  | _, .start _ :: _ | _, .stop :: _ | _, .close :: _ => False

theorem Courteous.shared {held : Bool} {c : Call} {cs : List Call} (h : Courteous held (c :: cs)) :
    c.isExclusive = false := by
  cases c with
  | start | stop | close => exact h.elim
  | _ => rfl

def Activity.pending : Activity → List Call
  | .enter c => [c]
  | .steal _ .permit => [.lockEvents]
  | .steal _ (.request r) => [.request .feature r]
  | _ => []

structure Client.Mannered (c : Client) (rest : List Call) : Prop where
  shared : c.activity.isExclusive = false
  permits : c.permits = [] ∨ c.permits = [⟨Handle.number, true⟩]
  calls : Courteous (!c.permits.isEmpty) (c.activity.pending ++ rest)

namespace Handle

variable {σ : Type} [Endpoint σ] {n : Nat} {client client' : Client} {h h' : Handle σ}

theorem courteous_of_answered {c : Call} {reply : Reply} {rest : List Call} (running : h.listener.isRunning = true)
    (enter : h.enter n client c = (client.answer reply, h))
    (calls : Courteous (!client.permits.isEmpty) (c :: rest)) : Courteous (!client.permits.isEmpty) rest := by
  cases c with
  | lockEvents =>
    simp only [Handle.enter, running, if_true, Prod.mk.injEq] at enter
    cases congrArg Client.activity enter.1
  | unlock =>
    simp only [Handle.enter] at enter
    cases hp : client.permits with
    | nil => exact calls
    | cons p ps =>
      rw [hp] at enter
      have := congrArg Client.permits (congrArg Prod.fst enter)
      rw [Client.finish_permits, Client.answer_permits, hp] at this
      exact absurd this.symm (List.cons_ne_self p ps)
  | request => obtain ⟨held, calls⟩ := calls; rwa [held]
  | read => exact calls.2
  | write | propagate | register => exact calls
  | start | stop | close => exact calls.elim

theorem call_of_steals {c : Call} {errand : Errand}
    (enter : h.enter n client c = (client.goOn (.steal .grab errand), h)) :
    (c = .lockEvents ∧ errand = .permit) ∨
      ∃ kind r, c = .request kind r ∧ errand = .request r ∧ r.refusal? kind = none := by
  have act : (h.enter n client c).1.activity = .steal .grab errand := by rw [enter]; rfl
  cases c with
  | lockEvents =>
    simp only [Handle.enter] at act
    split at act
    · cases act; exact .inl ⟨rfl, rfl⟩
    · cases act
  | request kind r =>
    simp only [Handle.enter] at act
    split at act
    · cases act
    · rename_i fine
      split at act
      · cases act; exact .inr ⟨kind, r, rfl, rfl, fine⟩
      · cases act
  | unlock | read | write | stop =>
    simp only [Handle.enter] at act
    split at act <;> cases act
  | propagate | register | start => cases act
  | close =>
    simp only [Handle.enter, Client.goOn_activity] at act
    split at act <;> cases act

theorem mannered_afterRead {rest : List Call} (buffer : Bytes) (propagate : Bool) (next : ReadNext)
    (permits : client.permits = [] ∨ client.permits = [⟨Handle.number, true⟩])
    (calls : Courteous (!client.permits.isEmpty) rest) :
    (afterRead client buffer propagate next).Mannered rest := by
  rcases next with st | (f | report) | _ <;> exact ⟨rfl, permits, calls⟩

theorem step?_mannered {rest : List Call} (running : h.listener.isRunning = true) (hm : client.Mannered rest)
    (hs : h.step? n client = some (client', h')) : client'.Mannered rest := by
  obtain ⟨shared, permits, calls⟩ := hm
  cases clientStep hs with
  | answered doing enter =>
    rw [doing] at calls
    have calls := courteous_of_answered running enter calls
    exact ⟨rfl, permits, calls⟩
  | steals doing enter =>
    rw [doing] at calls
    refine ⟨rfl, permits, ?_⟩
    rcases call_of_steals enter with ⟨rfl, rfl⟩ | ⟨kind, r, rfl, rfl, -⟩ <;> exact calls
  | granted _ idle => rw [running] at idle; cases idle
  | @unlocks p ps doing held =>
    rw [doing, held] at calls
    have hps : ps = [] := by
      rw [held] at permits
      rcases permits with h | h <;> cases h
      rfl
    subst hps
    exact ⟨rfl, .inl rfl, calls⟩
  | reads doing =>
    rw [doing] at calls
    exact ⟨rfl, permits, calls.2⟩
  | requests _ _ idle => rw [running] at idle; cases idle
  | writes doing | propagates doing | registers doing =>
    rw [doing] at calls
    exact ⟨rfl, permits, calls⟩
  | starts doing | closes doing | halting doing | halted doing | releases doing =>
    rw [doing] at shared; cases shared
  | stops doing exclusive => rw [doing] at shared; cases exclusive.symm.trans shared
  | @stealing st st' errand l doing step =>
    rw [doing] at calls
    exact ⟨rfl, permits, by cases errand <;> exact calls⟩
  | @stolen errand doing =>
    rw [doing] at calls
    cases errand with
    | permit =>
      obtain ⟨held, calls⟩ := calls
      have hp : client.permits = [] := by simpa using held
      exact ⟨rfl, .inr (by rw [Handle.stolen, Client.grant_permits, hp]), calls⟩
    | request r =>
      obtain ⟨held, calls⟩ := calls
      refine ⟨rfl, permits, ?_⟩
      rw [Handle.stolen, Client.goOn_permits, held]
      exact calls
  | @reading st buffer propagate next g doing =>
    rw [doing] at calls
    exact mannered_afterRead buffer propagate next permits calls
  | exchanges doing | leaves doing =>
    rw [doing] at calls
    exact ⟨rfl, permits, calls⟩

end Handle

theorem Client.Mannered.of_holds {c : Client} {rest : List Call} (h : c.Mannered rest) (holds : 0 < c.holds) :
    (∀ errand, c.activity ≠ .steal .grab errand ∧ c.activity ≠ .steal .take errand) ∧
      (c.isIdle = true → rest ≠ []) := by
  obtain ⟨-, permits, calls⟩ := h
  have held (hc : c.activity.holds = 0) : Courteous true (c.activity.pending ++ rest) := by
    rcases permits with hp | hp
    · rw [Client.holds, hp, hc] at holds
      exact absurd holds (Nat.lt_irrefl 0)
    · rwa [hp] at calls
  have not_stealing (st : Steal) (errand : Errand) (hc : c.activity.holds = 0) : c.activity ≠ .steal st errand := by
    intro ha
    have := held hc
    rw [ha] at this
    cases errand <;> cases this.1
  refine ⟨fun errand => ⟨fun ha => ?_, fun ha => ?_⟩, fun idle hr => ?_⟩
  · exact not_stealing .grab errand (by rw [ha]; rfl) ha
  · exact not_stealing .take errand (by rw [ha]; rfl) ha
  · have ha := Client.isIdle_iff.mp idle
    have := held (by rw [ha]; rfl)
    rw [ha, hr] at this
    cases this

/-! ## Courteous clients -/

namespace Event

variable {σ : Type} [Surroundings σ]

def call? (n : Nat) : Event σ → Option Call
  | .move (.ask m c) => if m = n then some c else none
  | _ => none

end Event

namespace System

section
variable {σ : Type} [Surroundings σ]

def asked (n : Nat) (tr : Trace σ) : List Call := tr.filterMap (·.1.call? n)

theorem asked_cons (n : Nat) (e : Event σ) (t : System σ) (tr : Trace σ) :
    asked n ((e, t) :: tr) = (e.call? n).toList ++ asked n tr := by
  rw [asked, List.filterMap_cons]
  cases e.call? n <;> rfl

theorem asked_play [Endpoint σ] {s : System σ} {es : List (Event σ)} (all : (s.play es).length = es.length)
    (n : Nat) : asked n (s.play es) = es.filterMap (Event.call? n) :=
  calc asked n (s.play es)
    _ = ((s.play es).map Prod.fst).filterMap (Event.call? n) := by rw [List.filterMap_map]; rfl
    _ = es.filterMap (Event.call? n) := by rw [map_fst_play all]

end

structure Polite {σ : Type} (s : System σ) (rest : Nat → List Call) : Prop where
  listening : s.isListening = true
  mannered : ∀ (n : Nat) (c : Client), s.clients[n]? = some c → c.Mannered (rest n)

section
variable {σ : Type} {s t : System σ}

theorem Polite.of_isQuiet {rest : Nat → List Call} (hl : s.isListening = true) (quiet : s.isQuiet = true)
    (courteous : ∀ n, Courteous false (rest n)) : Polite s rest := by
  refine ⟨hl, fun n c hc => ?_⟩
  have aside : c.isAside = true := List.all_eq_true.mp quiet c (List.mem_of_getElem? hc)
  obtain ⟨ha, hp⟩ := Client.isAside_iff.mp aside
  exact ⟨by rw [ha]; rfl, .inl hp, by rw [ha, hp]; exact courteous n⟩

variable [Endpoint σ] [Surroundings σ] {e : Event σ}

theorem Polite.step {rest : Nat → List Call} (hp : Polite s fun n => (e.call? n).toList ++ rest n)
    (h : Step s e t) : Polite t rest := by
  obtain ⟨hl, hm⟩ := hp
  -- a client turns from `client` to `client'`, and the others have made no call
  have of_turn {n : Nat} {client : Client} (client' : Client) (h' : Handle σ) (hc : s.clients[n]? = some client)
      (running : h'.listener.isRunning = true) (now : client'.Mannered (rest n))
      (others : ∀ m, m ≠ n → e.call? m = none) : Polite (s.turn n (client', h')) rest := by
    refine ⟨running, fun m d hd => ?_⟩
    rcases at_turn hc hd with ⟨rfl, rfl⟩ | ⟨other, hd⟩
    · exact now
    · have := hm m d hd
      rwa [others m other] at this
  cases h.cause with
  | @ask n c client hc idle =>
    have before := hm n client hc
    simp only [Event.call?, if_true, Option.toList_some, List.singleton_append] at before
    have ha := Client.isIdle_iff.mp idle
    have calls := before.calls
    rw [ha] at calls
    exact of_turn { client with activity := .enter c, reply := none } s.handle hc hl
      ⟨Courteous.shared calls, before.permits, calls⟩ fun m hmn => if_neg (Ne.symm hmn)
  | listener | listenerLate => exact ⟨rfl, hm⟩
  | incident => exact ⟨hl, hm⟩
  | @client n client client' h' hc step =>
    have same := (Handle.step?_steering step).eq_of_shared (hm n client hc).shared
    exact of_turn client' h' hc (by rw [same]; exact hl) (Handle.step?_mannered hl (hm n client hc) step) fun _ _ => rfl
  | @clientLate n client client' h' hc late =>
    obtain ⟨buffer, propagate, doing, rfl, rfl⟩ := Handle.expire?_eq_some late
    obtain ⟨-, permits, calls⟩ := hm n client hc
    rw [doing] at calls
    exact of_turn _ _ hc hl ⟨rfl, permits, calls⟩ fun _ _ => rfl

theorem Polite.follows {rest : Nat → List Call} {tr : Trace σ} (hp : Polite s fun n => asked n tr ++ rest n)
    (h : Follows s tr) : Polite (final s tr) rest := by
  induction tr generalizing s with
  | nil => exact hp
  | cons x tr ih =>
    obtain ⟨e, t⟩ := x
    refine ih (Polite.step ?_ h.1) h.2
    simpa only [asked_cons, List.append_assoc] using hp

end

/-! ## A handle that is let go -/

section
variable {σ : Type} [Endpoint σ]

theorem released_of_step? {n : Nat} {client client' : Client} {h h' : Handle σ}
    (hs : h.step? n client = some (client', h')) : h'.released = h.released ∨ client.activity = .release := by
  cases Handle.clientStep hs with
  | releases doing => exact .inr doing
  | unlocks | leaves => left; split <;> rfl
  | halting _ step | halted _ step => exact .inl (Handle.halt?_kept step).2
  | _ => exact .inl rfl

variable [Surroundings σ] {s : System σ}

/-- Nothing happens to a handle that was let go. -/
theorem Reachable.at_rest (h : Reachable s) (released : s.handle.released ≠ 0) :
    s.isListening = false ∧ ∀ (n : Nat) (c : Client), s.clients[n]? = some c → c.isAside = true := by
  induction h with
  | start => exact absurd rfl released
  | @step s t e hs st ih =>
    cases st.cause with
    | ask _ _ admitted =>
      simp only [admits, Bool.and_eq_true, beq_iff_eq] at admitted
      exact absurd admitted.1.1 released
    | listener on_duty | listenerLate on_duty =>
      have := (ih released).1
      rw [isListening, on_duty] at this
      cases this
    | incident => exact ih released
    | @clientLate n client client' h' hc late =>
      obtain ⟨_, _, doing, -, rfl⟩ := Handle.expire?_eq_some late
      have := (Client.isAside_iff.mp ((ih released).2 n client hc)).1
      rw [doing] at this
      cases this
    | @client n client client' h' hc step =>
      have leaving : client.activity = .release := by
        rcases released_of_step? step with same | leaving
        · have before : s.handle.released ≠ 0 := by rw [← same]; exact released
          have := (Client.isAside_iff.mp ((ih before).2 n client hc)).1
          simp [Handle.step?, this] at step
        · exact leaving
      -- whoever lets the handle go has it for itself, and the listener was stopped
      obtain ⟨hp, others⟩ := hs.sound.alone n client hc (by rw [leaving]; rfl)
      have stopped := (hs.sound.fits n client hc).activity
      rw [leaving] at stopped
      simp only [Handle.step?, leaving, Option.some.injEq] at step
      cases step
      refine ⟨stopped, fun m d hd => ?_⟩
      rcases at_turn hc hd with ⟨rfl, rfl⟩ | ⟨other, hd⟩
      · exact Client.isAside_iff.mpr ⟨rfl, hp⟩
      · exact others m d hd other

theorem Reachable.open_of_isListening (h : Reachable s) (hl : s.isListening = true) : s.handle.released = 0 := by
  by_cases released : s.handle.released = 0
  · exact released
  · rw [(h.at_rest released).1] at hl
    cases hl

end

end System

/-! ## Who waits -/

def Activity.isBlocked (l : SoftLock) : Activity → Bool
  | .steal .grab _ => l.grabber.isSome
  | .steal .take _ => l.reader.isSome
  | _ => false

def Worker.isBlocked (l : SoftLock) : Worker → Bool
  | .working .gate => l.grabber.isSome
  | .working .acquire => l.reader.isSome
  | _ => false

def Listener.worker? : Listener → Option Worker
  | .stopped => none
  | .running _ w => some w

def Worker.isWorking : Worker → Bool
  | .working _ => true
  | _ => false

namespace System

section
variable {σ : Type} (s : System σ)

def isBlocked : Party → Bool
  | .listener => s.handle.listener.worker?.any (·.isBlocked s.lock)
  | .client n => s.clients[n]?.any (·.activity.isBlocked s.lock)

def isUnfinished (todo : Nat → List Call) : Party → Bool
  | .listener => s.handle.listener.worker?.any Worker.isWorking
  | .client n => s.clients[n]?.any fun c => !c.isIdle || !(todo n).isEmpty

end

end System

def Event.isTurnOf {σ : Type} [Surroundings σ] (todo : Nat → List Call) (p : Party) : Event σ → Prop
  | .move (.run q) | .move (.expire q) => q = p
  | .move (.ask n c) => p = .client n ∧ (todo n).head? = some c
  | .incident _ => False

namespace System

section
variable {σ : Type} {s : System σ} {todo : Nat → List Call}

theorem isBlocked_at {n : Nat} {c : Client} (hc : s.clients[n]? = some c) :
    s.isBlocked (.client n) = c.activity.isBlocked s.lock := by
  rw [isBlocked, hc]; rfl

theorem isUnfinished_at {n : Nat} {c : Client} (hc : s.clients[n]? = some c) :
    s.isUnfinished todo (.client n) = (!c.isIdle || !(todo n).isEmpty) := by
  rw [isUnfinished, hc]; rfl

theorem isBlocked_of_running {wanted : Bool} {w : Worker} (hl : s.handle.listener = .running wanted w) :
    s.isBlocked .listener = w.isBlocked s.lock := by
  rw [isBlocked, hl]; rfl

theorem isUnfinished_of_running {wanted : Bool} {w : Worker} (hl : s.handle.listener = .running wanted w) :
    s.isUnfinished todo .listener = w.isWorking := by
  rw [isUnfinished, hl]; rfl

theorem Polite.of_reader (hp : Polite s todo) (hs : Sound s) {p : Party} (hr : s.lock.reader = some p) :
    s.isUnfinished todo p = true ∧ s.isBlocked p = false := by
  have holds : 0 < s.holds p := by rw [hs.reader p, if_pos hr]; exact Nat.one_pos
  cases p with
  | listener =>
    cases hl : s.handle.listener with
    | stopped => rw [System.holds, hl] at holds; cases holds
    | running wanted w =>
      rw [System.holds, hl] at holds
      rw [isUnfinished_of_running hl, isBlocked_of_running hl]
      cases w with
      | working d =>
        cases d with
        | read | leave => exact ⟨rfl, rfl⟩
        | _ => cases holds
      | _ => cases holds
  | client n =>
    cases hc : s.clients[n]? with
    | none => simp [System.holds, hc] at holds
    | some c =>
      rw [(holds_of_at hc).1] at holds
      obtain ⟨free, rest⟩ := (hp.mannered n c hc).of_holds holds
      rw [isUnfinished_at hc, isBlocked_at hc]
      constructor
      · cases hi : c.isIdle with
        | false => rfl
        | true => simp [rest hi]
      · cases ha : c.activity with
        | steal st errand =>
          cases st with
          | grab => exact absurd ha (free errand).1
          | take => exact absurd ha (free errand).2
          | _ => rfl
        | _ => rfl

/-- Behind the right to announce stands somebody who is not done and waits for nothing. -/
theorem Polite.of_grabber (hp : Polite s todo) (hs : Sound s) {p : Party} (hg : s.lock.grabber = some p) :
    ∃ q, s.isUnfinished todo q = true ∧ s.isBlocked q = false := by
  have grabs : 0 < s.grabs p := by rw [hs.grabber p, if_pos hg]; exact Nat.one_pos
  cases p with
  | listener =>
    refine ⟨.listener, ?_⟩
    cases hl : s.handle.listener with
    | stopped => rw [System.grabs, hl] at grabs; cases grabs
    | running wanted w =>
      rw [System.grabs, hl] at grabs
      rw [isUnfinished_of_running hl, isBlocked_of_running hl]
      cases w with
      | working d =>
        cases d with
        | pass => exact ⟨rfl, rfl⟩
        | _ => cases grabs
      | _ => cases grabs
  | client n =>
    cases hc : s.clients[n]? with
    | none => simp [System.grabs, hc] at grabs
    | some c =>
      rw [(holds_of_at hc).2] at grabs
      cases hr : s.lock.reader with
      | some q => exact ⟨q, hp.of_reader hs hr⟩
      | none =>
        refine ⟨.client n, ?_⟩
        rw [isUnfinished_at hc, isBlocked_at hc]
        cases ha : c.activity with
        | steal st errand =>
          have busy : c.isIdle = false := by rw [Client.isIdle, ha]; rfl
          rw [busy]
          refine ⟨rfl, ?_⟩
          cases st with
          | grab => rw [ha] at grabs; cases grabs
          | take => rw [Activity.isBlocked, hr]; rfl
          | _ => rfl
        | _ => rw [ha] at grabs; cases grabs

theorem Polite.somebody_free (hp : Polite s todo) (hs : Sound s) {p : Party} (work : s.isUnfinished todo p = true) :
    ∃ q, s.isUnfinished todo q = true ∧ s.isBlocked q = false := by
  have of_some {holder : Option Party} (waits : holder.isSome = true)
      (held : holder = s.lock.reader ∨ holder = s.lock.grabber) :
      ∃ q, s.isUnfinished todo q = true ∧ s.isBlocked q = false := by
    obtain ⟨q, hq⟩ := Option.isSome_iff_exists.mp waits
    rcases held with held | held
    · exact ⟨q, hp.of_reader hs (held.symm.trans hq)⟩
    · exact hp.of_grabber hs (held.symm.trans hq)
  cases blocked : s.isBlocked p with
  | false => exact ⟨p, work, blocked⟩
  | true =>
    cases p with
    | listener =>
      obtain ⟨w, -, waits⟩ := (Option.any_eq_true ..).mp blocked
      cases w with
      | working d =>
        cases d with
        | gate => exact of_some waits (.inr rfl)
        | acquire => exact of_some waits (.inl rfl)
        | _ => cases waits
      | _ => cases waits
    | client n =>
      obtain ⟨c, -, waits⟩ := (Option.any_eq_true ..).mp blocked
      cases ha : c.activity with
      | steal st errand =>
        rw [ha] at waits
        cases st with
        | grab => exact of_some waits (.inr rfl)
        | take => exact of_some waits (.inl rfl)
        | _ => cases waits
      | _ => rw [ha] at waits; cases waits

end

/-! ## Who does not wait can step -/

section
variable {σ : Type} [Endpoint σ] [Surroundings σ] [Separate σ] {s : System σ} {todo : Nat → List Call}

theorem Reachable.listener_steps (hs : Reachable s) (work : s.isUnfinished todo .listener = true)
    (free : s.isBlocked .listener = false) : ∃ e t, Event.isTurnOf todo .listener e ∧ Step s e t := by
  obtain ⟨w, hw, working⟩ := (Option.any_eq_true ..).mp work
  cases hl : s.handle.listener with
  | stopped => rw [hl] at hw; cases hw
  | running wanted w' =>
    rw [hl] at hw; cases hw
    rw [isBlocked_of_running hl] at free
    cases w with
    | finished | crashed => cases working
    | working d =>
      have of_step {u : Worker × Gate σ} (step : d.step? wanted s.handle.gate = some u) :
          ∃ e t, Event.isTurnOf todo .listener e ∧ Step s e t :=
        ⟨.move (.run .listener), s.work wanted u, rfl, rfl, by
          simp only [happen?, System.next, run?, hl, step, Option.map_some]⟩
      cases d with
      | check | leave | pause | pass => exact of_step rfl
      | acquire =>
        have hr : s.lock.reader = none := by simpa [Worker.isBlocked] using free
        exact of_step (Option.map_eq_some_iff.mpr ⟨_, SoftLock.acquire?_eq_some.mpr ⟨hr, rfl⟩, rfl⟩)
      | gate =>
        have hg : s.lock.grabber = none := by simpa [Worker.isBlocked] using free
        exact of_step (Option.map_eq_some_iff.mpr ⟨_, SoftLock.grab?_eq_some.mpr ⟨hg, rfl⟩, rfl⟩)
      | read st =>
        have at_st : s.stage? .listener = some st := stage?_listener_iff.mpr ⟨wanted, hl⟩
        rcases hs.read_goes_on (by rw [isListening, hl]; rfl) at_st with ⟨t, ht⟩ | ⟨t, ht⟩
        · exact ⟨.move (.run .listener), t, rfl, ht⟩
        · exact ⟨.move (.expire .listener), t, rfl, ht⟩

end

section
variable {s : System Bench} {todo : Nat → List Call}

theorem Reachable.client_steps (hs : Reachable s) (hl : s.isListening = true) {n : Nat} {c : Client}
    (hc : s.clients[n]? = some c) (shared : c.activity.isExclusive = false) (busy : c.activity ≠ .idle)
    (free : c.activity.isBlocked s.lock = false) : ∃ e t, Event.isTurnOf todo (.client n) e ∧ Step s e t := by
  have of_step (step : (s.handle.step? n c).isSome = true) :
      ∃ e t, Event.isTurnOf todo (.client n) e ∧ Step s e t := by
    obtain ⟨u, hu⟩ := Option.isSome_iff_exists.mp step
    exact ⟨.move (.run (.client n)), s.turn n u, rfl, step_of_turn hc hu⟩
  cases ha : c.activity with
  | idle => exact absurd ha busy
  | enter call => exact of_step (by rw [Handle.step?, ha]; rfl)
  | steal st errand =>
    rw [ha] at free
    apply of_step
    simp only [Handle.step?, ha, Option.isSome_map]
    cases st with
    | announce | clear | ungrab => rfl
    | grab =>
      have hg : s.lock.grabber = none := by simpa [Activity.isBlocked] using free
      rw [Steal.step?, SoftLock.grab?, show s.handle.gate.lock.grabber = none from hg]; rfl
    | take =>
      have hr : s.lock.reader = none := by simpa [Activity.isBlocked] using free
      rw [Steal.step?, SoftLock.acquire?, show s.handle.gate.lock.reader = none from hr]; rfl
  | read st buffer propagate =>
    have at_st : s.stage? (.client n) = some st := stage?_client_iff.mpr ⟨c, buffer, propagate, hc, ha⟩
    rcases hs.read_goes_on hl at_st with ⟨t, ht⟩ | ⟨t, ht⟩
    · exact ⟨.move (.run (.client n)), t, rfl, ht⟩
    · exact ⟨.move (.expire (.client n)), t, rfl, ht⟩
  | exchange | leave => exact of_step (by rw [Handle.step?, ha]; rfl)
  | halt | release => rw [ha] at shared; cases shared

theorem Polite.client_asks (hp : Polite s todo) (hs : Reachable s) {n : Nat} {c : Client}
    (hc : s.clients[n]? = some c) (idle : c.isIdle = true) (more : todo n ≠ []) :
    ∃ e t, Event.isTurnOf todo (.client n) e ∧ Step s e t := by
  obtain ⟨call, rest, ht⟩ := List.exists_cons_of_ne_nil more
  obtain ⟨-, permits, calls⟩ := hp.mannered n c hc
  rw [Client.isIdle_iff.mp idle, ht] at calls
  have admitted : s.admits call = true := by
    have nobody : s.clients.any (·.activity.isExclusive) = false := by
      simp only [List.any_eq_false]
      intro d hd
      obtain ⟨m, hm⟩ := List.mem_iff_getElem?.mp hd
      simp [(hp.mannered m d hm).shared]
    rw [admits, hs.open_of_isListening hp.listening, nobody, Courteous.shared calls]
    rfl
  refine ⟨.move (.ask n call), { s with clients := s.clients.set n { c with activity := .enter call, reply := none } },
    ⟨rfl, by rw [ht]; rfl⟩, ?_, ?_⟩
  · cases call with
    | read permit buffer propagate =>
      cases hg : permit.guards Handle.number with
      | false => simp [honors, hg]
      | true =>
        -- the permit that it reads under is the one that it holds
        obtain ⟨held, rfl⟩ := calls.1 hg
        rcases permits with hps | hps
        · rw [hps] at held; cases held
        · simp [honors, hc, hps]
    | _ => rfl
  · simp only [happen?, System.next, ask?, hc, idle, admitted, Bool.and_self, if_true]

theorem Polite.steps_of_free (hp : Polite s todo) (hs : Reachable s) {p : Party}
    (work : s.isUnfinished todo p = true) (free : s.isBlocked p = false) :
    ∃ e t, Event.isTurnOf todo p e ∧ Step s e t := by
  cases p with
  | listener => exact hs.listener_steps work free
  | client n =>
    cases hc : s.clients[n]? with
    | none => rw [isUnfinished, hc] at work; cases work
    | some c =>
      rw [isUnfinished_at hc] at work
      rw [isBlocked_at hc] at free
      cases idle : c.isIdle with
      | true => exact hp.client_asks hs hc idle (by simpa [idle] using work)
      | false =>
        refine hs.client_steps hp.listening hc (hp.mannered n c hc).shared (fun ha => ?_) free
        rw [Client.isIdle, ha] at idle
        cases idle

/-- Let clients share a handle with a listener, and make any calls in any order, but each give its permit back
before it asks for the device again. As long as somebody is not done, one who is not done waits for neither
lock; and whoever waits for neither can step. -/
theorem no_deadlock {tr : Trace Bench} (hs : Reachable s) (hl : s.isListening = true) (quiet : s.isQuiet = true)
    (h : Follows s tr) (courteous : ∀ n, Courteous false (asked n tr ++ todo n))
    (work : ∃ p, (final s tr).isUnfinished todo p = true) :
    (∃ p, (final s tr).isUnfinished todo p = true ∧ (final s tr).isBlocked p = false) ∧
      ∀ p, (final s tr).isUnfinished todo p = true → (final s tr).isBlocked p = false →
        ∃ e t, Event.isTurnOf todo p e ∧ Step (final s tr) e t := by
  have reachable := hs.follows h
  have polite : Polite (final s tr) todo := (Polite.of_isQuiet hl quiet courteous).follows h
  obtain ⟨p, work⟩ := work
  refine ⟨polite.somebody_free reachable.sound work, fun q unfinished free => ?_⟩
  exact polite.steps_of_free reachable unfinished free

/-- Client 0 has the read path and is to read and give it back. Client 1 has announced itself and waits for it,
and holds the listener up at its gate. Client 2 waits to announce itself. -/
theorem no_deadlock_of_contention :
    let s := after (start (.fresh Bench.fresh .standard) 3) [.move (.ask 0 .start), .move (.run (.client 0))]
    let tr := play s [.move (.run .listener), .move (.run .listener), .move (.ask 0 .lockEvents),
      .move (.run (.client 0)), .move (.run (.client 0)), .move (.run (.client 0)), .move (.run .listener),
      .move (.run .listener), .move (.run .listener), .move (.run (.client 0)), .move (.run (.client 0)),
      .move (.run (.client 0)), .move (.ask 1 .lockEvents), .move (.run (.client 1)), .move (.run (.client 1)),
      .move (.run (.client 1)), .move (.ask 2 (.request .feature ⟨.get, 1, [0, 0]⟩)), .move (.run (.client 2))]
    let todo : Nat → List Call
      | 0 => [.read ⟨Handle.number, true⟩ [0] true, .unlock]
      | 1 => [.unlock]
      | _ => []
    (final s tr).isBlocked .listener = true ∧ (final s tr).isBlocked (.client 1) = true ∧
      (final s tr).isBlocked (.client 2) = true ∧
      ∃ p, (final s tr).isUnfinished todo p = true ∧
        ∃ e t, Event.isTurnOf todo p e ∧ Step (final s tr) e t := by
  intro s tr todo
  have courteous : ∀ n, Courteous false (asked n tr ++ todo n) := by
    intro n
    rw [asked_play (by decide +kernel)]
    match n with
    | 0 => exact ⟨rfl, fun _ => ⟨rfl, rfl⟩, rfl⟩
    | 1 => exact ⟨rfl, rfl⟩
    | 2 => exact ⟨rfl, rfl⟩
    | _ + 3 => exact rfl
  obtain ⟨⟨p, unfinished, free⟩, steps⟩ := no_deadlock ((Reachable.start Bench.fresh .standard 3).after _ : Reachable s)
    (by decide +kernel) (by decide +kernel) (follows_play _ _) courteous ⟨.client 0, by decide +kernel⟩
  exact ⟨by decide +kernel, by decide +kernel, by decide +kernel, p, unfinished, steps p unfinished free⟩

end

end System

end HidGate
