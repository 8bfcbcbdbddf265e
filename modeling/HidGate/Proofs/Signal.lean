import HidGate.Proofs.Wakeup

/-!
# Whose byte is in the pipe

A byte comes into the pipe when a stealer announces itself and when the listener is woken to be stopped. Whoever
puts one in empties the pipe before anybody else can put in another: a stealer still may announce until then, and
who stops the listener has the handle for itself. So there is one byte at most, and it is that of the one client
which is on its way from putting it in to emptying the pipe.
-/

namespace HidGate

def Activity.hasCalled : Activity → Bool
  | .steal .take _ | .steal .clear _ | .halt .join _ | .halt .drain _ => true
  | _ => false

def Activity.isEmptying (a : Activity) : Bool := a.isClearing || a.isDraining

/-- The client is the only one that may put bytes into the pipe. -/
def Activity.isEngaged (a : Activity) : Bool := a.isCalling || a.hasCalled

theorem Activity.isEngaged_cases {a : Activity} (h : a.isEngaged = true) :
    0 < a.grabs ∨ a.isExclusive = true := by
  cases a with
  | steal st errand =>
    cases st with
    | grab => cases h
    | _ => exact .inl Nat.one_pos
  | halt => exact .inr rfl
  | _ => cases h

theorem Activity.not_hasCalled_of_isCalling {a : Activity} (h : a.isCalling = true) : a.hasCalled = false := by
  unfold isCalling at h
  split at h
  · rfl
  · rfl
  · cases h

/-! ## One step -/

namespace Handle

variable {σ : Type} [Endpoint σ] {n : Nat} {client client' : Client} {h h' : Handle σ}

theorem step?_calling (hs : h.step? n client = some (client', h')) (calling : client.activity.isCalling = true) :
    client'.activity.hasCalled = true ∧ h'.gate.lock.pipe = h.gate.lock.pipe.notify := by
  cases ha : client.activity with
  | steal st errand =>
    rw [ha] at calling
    cases st with
    | announce => simp only [step?, ha] at hs; cases hs; exact ⟨rfl, rfl⟩
    | _ => cases calling
  | halt st closing =>
    rw [ha] at calling
    cases st with
    | wake => simp only [step?, ha] at hs; cases hs; exact ⟨rfl, rfl⟩
    | _ => cases calling
  | _ => rw [ha] at calling; cases calling

theorem step?_emptying (hs : h.step? n client = some (client', h')) (emptying : client.activity.isEmptying = true) :
    h'.gate.lock.pipe = .empty := by
  cases ha : client.activity with
  | steal st errand =>
    rw [ha] at emptying
    cases st with
    | clear => simp only [step?, ha] at hs; cases hs; exact congrArg Prod.snd (Pipe.drain_eq _)
    | _ => cases emptying
  | halt st closing =>
    rw [ha] at emptying
    cases st with
    | drain => simp only [step?, ha] at hs; cases hs; exact congrArg Prod.snd (Pipe.drain_eq _)
    | _ => cases emptying
  | read st buffer propagate =>
    rw [ha] at emptying
    cases st with
    | drain => simp only [step?, ha] at hs; cases hs; exact congrArg Prod.snd (Pipe.drain_eq _)
    | _ => cases emptying
  | _ => rw [ha] at emptying; cases emptying

theorem step?_passing (hs : h.step? n client = some (client', h')) (calling : client.activity.isCalling = false)
    (emptying : client.activity.isEmptying = false) :
    h'.gate.lock.pipe = h.gate.lock.pipe ∧
      (client.activity.hasCalled = true → client'.activity.hasCalled = true) := by
  rw [Activity.isEmptying, Bool.or_eq_false_iff] at emptying
  obtain ⟨clearing, draining⟩ := emptying
  constructor
  · rcases step?_pipe hs with pipe | on | on | on
    · exact pipe
    · rw [calling] at on; cases on
    · rw [clearing] at on; cases on
    · cases ha : client.activity with
      | read st buffer propagate => rw [ha] at on draining; cases on; cases draining
      | _ => rw [ha] at on; cases on
  · intro called
    cases ha : client.activity with
    | steal st errand =>
      rw [ha] at called clearing
      cases st with
      | take =>
        simp only [step?, ha, Option.map_eq_some_iff, Steal.step?] at hs
        obtain ⟨_, ⟨l, -, rfl⟩, hs⟩ := hs
        cases hs; rfl
      | clear => cases clearing
      | _ => cases called
    | halt st closing =>
      rw [ha] at called clearing
      cases st with
      | join =>
        simp only [step?, ha, Option.map_eq_some_iff, halt?] at hs
        obtain ⟨_, joined, hs⟩ := hs
        split at joined <;> cases joined <;> cases hs <;> rfl
      | drain => cases clearing
      | _ => cases called
    | _ => rw [ha] at called; cases called

end Handle

theorem Duty.step?_passing {σ : Type} [Endpoint σ] {wanted : Bool} {d : Duty} {g g' : Gate σ} {w : Worker}
    (h : d.step? wanted g = some (w, g')) :
    ((Worker.working d).stage? = some .drain → g'.lock.pipe = .empty) ∧
      ((Worker.working d).stage? ≠ some .drain → g'.lock.pipe = g.lock.pipe) := by
  cases dutyStep h with
  | @reads st next g₁ step =>
    have same : (ofRead (next, g₁)).2.lock.pipe = g₁.lock.pipe := by rcases next with _ | _ | _ <;> rfl
    rw [same]
    rcases step.lock with ⟨other, hl⟩ | ⟨rfl, -, hl⟩
    · exact ⟨fun on => absurd (Option.some.inj on) other, fun _ => congrArg SoftLock.pipe hl⟩
    · refine ⟨fun _ => ?_, fun off => absurd rfl off⟩
      rw [hl]
      exact congrArg Prod.snd (Pipe.drain_eq _)
  | _ => exact ⟨nofun, fun _ => rfl⟩

namespace System

section
variable {σ : Type} {s t : System σ} {n m : Nat}

def hasCalled (s : System σ) (n : Nat) : Bool := s.clients[n]?.any (·.activity.hasCalled)

theorem hasCalled_turn_self {c : Client} (hc : s.clients[n]? = some c) (u : Turn σ) :
    (s.turn n u).hasCalled n = u.1.activity.hasCalled := by
  have := getElem?_set_at hc u.1
  simp [hasCalled, turn, this]

theorem hasCalled_turn_of_ne (hm : m ≠ n) (u : Turn σ) : (s.turn m u).hasCalled n = s.hasCalled n := by
  simp [hasCalled, turn, List.getElem?_set_ne hm]

theorem Sound.engaged_unique (hs : Sound s) {c d : Client} (hc : s.clients[n]? = some c)
    (engaged : c.activity.isEngaged = true) (hd : s.clients[m]? = some d) (other : d.activity.isEngaged = true) :
    n = m := by
  have not_aside {c : Client} (engaged : c.activity.isEngaged = true) : c.isAside = false := by
    cases aside : c.isAside with
    | false => rfl
    | true => rw [(Client.isAside_iff.mp aside).1] at engaged; cases engaged
  by_cases hnm : n = m
  · exact hnm
  · exfalso
    rcases Activity.isEngaged_cases engaged with grabs | exclusive
    · rcases Activity.isEngaged_cases other with grabs' | exclusive
      · have := (hs.grabber_of_client_grabs hc grabs).symm.trans (hs.grabber_of_client_grabs hd grabs')
        cases this
        exact hnm rfl
      · have := (hs.alone m d hd exclusive).2 n c hc hnm
        rw [not_aside engaged] at this; cases this
    · have := (hs.alone n c hc exclusive).2 m d hd (Ne.symm hnm)
      rw [not_aside other] at this; cases this

theorem Sound.only_caller (hs : Sound s) {c : Client} (hc : s.clients[n]? = some c)
    (engaged : c.activity.isEngaged = true) (called : s.hasCalled m = true) : m = n := by
  obtain ⟨d, hd, called⟩ := (Option.any_eq_true ..).mp called
  exact hs.engaged_unique hd (by rw [Activity.isEngaged, called, Bool.or_true]) hc engaged

/-! ## The bytes since the pipe was last empty -/

section
variable [Surroundings σ]

def caller? (s : System σ) : Event σ → Option Nat
  | .move (.run (.client n)) => if s.clients[n]?.any (·.activity.isCalling) then some n else none
  | _ => none

def empties (s : System σ) : Event σ → Bool
  | .move (.run (.client n)) => s.clients[n]?.any (·.activity.isEmptying)
  | .move (.run .listener) => s.stage? .listener == some .drain
  | _ => false

def unheardAfter (s : System σ) (ns : List Nat) (e : Event σ) : List Nat :=
  if s.empties e then [] else ns ++ (s.caller? e).toList

/-- The clients that put a byte into the pipe and have it there still after the trace, oldest first; before it
these are `ns`. -/
def unheard : System σ → List Nat → Trace σ → List Nat
  | _, ns, [] => ns
  | s, ns, (e, t) :: tr => unheard t (s.unheardAfter ns e) tr

end

structure Owned (s : System σ) (ns : List Nat) : Prop where
  bytes : s.lock.pipe.bytes = ns.length
  single : ns.length ≤ 1
  called : ∀ n ∈ ns, s.hasCalled n = true

theorem Owned.nobody (he : s.lock.pipe = .empty) : Owned s [] :=
  ⟨by rw [he]; rfl, Nat.zero_le 1, by simp⟩

theorem Owned.keep {ns : List Nat} (ho : Owned s ns) (pipe : t.lock.pipe = s.lock.pipe)
    (called : ∀ n, s.hasCalled n = true → t.hasCalled n = true) : Owned t ns :=
  ⟨by rw [pipe]; exact ho.bytes, ho.single, fun n hn => called n (ho.called n hn)⟩

variable [Endpoint σ] [Surroundings σ] {e : Event σ}

theorem owned_step_client {ns : List Nat} (hs : Sound s) (ho : Owned s ns) {client client' : Client}
    {h' : Handle σ} (hc : s.clients[n]? = some client) (step : s.handle.step? n client = some (client', h')) :
    Owned (s.turn n (client', h')) (s.unheardAfter ns (.move (.run (.client n)))) := by
  have empties : s.empties (.move (.run (.client n))) = client.activity.isEmptying := by rw [System.empties, hc]; rfl
  have caller : s.caller? (.move (.run (.client n))) = if client.activity.isCalling then some n else none := by
    rw [caller?, hc]; rfl
  rw [unheardAfter, empties, caller]
  cases emptying : client.activity.isEmptying with
  | true => exact .nobody (Handle.step?_emptying step emptying)
  | false =>
    cases calling : client.activity.isCalling with
    | true =>
      -- nobody else has a byte in the pipe, and this client has not put in its own
      have none_yet : ns = [] := by
        refine List.eq_nil_iff_forall_not_mem.mpr fun m hm => ?_
        have called := ho.called m hm
        have := hs.only_caller hc (by rw [Activity.isEngaged, calling, Bool.true_or]) called
        subst this
        rw [System.hasCalled, hc, Option.any_some] at called
        rw [Activity.not_hasCalled_of_isCalling calling] at called
        cases called
      obtain ⟨called, pipe⟩ := Handle.step?_calling step calling
      have bytes := ho.bytes
      subst none_yet
      refine ⟨?_, Nat.le_refl 1, fun m hm => ?_⟩
      · have empty : s.handle.gate.lock.pipe.bytes = 0 := bytes
        change h'.gate.lock.pipe.bytes = 1
        rw [pipe]
        change min (s.handle.gate.lock.pipe.bytes + 1) Pipe.capacity = 1
        rw [empty]
        rfl
      · obtain rfl : m = n := List.mem_singleton.mp hm
        rw [hasCalled_turn_self hc]
        exact called
    | false =>
      obtain ⟨pipe, stays⟩ := Handle.step?_passing step calling emptying
      rw [if_neg (by simp), if_neg (by simp), Option.toList_none, List.append_nil]
      refine ho.keep pipe fun m called => ?_
      by_cases hmn : m = n
      · subst hmn
        rw [hasCalled_turn_self hc]
        rw [System.hasCalled, hc] at called
        exact stays called
      · rw [hasCalled_turn_of_ne (Ne.symm hmn)]
        exact called

theorem Owned.step {ns : List Nat} (ho : Owned s ns) (hs : Sound s) (h : Step s e t) :
    Owned t (s.unheardAfter ns e) := by
  cases h.cause with
  | @ask n c client hc idle =>
    rw [show s.unheardAfter ns (.move (.ask n c)) = ns from List.append_nil ns]
    refine ho.keep rfl fun m called => ?_
    by_cases hmn : m = n
    · subst hmn
      rw [System.hasCalled, hc, Option.any_some, Client.isIdle_iff.mp idle] at called
      cases called
    · exact (hasCalled_turn_of_ne (Ne.symm hmn) ({ client with activity := .enter c, reply := none }, s.handle)).trans
        called
  | @listener wanted d w g hl step =>
    obtain ⟨drained, passed⟩ := Duty.step?_passing step
    have stage : s.stage? .listener = (Worker.working d).stage? := by rw [stage?, hl]; rfl
    rw [unheardAfter, empties, stage]
    by_cases draining : (Worker.working d).stage? = some .drain
    · rw [draining, if_pos (by decide)]
      exact .nobody (drained draining)
    · rw [if_neg (by simpa using draining), show s.caller? (.move (.run .listener)) = none from rfl, Option.toList_none,
        List.append_nil]
      exact ho.keep (passed draining) fun _ called => called
  | @listenerLate wanted d w g hl late =>
    obtain ⟨rfl, rfl, rfl⟩ := Duty.expire?_eq_some late
    rw [show s.unheardAfter ns (.move (.expire .listener)) = ns from List.append_nil ns]
    exact ho.keep rfl fun _ called => called
  | client hc step => exact owned_step_client hs ho hc step
  | @clientLate n client client' h' hc late =>
    obtain ⟨buffer, propagate, doing, rfl, rfl⟩ := Handle.expire?_eq_some late
    rw [show s.unheardAfter ns (.move (.expire (.client n))) = ns from List.append_nil ns]
    refine ho.keep rfl fun m called => ?_
    by_cases hmn : m = n
    · subst hmn
      rw [System.hasCalled, hc, Option.any_some, doing] at called
      cases called
    · rw [hasCalled_turn_of_ne (Ne.symm hmn)]
      exact called
  | incident i =>
    rw [show s.unheardAfter ns (.incident i) = ns from List.append_nil ns]
    exact ho.keep rfl fun _ called => called

theorem Owned.follows {ns : List Nat} {tr : Trace σ} (ho : Owned s ns) (hs : Sound s) (h : Follows s tr) :
    Owned (final s tr) (unheard s ns tr) := by
  induction tr generalizing s ns with
  | nil => exact ho
  | cons x tr ih =>
    obtain ⟨e, t⟩ := x
    exact ih (ho.step hs h.1) (hs.step h.1.cause) h.2

/-! ## Interrupted reads -/

theorem awaiting_stays (hw : s.isAwaiting n = true) (held : s.lock.reader ≠ none) (h : Step s e t) :
    t.isAwaiting n = true := by
  obtain ⟨c, errand, hc, ha⟩ := isAwaiting_iff.mp hw
  cases h.cause with
  | @ask m call client hm idle =>
    by_cases hmn : m = n
    · subst hmn
      rw [hc] at hm; cases hm
      rw [Client.isIdle, ha] at idle; cases idle
    · exact (isAwaiting_turn_of_ne hmn ({ client with activity := .enter call, reply := none }, s.handle)).trans hw
  | listener | listenerLate | incident => exact hw
  | @client m client client' h' hm step =>
    by_cases hmn : m = n
    · subst hmn
      rw [hc] at hm; cases hm
      simp only [Handle.step?, ha, Option.map_eq_some_iff, Steal.step?, SoftLock.acquire?_eq_some] at step
      obtain ⟨-, ⟨-, ⟨free, -⟩, -⟩, -⟩ := step
      exact absurd free held
    · exact (isAwaiting_turn_of_ne hmn _).trans hw
  | @clientLate m client client' h' hm late =>
    by_cases hmn : m = n
    · subst hmn
      rw [hc] at hm; cases hm
      obtain ⟨_, _, doing, -, -⟩ := Handle.expire?_eq_some late
      rw [ha] at doing; cases doing
    · exact (isAwaiting_turn_of_ne hmn _).trans hw

omit [Endpoint σ] [Surroundings σ] in
theorem Sound.awaiting_of_called (hs : Sound s) (called : s.hasCalled n = true) {st : ReadStage}
    (hm : s.stage? (.client m) = some st) : n ≠ m ∧ s.isAwaiting n = true := by
  obtain ⟨c, hc, called⟩ := (Option.any_eq_true ..).mp called
  obtain ⟨d, buffer, propagate, hd, reading⟩ := stage?_client_iff.mp hm
  have hnm : n ≠ m := by
    rintro rfl
    rw [hd] at hc; cases hc
    rw [reading] at called; cases called
  refine ⟨hnm, ?_⟩
  cases ha : c.activity with
  | steal st' errand =>
    cases st' with
    | take => exact isAwaiting_iff.mpr ⟨c, errand, hc, ha⟩
    | clear =>
      -- both would have the read path
      have listening : s.isListening = true := by
        have := (hs.fits n c hc).activity
        rwa [ha] at this
      have mine := hs.reader_of_client_holds hc (by rw [Client.holds, ha]; exact Nat.succ_pos _)
      have := mine.symm.trans (hs.reader_of_stage listening hm)
      cases this
      exact absurd rfl hnm
    | _ => rw [ha] at called; cases called
  | halt st' closing =>
    have aside := (hs.alone n c hc (by rw [ha]; rfl)).2 m d hd hnm.symm
    rw [(Client.isAside_iff.mp aside).1] at reading; cases reading
  | _ => rw [ha] at called; cases called

def Woken (s : System σ) : Prop :=
  ∀ m, s.stage? (.client m) = some .drain → ∃ n, n ≠ m ∧ s.isAwaiting n = true

theorem Woken.step {ns : List Nat} (hw : Woken s) (hs : Sound s) (ho : Owned s ns) (h : Step s e t) : Woken t := by
  intro m hm
  -- the read itself keeps the stealer waiting
  have of_waiting {n : Nat} {st : ReadStage} (before : s.stage? (.client m) = some st)
      (awaiting : s.isAwaiting n = true) : t.isAwaiting n = true := by
    refine awaiting_stays awaiting ?_ h
    rw [hs.reader_of_stage (hs.isListening_of_awaiting awaiting) before]
    simp
  by_cases same : s.stage? (.client m) = some .drain
  · obtain ⟨n, hnm, awaiting⟩ := hw m same
    exact ⟨n, hnm, of_waiting same awaiting⟩
  · cases h.motion with
    | @read q st next g at_q step _ _ _ goes _ others =>
      by_cases hq : Party.client m = q
      · subst hq
        rw [hm] at goes
        cases step with
        | wake _ byte =>
          have some_byte : ns ≠ [] := by
            rintro rfl
            have empty : s.handle.gate.lock.pipe.bytes = 0 := ho.bytes
            rw [Pipe.isEmpty, empty] at byte
            cases byte
          obtain ⟨n, hn⟩ := List.exists_mem_of_ne_nil ns some_byte
          obtain ⟨hnm, awaiting⟩ := hs.awaiting_of_called (ho.called n hn) at_q
          exact ⟨n, hnm, of_waiting at_q awaiting⟩
        | report => cases hpr : s.propagates (.client m) <;> rw [hpr] at goes <;> cases goes
        | _ => cases goes
      · exact absurd ((others _ hq).symm.trans hm) same
    | @late q _ _ _ goes _ others =>
      by_cases hq : Party.client m = q
      · rw [hq, goes] at hm; cases hm
      · exact absurd ((others _ hq).symm.trans hm) same
    | propagate _ _ _ stages => exact absurd ((stages _).symm.trans hm) same
    | @aside move _ _ goes others =>
      by_cases hq : Party.client m = move.party
      · rw [hq] at hm
        rcases goes with goes | goes <;> rw [goes] at hm <;> cases hm
      · exact absurd ((others _ hq).symm.trans hm) same
    | incident _ _ _ stages => exact absurd ((stages _).symm.trans hm) same

theorem Woken.follows {ns : List Nat} {tr : Trace σ} (hw : Woken s) (hs : Sound s) (ho : Owned s ns)
    (h : Follows s tr) : Woken (final s tr) := by
  induction tr generalizing s ns with
  | nil => exact hw
  | cons x tr ih => exact ih (hw.step hs ho h.1) (hs.step h.1.cause) (ho.step hs h.1) h.2

/-- A client's read that ends interrupted was interrupted in its poll, or another client waits. -/
theorem Woken.of_interrupted (hw : Woken s) (hs : Sound s) (h : Step s e t) {st : ReadStage}
    (hn : s.stage? (.client n) = some st) (interrupted : t.fault? (.client n) = some .interrupted) :
    (∃ endpoint, Endpoint.pollFault? s.endpoint = some (Errno.interrupted, endpoint)) ∨
      ∃ m, m ≠ n ∧ t.isAwaiting m = true := by
  have left : t.stage? (.client n) ≠ some st := by
    intro same
    obtain ⟨c, _, _, hc, ha⟩ := stage?_client_iff.mp same
    rw [fault?, hc, Option.bind_some, Client.fault?, ha] at interrupted
    cases interrupted
  rcases h.of_leaves hn left with ⟨next, g, -, step, -, -, -, ends⟩ | ⟨rfl, rfl, -, -⟩
  · rw [interrupted] at ends
    cases step with
    | @pollFault number endpoint fault =>
      by_cases hi : number = Errno.interrupted
      · subst hi; exact .inl ⟨endpoint, fault⟩
      · rw [ReadNext.fault?, Fault.ofPoll, if_neg hi] at ends
        cases ends
    | drain =>
      right
      obtain ⟨m, hmn, awaiting⟩ := hw n hn
      refine ⟨m, hmn, awaiting_stays awaiting ?_ h⟩
      rw [hs.reader_of_stage (hs.isListening_of_awaiting awaiting) hn]
      simp
    | report => cases hpr : s.propagates (.client n) <;> rw [hpr] at ends <;> cases ends
    | _ => cases ends
  · cases h.motion with
    | late _ _ _ _ ends => rw [interrupted] at ends; cases ends
    | aside at_n => rw [Move.party, hn] at at_n; cases at_n

/-! ## The byte and its owner -/

omit [Endpoint σ] [Surroundings σ] in
theorem Sound.place_of_called (hs : Sound s) (called : s.hasCalled n = true) :
    ∃ c, s.clients[n]? = some c ∧
      ((∃ errand, (c.activity = .steal .take errand ∨ c.activity = .steal .clear errand) ∧
          s.lock.grabber = some (.client n)) ∨
        ∃ closing, c.activity = .halt .join closing ∨ c.activity = .halt .drain closing) := by
  obtain ⟨c, hc, called⟩ := (Option.any_eq_true ..).mp called
  refine ⟨c, hc, ?_⟩
  have grabber (grabs : 0 < c.activity.grabs) := hs.grabber_of_client_grabs hc grabs
  cases ha : c.activity with
  | steal st errand =>
    rw [ha] at called grabber
    cases st with
    | take => exact .inl ⟨errand, .inl rfl, grabber Nat.one_pos⟩
    | clear => exact .inl ⟨errand, .inr rfl, grabber Nat.one_pos⟩
    | _ => cases called
  | halt st closing =>
    rw [ha] at called
    cases st with
    | join => exact .inr ⟨closing, .inl rfl⟩
    | drain => exact .inr ⟨closing, .inr rfl⟩
    | _ => cases called
  | _ => rw [ha] at called; cases called

/-- Whatever a handle has been through, its pipe holds one byte at most. It is that of a stealer which may
announce and has not yet emptied the pipe, or of the client that stops the listener. A stealer that empties the
pipe takes no other client's byte, and a client's read ends interrupted only by its poll or while another client
waits. -/
theorem byte_owned {endpoint : σ} {config : Config} {k : Nat} {tr : Trace σ}
    (h : Follows (start (.fresh endpoint config) k) tr) :
    let u := final (start (.fresh endpoint config) k) tr
    let callers := unheard (start (.fresh endpoint config) k) [] tr
    u.lock.pipe.bytes = callers.length ∧ callers.length ≤ 1 ∧
      (∀ n ∈ callers, ∃ c, u.clients[n]? = some c ∧
        ((∃ errand, (c.activity = .steal .take errand ∨ c.activity = .steal .clear errand) ∧
            u.lock.grabber = some (.client n)) ∨
          ∃ closing, c.activity = .halt .join closing ∨ c.activity = .halt .drain closing)) ∧
      (∀ n c errand, u.clients[n]? = some c → c.activity = .steal .clear errand → ∀ m ∈ callers, m = n) ∧
      ∀ n st e t, Step u e t → u.stage? (.client n) = some st → t.fault? (.client n) = some .interrupted →
        (∃ endpoint, Endpoint.pollFault? u.endpoint = some (Errno.interrupted, endpoint)) ∨
          ∃ m, m ≠ n ∧ t.isAwaiting m = true := by
  intro u callers
  have fresh : Reachable (start (.fresh endpoint config) k) := .start endpoint config k
  have nobody : Owned (start (.fresh endpoint config) k) [] := .nobody rfl
  have sound : Sound u := (fresh.follows h).sound
  have owned : Owned u callers := nobody.follows fresh.sound h
  have woken : Woken u := by
    refine Woken.follows (fun m hm => ?_) fresh.sound nobody h
    obtain ⟨c, _, _, hc, ha⟩ := stage?_client_iff.mp hm
    rw [List.eq_of_mem_replicate (List.mem_of_getElem? hc)] at ha
    cases ha
  refine ⟨owned.bytes, owned.single, fun n hn => sound.place_of_called (owned.called n hn), ?_, ?_⟩
  · intro n c errand hc ha m hm
    exact sound.only_caller hc (by rw [ha]; rfl) (owned.called m hm)
  · intro n st e t step hn interrupted
    exact woken.of_interrupted sound step hn interrupted

/-- Client 0 has the read path and reads, and the byte of client 1, which waits for it, interrupts the read. -/
theorem byte_owned_by_stealer :
    let s := start (.fresh Bench.fresh .standard) 2
    let tr := play s [.move (.ask 0 .start), .move (.run (.client 0)), .move (.ask 0 .lockEvents),
      .move (.run (.client 0)), .move (.run (.client 0)), .move (.run (.client 0)), .move (.run (.client 0)),
      .move (.run (.client 0)), .move (.run (.client 0)), .move (.ask 0 (.read ⟨0, true⟩ [0] true)),
      .move (.run (.client 0)), .move (.ask 1 .lockEvents), .move (.run (.client 1)), .move (.run (.client 1)),
      .move (.run (.client 1)), .move (.run (.client 0))]
    let u := final s tr
    let t := after u [.move (.run (.client 0))]
    tr.length = 16 ∧ unheard s [] tr = [1] ∧ u.lock.pipe.bytes = 1 ∧ u.lock.grabber = some (.client 1) ∧
      t.fault? (.client 0) = some .interrupted ∧ ∃ m, m ≠ 0 ∧ t.isAwaiting m = true := by
  intro s tr u t
  have owned := byte_owned (follows_play s _ : Follows s tr)
  obtain ⟨bytes, -, -, -, reads⟩ := owned
  have mine : unheard s [] tr = [1] := by decide +kernel
  have interrupted : t.fault? (.client 0) = some .interrupted := by decide +kernel
  refine ⟨by decide +kernel, mine, bytes.trans (by rw [mine]; rfl), by decide +kernel, interrupted, ?_⟩
  rcases reads 0 .drain (.move (.run (.client 0))) t (step_after (by decide +kernel)) (by decide +kernel)
    interrupted with ⟨_, failed⟩ | other
  · have none_fails : Endpoint.pollFault? u.endpoint = none := by decide +kernel
    rw [none_fails] at failed; cases failed
  · exact other

end

end System

end HidGate
