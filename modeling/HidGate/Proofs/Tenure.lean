import HidGate.Proofs.Lifecycle

/-!
# One interruption in a tenure

From the steal of the read path until the permit is given back, whoever else wants the read path waits. One of those
who wait announces itself, and the others wait for that one. So there is one byte, which wakes one read: the next
whose poll does not fail.
-/

namespace HidGate

theorem Pipe.bytes_of_isEmpty {p : Pipe} (empty : p.isEmpty = true) : p.bytes = 0 := by
  simpa [isEmpty] using empty

theorem Pipe.bytes_of_not_isEmpty {p : Pipe} (byte : p.isEmpty = false) : p.bytes ≠ 0 := by
  simpa [isEmpty] using byte

/-! ## Contenders -/

def Call.isContending : Call → Bool
  | .lockEvents | .request .. => true
  | _ => false

def Activity.isContending : Activity → Bool
  | .idle | .steal .. => true
  | .enter c => c.isContending
  | _ => false

theorem Activity.isExclusive_of_contending {a : Activity} (contends : a.isContending = true) :
    a.isExclusive = false := by
  cases a with
  | enter call => cases call <;> first | rfl | cases contends
  | halt | release => cases contends
  | _ => rfl

namespace Event

variable {σ : Type} [Surroundings σ]

def isContention (n : Nat) (e : Event σ) : Bool :=
  match e with
  | .move (.ask m c) => if m = n then e.isReading else c.isContending
  | _ => true

end Event

namespace System

section
variable {σ : Type} [Surroundings σ] {s t : System σ} {n : Nat} {c d : Client}

def announces (s : System σ) (e : Event σ) (_ : System σ) : Bool := (s.caller? e).isSome

omit [Surroundings σ] in
def conclusion? (n : Nat) (s t : System σ) : Option (Activity × Reply) :=
  match s.clients[n]?, t.clients[n]? with
  | some c, some d => if !c.isIdle && d.isIdle then d.reply.map (c.activity, ·) else none
  | _, _ => none

def conclusions (n : Nat) : System σ → Trace σ → List (Activity × Reply)
  | _, [] => []
  | s, (_, t) :: tr => (conclusion? n s t).toList ++ conclusions n t tr

theorem conclusions_append (tr tr' : Trace σ) :
    conclusions n s (tr ++ tr') = conclusions n s tr ++ conclusions n (final s tr) tr' := by
  induction tr generalizing s with
  | nil => rfl
  | cons x tr ih => rw [List.cons_append, conclusions, ih, conclusions, List.append_assoc]; rfl

omit [Surroundings σ] in
theorem conclusion?_of_at (hc : s.clients[n]? = some c) (hd : t.clients[n]? = some d) :
    conclusion? n s t =
      if !c.activity.isIdle && d.activity.isIdle then d.reply.map (c.activity, ·) else none := by
  simp only [conclusion?, hc, hd]
  rfl

theorem caller?_of_quiet (hc : s.clients[n]? = some c) (quiet : c.activity.isCalling = false) :
    s.caller? (.move (.run (.client n))) = none := by
  simp [caller?, hc, quiet]

end

/-! ## A tenure -/

section
variable {σ : Type} [Endpoint σ] [Surroundings σ] {s t : System σ} {e : Event σ} {n : Nat} {c d : Client}

/-- Client `n` has the read path by a permit, and does nothing but read. The others want the read path. -/
structure Tenure (n : Nat) (s : System σ) (c : Client) : Prop where
  reachable : Reachable s
  listening : s.isListening = true
  owner : s.clients[n]? = some c
  entitled : c.permits ≠ []
  reads : c.activity = .idle ∨ c.activity.isReading = true
  rivals : ∀ (m : Nat) (d : Client), s.clients[m]? = some d → m ≠ n → d.activity.isContending = true

theorem Tenure.reader (h : Tenure n s c) : s.lock.reader = some (.client n) := by
  apply h.reachable.sound.reader_of_client_holds h.owner
  have fits := h.reachable.sound.fits n c h.owner
  cases held : c.permits with
  | nil => exact absurd held h.entitled
  | cons p ps =>
    have exclusive : p.exclusive = true := (fits.permits p (by simp [held])).trans h.listening
    rw [Client.holds, held, List.countP_cons_of_pos exclusive]
    omega

inductive Contention (s : System σ) (m : Nat) (y : Client) (e : Event σ) : SoftLock → Prop
  | waits (quiet : s.caller? e = none) : Contention s m y e s.lock
  | grabs (quiet : s.caller? e = none) (free : s.lock.grabber = none) :
      Contention s m y e { s.lock with grabber := some (.client m) }
  | announces (calls : s.caller? e = some m) (awaits : y.activity.isAwaiting = true)
      (first : ∀ j, s.isAwaiting j = false) : Contention s m y e s.lock.interrupt

inductive TenureStep (n : Nat) (s : System σ) (c : Client) : Event σ → System σ → Client → Prop
  | asks {permit : Permit} {buffer : Bytes} {propagate : Bool} (idle : c.activity = .idle)
      (mine : permit.guards Handle.number = true → permit ∈ c.permits) :
      TenureStep n s c (.move (.ask n (.read permit buffer propagate)))
        (s.turn n ({ c with activity := .enter (.read permit buffer propagate), reply := none }, s.handle))
        { c with activity := .enter (.read permit buffer propagate), reply := none }
  | refused {permit : Permit} {buffer : Bytes} {propagate : Bool} {f : Fault}
      (doing : c.activity = .enter (.read permit buffer propagate))
      (refusal : Handle.readRefusal? permit buffer = some f) :
      TenureStep n s c (.move (.run (.client n))) (s.turn n (c.answer ⟨.fault f, buffer⟩, s.handle))
        (c.answer ⟨.fault f, buffer⟩)
  | begins {permit : Permit} {buffer : Bytes} {propagate : Bool}
      (doing : c.activity = .enter (.read permit buffer propagate))
      (fine : Handle.readRefusal? permit buffer = none) :
      TenureStep n s c (.move (.run (.client n))) (s.turn n (c.goOn (.read .poll buffer propagate), s.handle))
        (c.goOn (.read .poll buffer propagate))
  | reads {st : ReadStage} {buffer : Bytes} {propagate : Bool} {next : ReadNext} {g : Gate σ}
      (doing : c.activity = .read st buffer propagate)
      (step : ReadStep (.client n) propagate s.handle.gate st next g) :
      TenureStep n s c (.move (.run (.client n)))
        (s.turn n (Handle.afterRead c buffer propagate next, s.handle.onGate g))
        (Handle.afterRead c buffer propagate next)
  | late {buffer : Bytes} {propagate : Bool} (doing : c.activity = .read .poll buffer propagate)
      (idle : s.handle.gate.isIdle = true) :
      TenureStep n s c (.move (.expire (.client n))) (s.turn n (c.answer ⟨.fault .timeout, buffer⟩, s.handle))
        (c.answer ⟨.fault .timeout, buffer⟩)
  | rival {move : Move} {m : Nat} {x y : Client} {l : SoftLock} (at_m : s.clients[m]? = some x) (other : m ≠ n)
      (contends : y.activity.isContending = true) (lock : Contention s m y (.move move) l) :
      TenureStep n s c (.move move) (s.turn m (y, s.handle.withLock l)) c
  | listener {wanted : Bool} {d : Duty} {w : Worker} {g : Gate σ}
      (on_duty : s.handle.listener = .running wanted (.working d)) (step : DutyStep wanted s.handle.gate d w g)
      (apart : (Worker.working d).holds = 0) : TenureStep n s c (.move (.run .listener)) (s.work wanted (w, g)) c
  | incident (i : Surroundings.Incident σ) :
      TenureStep n s c (.incident i) (s.withEndpoint (Surroundings.befall i s.handle.gate.endpoint)) c

theorem Tenure.rival_step (h : Tenure n s c) {m : Nat} {x y : Client} {k : Handle σ} (other : m ≠ n)
    (at_m : s.clients[m]? = some x) (goes : s.handle.step? m x = some (y, k)) :
    ∃ l, k = s.handle.withLock l ∧ y.activity.isContending = true ∧
      Contention s m y (.move (.run (.client m))) l := by
  have contends := h.rivals m x at_m other
  have running : s.handle.listener.isRunning = true := h.listening
  have held := h.reader
  have quiet (still : x.activity.isCalling = false) := caller?_of_quiet at_m still
  -- whoever is further on in a steal has the read path
  have outside : x.activity.holds = 0 := by
    apply Classical.byContradiction
    intro holds
    have mine := h.reachable.sound.reader_of_client_holds at_m (by rw [Client.holds]; omega)
    cases mine.symm.trans held
    exact other rfl
  cases doing : x.activity with
  | idle => simp [Handle.step?, doing] at goes
  | enter call =>
    rw [doing] at contends quiet
    simp only [Handle.step?, doing, Option.some.injEq] at goes
    cases call with
    | lockEvents =>
      simp only [Handle.enter, running, if_true] at goes
      cases goes
      exact ⟨s.lock, rfl, rfl, .waits (quiet rfl)⟩
    | request kind r =>
      simp only [Handle.enter, running, if_true] at goes
      split at goes
      · cases goes; exact ⟨s.lock, rfl, rfl, .waits (quiet rfl)⟩
      · cases goes; exact ⟨s.lock, rfl, rfl, .waits (quiet rfl)⟩
    | _ => cases contends
  | steal st errand =>
    rw [doing] at outside quiet
    simp only [Handle.step?, doing, Option.map_eq_some_iff] at goes
    obtain ⟨⟨l, next⟩, step, goes⟩ := goes
    cases st with
    | grab =>
      simp only [Steal.step?, Option.map_eq_some_iff, SoftLock.grab?_eq_some] at step
      obtain ⟨_, ⟨free, rfl⟩, step⟩ := step
      cases step; cases goes
      exact ⟨_, rfl, rfl, .grabs (quiet rfl) free⟩
    | announce =>
      cases step; cases goes
      refine ⟨_, rfl, rfl, .announces ?_ rfl fun j => ?_⟩
      · simp [caller?, at_m, doing, Activity.isCalling]
      · cases awaiting : s.isAwaiting j with
        | false => rfl
        | true =>
          have calm := (h.reachable.sound.quiet_of_awaiting awaiting at_m).1
          rw [doing] at calm
          cases calm
    | take =>
      simp only [Steal.step?, Option.map_eq_some_iff, SoftLock.acquire?_eq_some] at step
      obtain ⟨_, ⟨free, -⟩, -⟩ := step
      cases free.symm.trans held
    | clear | ungrab => cases outside
  | _ => rw [doing] at contends; cases contends

theorem Tenure.owner_step (h : Tenure n s c) {k : Handle σ} (goes : s.handle.step? n c = some (d, k)) :
    TenureStep n s c (.move (.run (.client n))) (s.turn n (d, k)) d := by
  cases doing : c.activity with
  | enter call =>
    have reads := h.reads
    rw [doing] at reads
    cases call with
    | read permit buffer propagate =>
      simp only [Handle.step?, doing, Option.some.injEq, Handle.enter] at goes
      split at goes
      · rename_i refusal; cases goes; exact .refused doing refusal
      · rename_i fine; cases goes; exact .begins doing fine
    | _ => rcases reads with idle | reads <;> contradiction
  | read st buffer propagate =>
    simp only [Handle.step?, doing, Option.map_eq_some_iff] at goes
    obtain ⟨⟨next, g⟩, step, goes⟩ := goes
    cases goes
    exact .reads doing (ReadStage.readStep step)
  | idle => simp [Handle.step?, doing] at goes
  | _ =>
    have reads := h.reads
    rw [doing] at reads
    rcases reads with idle | reads <;> contradiction

theorem Tenure.tenureStep (h : Tenure n s c) (st : Step s e t) (calls : e.isContention n = true) :
    ∃ d, TenureStep n s c e t d := by
  have held := h.reader
  cases st.cause with
  | @ask m call x at_m idle _ honored =>
    have idle := Client.isIdle_iff.mp idle
    by_cases other : m = n
    · subst other
      cases at_m.symm.trans h.owner
      cases call with
      | read permit buffer propagate =>
        refine ⟨_, .asks idle fun guards => ?_⟩
        simpa [honors, guards, at_m] using honored
      | _ => simp [Event.isContention, Event.isReading] at calls
    · refine ⟨c, .rival (y := { x with activity := .enter call, reply := none }) at_m other ?_ (.waits rfl)⟩
      simpa [Event.isContention, other, Activity.isContending] using calls
  | @listener wanted d w g on_duty step =>
    refine ⟨c, .listener on_duty (Duty.dutyStep step) ?_⟩
    apply Classical.byContradiction
    intro holds
    have mine : s.lock.reader = some .listener := by
      apply h.reachable.sound.reader_of_holds
      simp only [System.holds, on_duty, Listener.holds]
      omega
    cases mine.symm.trans held
  | @listenerLate wanted d w g on_duty late =>
    obtain ⟨rfl, -, -⟩ := Duty.expire?_eq_some late
    have mine : s.lock.reader = some .listener := by
      apply h.reachable.sound.reader_of_holds
      simp [System.holds, on_duty, Listener.holds, Worker.holds]
    cases mine.symm.trans held
  | @client m x y k at_m goes =>
    by_cases other : m = n
    · subst other
      cases at_m.symm.trans h.owner
      exact ⟨y, h.owner_step goes⟩
    · obtain ⟨l, rfl, contends, lock⟩ := h.rival_step other at_m goes
      exact ⟨c, .rival at_m other contends lock⟩
  | @clientLate m x y k at_m late =>
    by_cases other : m = n
    · subst other
      cases at_m.symm.trans h.owner
      obtain ⟨buffer, propagate, doing, rfl, rfl⟩ := Handle.expire?_eq_some late
      simp only [Handle.expire?, doing, Option.map_eq_some_iff] at late
      obtain ⟨next, waited, -⟩ := late
      exact ⟨_, .late doing (isIdle_of_expire? waited)⟩
    · obtain ⟨_, _, doing, -, -⟩ := Handle.expire?_eq_some late
      have contends := h.rivals m x at_m other
      rw [doing] at contends
      cases contends
  | incident i => exact ⟨c, .incident i⟩

theorem isReading_afterRead (c : Client) (buffer : Bytes) (propagate : Bool) (next : ReadNext) :
    (Handle.afterRead c buffer propagate next).permits = c.permits ∧
      ((Handle.afterRead c buffer propagate next).activity = .idle ∨
        (Handle.afterRead c buffer propagate next).activity.isReading = true) := by
  rcases next with st | (f | report) | _
  · exact ⟨rfl, .inr rfl⟩
  · exact ⟨rfl, .inl rfl⟩
  · exact ⟨rfl, .inl rfl⟩
  · exact ⟨rfl, .inl rfl⟩

theorem Tenure.step (h : Tenure n s c) (st : Step s e t) (step : TenureStep n s c e t d) : Tenure n t d := by
  have reachable := h.reachable.step st
  have of_turn {u : Turn σ} (listener : u.2.listener = s.handle.listener) (permits : u.1.permits = c.permits)
      (reads : u.1.activity = .idle ∨ u.1.activity.isReading = true) (reachable : Reachable (s.turn n u)) :
      Tenure n (s.turn n u) u.1 := by
    have entitled : u.1.permits ≠ [] := by rw [permits]; exact h.entitled
    refine ⟨reachable, ?_, getElem?_set_at h.owner u.1, entitled, reads, fun m x hx other => ?_⟩
    · rw [isListening, turn, listener]; exact h.listening
    · rcases at_turn h.owner hx with ⟨same, -⟩ | ⟨-, hx⟩
      · exact absurd same other
      · exact h.rivals m x hx other
  cases step with
  | asks | begins => exact of_turn rfl rfl (.inr rfl) reachable
  | refused | late => exact of_turn rfl rfl (.inl rfl) reachable
  | @reads st buffer propagate next g =>
    obtain ⟨permits, reads⟩ := isReading_afterRead c buffer propagate next
    exact of_turn (u := (_, s.handle.onGate g)) rfl permits reads reachable
  | @rival _ m x y l at_m other contends =>
    refine ⟨reachable, h.listening, (List.getElem?_set_ne other).trans h.owner, h.entitled, h.reads, ?_⟩
    intro j z hz apart
    rcases at_turn at_m hz with ⟨-, rfl⟩ | ⟨-, hz⟩
    · exact contends
    · exact h.rivals j z hz apart
  | listener on_duty => exact ⟨reachable, rfl, h.owner, h.entitled, h.reads, h.rivals⟩
  | incident => exact ⟨reachable, h.listening, h.owner, h.entitled, h.reads, h.rivals⟩

end

/-! ## The one byte -/

section
variable {σ : Type} [Endpoint σ] [Surroundings σ] {s t : System σ} {e : Event σ} {n : Nat} {c d : Client}

structure Heard (n : Nat) (calls woken : Nat) (s : System σ) : Prop where
  bytes : s.lock.pipe.bytes + woken = calls
  single : calls ≤ 1
  awaited : calls = 1 → ∃ m, s.isAwaiting m = true
  /-- A read that is woken has its byte still before it. -/
  due : s.stage? (.client n) = some .drain → s.lock.pipe.bytes = 1

variable {calls woken : Nat}

theorem Heard.keep (heard : Heard n calls woken s) (h : Tenure n s c) (st : Step s e t)
    (pipe : t.lock.pipe = s.lock.pipe)
    (due : t.stage? (.client n) = some .drain → s.stage? (.client n) = some .drain ∨ s.lock.pipe.isEmpty = false) :
    Heard n calls woken t := by
  have bytes := heard.bytes
  have single := heard.single
  refine ⟨by rw [pipe]; exact bytes, single, fun one => ?_, fun drain => ?_⟩
  · obtain ⟨m, awaiting⟩ := heard.awaited one
    exact ⟨m, awaiting_stays awaiting (by simp [h.reader]) st⟩
  · rw [pipe]
    rcases due drain with before | byte
    · exact heard.due before
    · have some_byte : s.lock.pipe.bytes ≠ 0 := Pipe.bytes_of_not_isEmpty byte
      omega

theorem Heard.taken (heard : Heard n calls woken s) (h : Tenure n s c) (st : Step s e t)
    (before : s.stage? (.client n) = some .drain) (pipe : t.lock.pipe = .empty)
    (after : t.stage? (.client n) ≠ some .drain) : Heard n calls (woken + 1) t := by
  have bytes := heard.bytes
  have byte := heard.due before
  refine ⟨?_, heard.single, fun one => ?_, fun drain => absurd drain after⟩
  · have none_left : t.lock.pipe.bytes = 0 := by rw [pipe]; rfl
    omega
  · obtain ⟨m, awaiting⟩ := heard.awaited one
    exact ⟨m, awaiting_stays awaiting (by simp [h.reader]) st⟩

omit [Endpoint σ] [Surroundings σ] in
theorem Heard.announced (heard : Heard n calls woken s) (first : ∀ j, s.isAwaiting j = false) {m : Nat}
    (awaits : t.isAwaiting m = true) (pipe : t.lock.pipe = s.lock.pipe.notify) : Heard n (calls + 1) woken t := by
  have bytes := heard.bytes
  have single := heard.single
  have none_yet : calls = 0 := by
    apply Classical.byContradiction
    intro some_call
    obtain ⟨j, awaiting⟩ := heard.awaited (by omega)
    rw [first j] at awaiting
    cases awaiting
  have byte : t.lock.pipe.bytes = 1 := by
    have empty : s.lock.pipe.bytes = 0 := by omega
    rw [pipe]
    change min (s.lock.pipe.bytes + 1) Pipe.capacity = 1
    rw [empty]
    rfl
  exact ⟨by omega, by omega, fun _ => ⟨m, awaits⟩, fun _ => byte⟩

omit [Endpoint σ] [Surroundings σ] in
theorem countP_conclusion (hc : s.clients[n]? = some c) (hd : t.clients[n]? = some d)
    (awake : c.activity.isDraining = false) : (conclusion? n s t).toList.countP (·.1.isDraining) = 0 := by
  rw [conclusion?_of_at hc hd]
  split
  · cases d.reply <;> simp [awake]
  · rfl

omit [Endpoint σ] [Surroundings σ] in
theorem conclusion?_of_same (hc : s.clients[n]? = some c) (hd : t.clients[n]? = some c) :
    conclusion? n s t = none := by
  rw [conclusion?_of_at hc hd]
  cases c.activity.isIdle <;> rfl

theorem Heard.still (heard : Heard n calls woken s) (h : Tenure n s c) (st : Step s e t)
    (owner : t.clients[n]? = some d) (quiet : s.caller? e = none) (awake : c.activity.isDraining = false)
    (pipe : t.lock.pipe = s.lock.pipe)
    (due : d.activity.stage? = some .drain → s.lock.pipe.isEmpty = false) :
    Heard n (calls + if announces s e t then 1 else 0)
      (woken + (conclusion? n s t).toList.countP (·.1.isDraining)) t := by
  rw [countP_conclusion h.owner owner awake, announces, quiet]
  refine heard.keep h st pipe fun drain => .inr (due ?_)
  simpa [stage?, owner] using drain

theorem Heard.beside (heard : Heard n calls woken s) (h : Tenure n s c) (st : Step s e t)
    (owner : t.clients[n]? = some c) (quiet : s.caller? e = none) (pipe : t.lock.pipe = s.lock.pipe) :
    Heard n (calls + if announces s e t then 1 else 0)
      (woken + (conclusion? n s t).toList.countP (·.1.isDraining)) t := by
  rw [conclusion?_of_same h.owner owner, announces, quiet]
  refine heard.keep h st pipe fun drain => .inl ?_
  rw [← drain]
  simp [stage?, owner, h.owner]

theorem Heard.of_read (heard : Heard n calls woken s) (h : Tenure n s c) {st : ReadStage} {buffer : Bytes}
    {propagate : Bool} {next : ReadNext} {g : Gate σ} (doing : c.activity = .read st buffer propagate)
    (step : ReadStep (.client n) propagate s.handle.gate st next g)
    (happens : Step s e (s.turn n (Handle.afterRead c buffer propagate next, s.handle.onGate g)))
    (quiet : s.caller? e = none) :
    let t := s.turn n (Handle.afterRead c buffer propagate next, s.handle.onGate g)
    Heard n (calls + if announces s e t then 1 else 0)
      (woken + (conclusion? n s t).toList.countP (·.1.isDraining)) t := by
  intro t
  have owner : t.clients[n]? = some (Handle.afterRead c buffer propagate next) := getElem?_set_at h.owner _
  have goes := (Handle.stage_afterRead c buffer propagate next).1
  rcases step.lock with ⟨other, same⟩ | ⟨rfl, rfl, drained⟩
  · have awake : c.activity.isDraining = false := by
      rw [doing]
      cases st <;> first | rfl | exact absurd rfl other
    refine heard.still h happens owner quiet awake (congrArg SoftLock.pipe same) fun drain => ?_
    rw [goes] at drain
    cases step with
    | wake _ byte => exact byte
    | report => cases propagate <;> cases drain
    | _ => cases drain
  · have concluded : (conclusion? n s t).toList.countP (·.1.isDraining) = 1 := by
      rw [conclusion?_of_at h.owner owner, doing]
      rfl
    rw [concluded, announces, quiet]
    refine heard.taken h happens (stage?_client_iff.mpr ⟨c, buffer, propagate, h.owner, doing⟩) ?_ ?_
    · have empty : g.lock.pipe = .empty := by rw [drained]; exact congrArg Prod.snd (Pipe.drain_eq _)
      exact empty
    · rw [stage?_turn_self h.owner, goes]
      simp [ReadNext.stage?]

theorem Tenure.heard_step (h : Tenure n s c) (st : Step s e t) (step : TenureStep n s c e t d)
    (heard : Heard n calls woken s) :
    Heard n (calls + if announces s e t then 1 else 0)
      (woken + (conclusion? n s t).toList.countP (·.1.isDraining)) t := by
  have owner := (h.step st step).owner
  have quiet {a : Activity} (doing : c.activity = a) (calm : a.isCalling = false) :
      s.caller? (.move (.run (.client n))) = none := caller?_of_quiet h.owner (by rw [doing]; exact calm)
  cases step with
  | asks idle => exact heard.still h st owner rfl (by rw [idle]; rfl) rfl nofun
  | refused doing | begins doing => exact heard.still h st owner (quiet doing rfl) (by rw [doing]; rfl) rfl nofun
  | late doing => exact heard.still h st owner rfl (by rw [doing]; rfl) rfl nofun
  | reads doing step => exact heard.of_read h doing step st (quiet doing rfl)
  | incident => exact heard.beside h st owner rfl rfl
  | listener _ step apart =>
    refine heard.beside h st owner rfl ((Duty.step?_passing step.step?).2 fun drain => ?_)
    cases step with
    | reads => exact absurd apart Nat.one_ne_zero
    | _ => cases drain
  | @rival _ m x y l at_m other contends lock =>
    cases lock with
    | waits quiet | grabs quiet => exact heard.beside h st owner quiet rfl
    | announces calls awaits first =>
      rw [conclusion?_of_same h.owner owner, System.announces, calls]
      exact heard.announced first ((isAwaiting_turn_self at_m _).trans awaits) rfl

theorem Tenure.heard {tr : Trace σ} (h : Tenure n s c) (hf : Follows s tr)
    (calls_only : ∀ x ∈ tr, x.1.isContention n = true) (heard : Heard n calls woken s) :
    (∃ d, Tenure n (final s tr) d) ∧
      Heard n (calls + count announces s tr) (woken + (conclusions n s tr).countP (·.1.isDraining)) (final s tr) := by
  induction tr generalizing s c calls woken with
  | nil => exact ⟨⟨c, h⟩, heard⟩
  | cons x tr ih =>
    obtain ⟨e, t⟩ := x
    obtain ⟨d, step⟩ := h.tenureStep hf.1 (calls_only (e, t) List.mem_cons_self)
    have rest := ih (h.step hf.1 step) hf.2 (fun x hx => calls_only x (List.mem_cons_of_mem _ hx))
      (h.heard_step hf.1 step heard)
    rw [count, conclusions, List.countP_append, ← Nat.add_assoc, ← Nat.add_assoc]
    exact rest

/-! ### What becomes of the owner's reads -/

/-- A poll that does not fail is woken exactly if a contender has announced itself and no read was woken for it. -/
theorem Heard.wakes_iff (heard : Heard n calls woken s) (polls : s.stage? (.client n) = some .poll)
    (st : Step s (.move (.run (.client n))) t) :
    t.stage? (.client n) = some .drain ↔ Endpoint.pollFault? s.endpoint = none ∧ woken < calls := by
  have bytes := heard.bytes
  obtain ⟨next, g, step, goes, -⟩ := st.reads polls
  rw [goes]
  cases step with
  | pollFault fault =>
    have fails : Endpoint.pollFault? s.endpoint ≠ none := by
      intro none_fails
      cases none_fails.symm.trans fault
    simp [ReadNext.stage?, fails]
  | wake fault byte =>
    have some_byte : s.lock.pipe.bytes ≠ 0 := Pipe.bytes_of_not_isEmpty byte
    exact ⟨fun _ => ⟨fault, by omega⟩, fun _ => rfl⟩
  | ready _ byte =>
    have no_byte : s.lock.pipe.bytes = 0 := Pipe.bytes_of_isEmpty byte
    constructor
    · intro drain
      cases drain
    · rintro ⟨-, due⟩
      omega

theorem Heard.of_late (heard : Heard n calls woken s) (st : Step s (.move (.expire (.client n))) t) :
    woken = calls := by
  have bytes := heard.bytes
  cases st.cause with
  | clientLate at_n late =>
    obtain ⟨_, _, doing, -, -⟩ := Handle.expire?_eq_some late
    simp only [Handle.expire?, doing, Option.map_eq_some_iff] at late
    obtain ⟨next, waited, -⟩ := late
    have idle := isIdle_of_expire? waited
    simp only [Gate.isIdle, Bool.and_eq_true] at idle
    have no_byte : s.lock.pipe.bytes = 0 := Pipe.bytes_of_isEmpty idle.1.2
    omega

theorem ends_interrupted (wakes : s.stage? (.client n) = some .drain) (st : Step s (.move (.run (.client n))) t) :
    t.endpoint = s.endpoint ∧ t.journal = s.journal ∧ ∃ buffer propagate,
      conclusion? n s t = some (.read .drain buffer propagate, ⟨.fault .interrupted, buffer⟩) := by
  obtain ⟨c, buffer, propagate, hc, doing⟩ := stage?_client_iff.mp wakes
  cases st.cause with
  | client at_n goes =>
    cases at_n.symm.trans hc
    simp only [Handle.step?, doing, ReadStage.step?, Option.map_some, Option.some.injEq] at goes
    cases goes
    refine ⟨rfl, rfl, buffer, propagate, ?_⟩
    rw [conclusion?_of_at hc (getElem?_set_at hc _), doing]
    rfl

end

/-! ## How a tenure begins -/

section
variable {σ : Type} [Endpoint σ] [Surroundings σ] {s t : System σ} {n : Nat} {c : Client}

/-- Whoever has stolen the read path has emptied the pipe. -/
theorem Reachable.pipe_of_stolen (hs : Reachable s) (hc : s.clients[n]? = some c) {errand : Errand}
    (steals : c.activity = .steal .ungrab errand) : s.lock.pipe = .empty := by
  obtain ⟨ns, owned⟩ := hs.owned
  have nobody : ns = [] := by
    apply List.eq_nil_iff_forall_not_mem.mpr
    intro m hm
    obtain ⟨d, hd, place⟩ := hs.sound.place_of_called (owned.called m hm)
    rcases place with ⟨errand', doing, grabber⟩ | ⟨closing, doing⟩
    · have mine := hs.sound.grabber_of_client_grabs hc (by rw [steals]; exact Nat.one_pos)
      cases mine.symm.trans grabber
      cases hd.symm.trans hc
      rw [steals] at doing
      rcases doing with doing | doing <;> cases doing
    · have alone := hs.sound.shared_of_busy hc (by simp [steals]) hd
      by_cases same : m = n
      · subst same
        cases hd.symm.trans hc
        rw [steals] at doing
        rcases doing with doing | doing <;> cases doing
      · have shared := alone same
        rcases doing with doing | doing <;> (rw [doing] at shared; cases shared)
  have bytes := owned.bytes
  rw [nobody] at bytes
  exact Pipe.ext bytes

theorem Reachable.tenure_begins (hs : Reachable s) (hc : s.clients[n]? = some c)
    (steals : c.activity = .steal .ungrab .permit) (granted : Step s (.move (.run (.client n))) t)
    (rivals : ∀ (m : Nat) (d : Client), t.clients[m]? = some d → m ≠ n → d.activity.isContending = true) :
    (∃ d, Tenure n t d ∧ d.activity = .idle) ∧ t.lock.grabber = none ∧ t.lock.pipe = .empty := by
  have empty := hs.pipe_of_stolen hc steals
  have reachable := hs.step granted
  have listening : s.isListening = true := by
    have fits := (hs.sound.fits n c hc).activity
    rwa [steals] at fits
  cases granted.cause with
  | client at_n goes =>
    cases at_n.symm.trans hc
    simp only [Handle.step?, steals, Steal.step?, Option.map_some, Option.some.injEq] at goes
    cases goes
    refine ⟨⟨_, ⟨reachable, listening, getElem?_set_at hc _, ?_, .inl rfl, rivals⟩, rfl⟩, rfl, empty⟩
    simp [Handle.stolen]

theorem Tenure.unheard (h : Tenure n s c) (idle : c.activity = .idle) (empty : s.lock.pipe = .empty) :
    Heard n 0 0 s := by
  refine ⟨by rw [empty]; rfl, Nat.zero_le 1, by simp, fun drain => ?_⟩
  simp [stage?, h.owner, idle, Activity.stage?] at drain

end

end System

end HidGate
