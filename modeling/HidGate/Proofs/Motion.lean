import HidGate.Proofs.Reading

/-!
# What moves in a step

Reports leave an endpoint in reads only, and a step is a step of at most one read. This module says of each step
what becomes of the endpoint, of the journal and of everybody's place in a read.
-/

namespace HidGate

variable {σ : Type}

/-! ## Outside of reads -/

def Entry.isAside : Entry → Bool
  | .notice _ (.received _) | .handed .. => false
  | _ => true

inductive Touch [Endpoint σ] (b : σ) : σ → Prop
  | keep : Touch b b
  | write (report : Bytes) : Touch b (Endpoint.write report b).2
  | get (scratch : Bytes) : Touch b (Endpoint.getFeature scratch b).2
  | set (report : Bytes) : Touch b (Endpoint.setFeature report b).2

namespace Gate

variable [Endpoint σ]

structure Aside (g g' : Gate σ) : Prop where
  endpoint : Touch g.endpoint g'.endpoint
  journal : ∃ J, g'.journal = g.journal ++ J ∧ ∀ x ∈ J, x.isAside = true

theorem Aside.of_eq {g g' : Gate σ} (endpoint : g'.endpoint = g.endpoint) (journal : g'.journal = g.journal) :
    g.Aside g' :=
  ⟨by rw [endpoint]; exact .keep, [], by rw [journal, List.append_nil], by simp⟩

theorem Aside.note {g g' : Gate σ} (h : g.Aside g') (who : Party) (n : Notice)
    (hn : (Entry.notice who n).isAside = true) : g.Aside (g'.note who n) := by
  obtain ⟨endpoint, J, hJ, ha⟩ := h
  refine ⟨endpoint, J ++ [.notice who n], ?_, ?_⟩
  · rw [note_journal, hJ, List.append_assoc]
  · intro x hx
    rcases List.mem_append.mp hx with hx | hx
    · exact ha x hx
    · rw [List.mem_singleton.mp hx]; exact hn

theorem writeReport_aside (who : Party) (report : Bytes) (g : Gate σ) : g.Aside (g.writeReport who report).2 := by
  have ht : Touch g.endpoint (Endpoint.write report g.endpoint).2 := .write report
  unfold writeReport
  split
  · rename_i heq
    rw [heq] at ht
    exact ⟨ht, [], by simp, by simp⟩
  · rename_i n endpoint heq
    rw [heq] at ht
    have : g.Aside { g with endpoint } := ⟨ht, [], by simp, by simp⟩
    dsimp only
    split
    · exact this.note _ _ rfl
    · exact this

end Gate

theorem Request.perform_aside [Endpoint σ] (who : Party) (r : Request) (g : Gate σ) :
    g.Aside (r.perform who g).2 := by
  unfold perform
  split
  · have ht : Touch g.endpoint (Endpoint.getFeature r.scratch g.endpoint).2 := .get r.scratch
    unfold get
    split
    · rename_i heq
      rw [heq] at ht
      exact ⟨ht, [], by simp, by simp⟩
    · rename_i endpoint heq
      rw [heq] at ht
      have : g.Aside { g with endpoint } := ⟨ht, [], by simp, by simp⟩
      exact this.note _ _ rfl
  · have ht : Touch g.endpoint (Endpoint.setFeature (r.buffer.set 0 r.id) g.endpoint).2 := .set _
    have hn := (Gate.Aside.of_eq (g := g) rfl rfl).note who (.setting r.id (r.buffer.set 0 r.id)) rfl
    unfold set
    dsimp only
    split
    · rename_i heq
      rw [show (g.note who _).endpoint = g.endpoint from rfl] at heq
      rw [heq] at ht
      exact ⟨ht, hn.journal⟩
    · rename_i heq
      rw [show (g.note who _).endpoint = g.endpoint from rfl] at heq
      rw [heq] at ht
      exact ⟨ht, hn.journal⟩

/-! ## How a read goes on and ends -/

def Move.party : Move → Party
  | .ask n _ => .client n
  | .run p | .expire p => p

def ReadNext.stage? : ReadNext → Option ReadStage
  | .stage st => some st
  | _ => none

def ReadNext.fault? : ReadNext → Option Fault
  | .ended (.error f) => some f
  | _ => none

theorem ReadStep.endpoint_of_stage [Endpoint σ] {who : Party} {propagate : Bool} {st st' : ReadStage}
    {g g' : Gate σ} {next : ReadNext} (h : ReadStep who propagate g st next g') (hn : next.stage? = some st')
    (hr : st'.report? = none) : g'.endpoint = g.endpoint := by
  cases h with
  | wake | ready => rfl
  | report =>
    cases propagate with
    | true => cases hn; cases hr
    | false => cases hn
  | _ => cases hn

def Client.fault? (c : Client) : Option Fault :=
  match c.activity, c.reply with
  | .idle, some ⟨.fault f, _⟩ => some f
  | _, _ => none

def Listener.fault? : Listener → Option Fault
  | .running _ (.working (.leave (.error f))) => some f
  | _ => none

def Activity.propagates : Activity → Bool
  | .read _ _ propagate => propagate
  | _ => false

namespace Duty

theorem ofRead_stage (wanted : Bool) (next : ReadNext) (g : Gate σ) :
    (ofRead (next, g)).1.stage? = next.stage? ∧
      (Listener.running wanted (ofRead (next, g)).1).fault? = next.fault? ∧
      (ofRead (next, g)).2.endpoint = g.endpoint ∧ (ofRead (next, g)).2.journal = g.journal ∧
      (ofRead (next, g)).2.lock.pipe = g.lock.pipe := by
  rcases next with st | (f | report) | _ <;> exact ⟨rfl, rfl, rfl, rfl, rfl⟩

theorem step?_aside [Endpoint σ] {wanted : Bool} {d : Duty} {g g' : Gate σ} {w : Worker}
    (h : d.step? wanted g = some (w, g')) (hd : (Worker.working d).stage? = none) :
    g.Aside g' ∧ (w.stage? = none ∨ w.stage? = some .poll) := by
  have same : g.Aside g := .of_eq rfl rfl
  have released : g.Aside { g with lock := g.lock.release } := .of_eq rfl rfl
  cases dutyStep h with
  | reads => cases hd
  | goesOn | resumes => exact ⟨same, .inl rfl⟩
  | exits => exact ⟨same.note _ _ rfl, .inl rfl⟩
  | acquires => exact ⟨.of_eq rfl rfl, .inr rfl⟩
  | drained | fails => exact ⟨released.note _ _ rfl, .inl rfl⟩
  | bears => exact ⟨released, .inl rfl⟩
  | grabs | passes => exact ⟨.of_eq rfl rfl, .inl rfl⟩

end Duty

namespace Handle

theorem stage_afterRead (client : Client) (buffer : Bytes) (propagate : Bool) (next : ReadNext) :
    (afterRead client buffer propagate next).activity.stage? = next.stage? ∧
      (afterRead client buffer propagate next).fault? = next.fault? := by
  rcases next with st | (f | report) | _ <;> exact ⟨rfl, rfl⟩

theorem Steering.stage? {a : Activity} {l l' : Listener} (h : Steering a l l') : l'.stage? = l.stage? := by
  cases h with
  | keep same => rw [same]
  | start _ before after => rw [before, after]; rfl
  | clear _ _ _ _ before after => rw [before, after]; rfl
  | join _ _ _ _ before ended after =>
    rw [before, after]
    rcases ended with rfl | rfl <;> rfl

variable [Endpoint σ] {n : Nat} {client client' : Client} {h h' : Handle σ}

theorem halt?_aside {who : Party} {st : Halt} {next : Option Halt}
    (hs : h.halt? who st = some (next, h')) : h.gate.Aside h'.gate := by
  cases st with
  | clear => simp only [halt?] at hs; split at hs <;> (cases hs; exact .of_eq rfl rfl)
  | wake => cases hs; exact .of_eq rfl rfl
  | join =>
    simp only [halt?] at hs
    split at hs
    · cases hs; exact .of_eq rfl rfl
    · cases hs
      have same : h.gate.Aside h.gate := .of_eq rfl rfl
      exact same.note _ _ rfl
    · cases hs
  | drain =>
    cases hs
    have hd : h.gate.Aside (h.withLock h.gate.lock.drained).gate := .of_eq rfl rfl
    exact hd.note _ _ rfl

theorem step?_aside (hs : h.step? n client = some (client', h')) (hr : client.activity.stage? = none)
    (hc : ∀ report, client.activity ≠ .enter (.propagate report)) :
    h.gate.Aside h'.gate ∧ (client'.activity.stage? = none ∨ client'.activity.stage? = some .poll) := by
  have same : h.gate.Aside h.gate := .of_eq rfl rfl
  cases clientStep hs with
  | answered | steals | granted | requests | stops | closes | releases => exact ⟨same, .inl rfl⟩
  | unlocks | leaves =>
    refine ⟨?_, .inl rfl⟩
    split
    · exact .of_eq rfl rfl
    · exact same
  | reads => exact ⟨same, .inr rfl⟩
  | writes => exact ⟨Gate.writeReport_aside .., .inl rfl⟩
  | @propagates report doing => exact absurd doing (hc report)
  | registers | stealing => exact ⟨.of_eq rfl rfl, .inl rfl⟩
  | starts => exact ⟨(same.note _ _ rfl).note _ _ rfl, .inl rfl⟩
  | @stolen errand => cases errand <;> exact ⟨.of_eq rfl rfl, .inl rfl⟩
  | reading doing => rw [doing] at hr; cases hr
  | exchanges => exact ⟨Request.perform_aside .., .inl rfl⟩
  | halting _ step => exact ⟨halt?_aside step, .inl rfl⟩
  | @halted st closing h' doing step => cases closing <;> exact ⟨halt?_aside step, .inl rfl⟩

end Handle

namespace System

variable {s t : System σ}

def fault? (s : System σ) : Party → Option Fault
  | .listener => s.handle.listener.fault?
  | .client n => s.clients[n]?.bind Client.fault?

def propagates (s : System σ) : Party → Bool
  | .listener => true
  | .client n => s.clients[n]?.any (·.activity.propagates)

theorem propagates_of_read {n : Nat} {c : Client} {st : ReadStage} {buffer : Bytes} {propagate : Bool}
    (hc : s.clients[n]? = some c) (ha : c.activity = .read st buffer propagate) :
    s.propagates (.client n) = propagate := by
  simp [propagates, hc, ha, Activity.propagates]

theorem stage?_turn_self {n : Nat} {client : Client} (hc : s.clients[n]? = some client) (u : Turn σ) :
    (s.turn n u).stage? (.client n) = u.1.activity.stage? := by
  have := getElem?_set_at hc u.1
  simp only [stage?, turn, this, Option.bind_some]

theorem fault?_turn_self {n : Nat} {client : Client} (hc : s.clients[n]? = some client) (u : Turn σ) :
    (s.turn n u).fault? (.client n) = u.1.fault? := by
  have := getElem?_set_at hc u.1
  simp only [fault?, turn, this, Option.bind_some]

theorem stage?_turn_of_ne {n : Nat} (u : Turn σ) (hl : u.2.listener.stage? = s.handle.listener.stage?) {q : Party}
    (hq : q ≠ .client n) : (s.turn n u).stage? q = s.stage? q := by
  cases q with
  | listener => exact hl
  | client m =>
    have hm : n ≠ m := fun h => hq (by rw [h])
    simp [stage?, turn, List.getElem?_set_ne hm]

theorem stage?_work_of_ne (wanted : Bool) (u : Worker × Gate σ) {q : Party} (hq : q ≠ .listener) :
    (s.work wanted u).stage? q = s.stage? q := by
  cases q with
  | listener => exact absurd rfl hq
  | client m => rfl

/-! ## One step -/

section
variable [Endpoint σ] [Surroundings σ]

/-- A step is a step of one read, the end of its time, or aside of all reads. -/
inductive Motion (s t : System σ) : Event σ → Prop
  | read {p : Party} {st : ReadStage} {next : ReadNext} {g : Gate σ} (at_p : s.stage? p = some st)
      (step : ReadStep p (s.propagates p) s.handle.gate st next g)
      (endpoint : t.endpoint = g.endpoint) (journal : t.journal = g.journal) (pipe : t.lock.pipe = g.lock.pipe)
      (goes : t.stage? p = next.stage?) (ends : t.fault? p = next.fault?)
      (others : ∀ q, q ≠ p → t.stage? q = s.stage? q) : Motion s t (.move (.run p))
  | late {p : Party} (at_p : s.stage? p = some .poll) (endpoint : t.endpoint = s.endpoint)
      (journal : t.journal = s.journal)
      (goes : t.stage? p = none) (ends : t.fault? p = some .timeout)
      (others : ∀ q, q ≠ p → t.stage? q = s.stage? q) : Motion s t (.move (.expire p))
  | propagate {n : Nat} {c : Client} {report : Bytes} (at_n : s.clients[n]? = some c)
      (doing : c.activity = .enter (.propagate report))
      (endpoint : t.endpoint = s.endpoint) (stages : ∀ q, t.stage? q = s.stage? q) :
      Motion s t (.move (.run (.client n)))
  | aside {m : Move} (at_p : s.stage? m.party = none) (gate : s.handle.gate.Aside t.handle.gate)
      (goes : t.stage? m.party = none ∨ t.stage? m.party = some .poll)
      (others : ∀ q, q ≠ m.party → t.stage? q = s.stage? q) : Motion s t (.move m)
  | incident (i : Surroundings.Incident σ) (endpoint : t.endpoint = Surroundings.befall i s.endpoint)
      (journal : t.journal = s.journal) (stages : ∀ q, t.stage? q = s.stage? q) : Motion s t (.incident i)

theorem motion_of_client {n : Nat} {client client' : Client} {h' : Handle σ} (hc : s.clients[n]? = some client)
    (step : s.handle.step? n client = some (client', h')) :
    Motion s (s.turn n (client', h')) (.move (.run (.client n))) := by
  have others : ∀ q, q ≠ .client n → (s.turn n (client', h')).stage? q = s.stage? q := fun q hq =>
    stage?_turn_of_ne _ (Handle.step?_steering step).stage? hq
  have self := stage?_turn_self hc (client', h')
  by_cases hp : ∃ report, client.activity = .enter (.propagate report)
  · obtain ⟨report, ha⟩ := hp
    simp only [Handle.step?, ha, Option.some.injEq, Handle.enter] at step
    cases step
    refine .propagate hc ha ?_ fun q => ?_
    · exact Gate.propagateReport_endpoint ..
    · by_cases hq : q = .client n
      · subst hq
        rw [self]
        simp [stage?, hc, ha, Activity.stage?]
      · exact others q hq
  · cases hr : client.activity.stage? with
    | none =>
      obtain ⟨gate, goes⟩ := Handle.step?_aside step hr fun report ha => hp ⟨report, ha⟩
      refine .aside ?_ gate ?_ others
      · simp [Move.party, stage?, hc, hr]
      · rw [Move.party, self]; exact goes
    | some st =>
      have at_n : s.stage? (.client n) = some st := by simp [stage?, hc, hr]
      obtain ⟨c, buffer, propagate, hc', ha⟩ := stage?_client_iff.mp at_n
      rw [hc] at hc'; cases hc'
      have hpr := propagates_of_read hc ha
      simp only [Handle.step?, ha, Option.map_eq_some_iff] at step
      obtain ⟨⟨next, g⟩, hst, step⟩ := step
      cases step
      obtain ⟨goes, ends⟩ := Handle.stage_afterRead client buffer propagate next
      exact .read at_n (by rw [hpr]; exact ReadStage.readStep hst) rfl rfl rfl (self.trans goes)
        ((fault?_turn_self hc _).trans ends) others

theorem motion_of_listener {wanted : Bool} {d : Duty} {w : Worker} {g : Gate σ}
    (hl : s.handle.listener = .running wanted (.working d)) (step : d.step? wanted s.handle.gate = some (w, g)) :
    Motion s (s.work wanted (w, g)) (.move (.run .listener)) := by
  have others : ∀ q, q ≠ .listener → (s.work wanted (w, g)).stage? q = s.stage? q := fun q hq =>
    stage?_work_of_ne wanted _ hq
  cases hr : (Worker.working d).stage? with
  | none =>
    obtain ⟨gate, goes⟩ := Duty.step?_aside step hr
    exact .aside (by simp only [Move.party, stage?, hl]; exact hr) gate goes others
  | some st =>
    cases d with
    | read st' =>
      simp only [Duty.step?, Option.map_eq_some_iff] at step
      obtain ⟨⟨next, g₁⟩, hst, step⟩ := step
      obtain ⟨goes, ends, endpoint, journal, pipe⟩ := Duty.ofRead_stage wanted next g₁
      rw [step] at goes ends endpoint journal pipe
      exact .read (stage?_listener_iff.mpr ⟨wanted, hl⟩) (ReadStage.readStep hst) endpoint journal pipe goes ends
        others
    | _ => cases hr

theorem Step.motion {e : Event σ} (h : Step s e t) : Motion s t e := by
  cases h.cause with
  | @ask n c client hc idle admitted honored =>
    have at_n : s.stage? (.client n) = none := by
      simp [stage?, hc, Client.isIdle_iff.mp idle, Activity.stage?]
    refine .aside at_n (.of_eq rfl rfl) (.inl ?_) fun q hq =>
      stage?_turn_of_ne (_, s.handle) rfl hq
    exact stage?_turn_self hc ({ client with activity := .enter c, reply := none }, s.handle)
  | listener hl step => exact motion_of_listener hl step
  | client hc step => exact motion_of_client hc step
  | listenerLate hl late =>
    obtain ⟨rfl, rfl, rfl⟩ := Duty.expire?_eq_some late
    exact .late (stage?_listener_iff.mpr ⟨_, hl⟩) rfl rfl rfl rfl fun q hq => stage?_work_of_ne _ _ hq
  | clientLate hc late =>
    obtain ⟨buffer, propagate, doing, rfl, rfl⟩ := Handle.expire?_eq_some late
    exact .late (stage?_client_iff.mpr ⟨_, buffer, propagate, hc, doing⟩) rfl rfl (stage?_turn_self hc _)
      (fault?_turn_self hc _) fun q hq => stage?_turn_of_ne _ rfl hq
  | incident i => exact .incident i rfl rfl fun q => by cases q <;> rfl

theorem Step.of_leaves {e : Event σ} (h : Step s e t) {p : Party} {st : ReadStage} (hp : s.stage? p = some st)
    (hp' : t.stage? p ≠ some st) :
    (∃ next g, e = .move (.run p) ∧ ReadStep p (s.propagates p) s.handle.gate st next g ∧
        t.endpoint = g.endpoint ∧ t.lock.pipe = g.lock.pipe ∧ t.stage? p = next.stage? ∧
        t.fault? p = next.fault?) ∨
      (st = .poll ∧ e = .move (.expire p) ∧ t.endpoint = s.endpoint ∧ t.stage? p = none) := by
  have absurd_of_same : t.stage? p = s.stage? p → False := fun same => hp' (same.trans hp)
  cases h.motion with
  | @read q st' next g at_q step endpoint _ pipe goes ends others =>
    by_cases hq : p = q
    · subst hq
      rw [hp] at at_q; cases at_q
      exact .inl ⟨next, g, rfl, step, endpoint, pipe, goes, ends⟩
    · exact (absurd_of_same (others p hq)).elim
  | @late q at_q endpoint _ goes _ others =>
    by_cases hq : p = q
    · subst hq
      rw [hp] at at_q; cases at_q
      exact .inr ⟨rfl, rfl, endpoint, goes⟩
    · exact (absurd_of_same (others p hq)).elim
  | propagate _ _ _ stages => exact (absurd_of_same (stages p)).elim
  | @aside m at_q _ _ others =>
    by_cases hq : p = m.party
    · subst hq
      rw [hp] at at_q; cases at_q
    · exact (absurd_of_same (others p hq)).elim
  | incident _ _ _ stages => exact (absurd_of_same (stages p)).elim

theorem Step.reads {p : Party} (h : Step s (.move (.run p)) t) {st : ReadStage} (hp : s.stage? p = some st) :
    ∃ next g, ReadStep p (s.propagates p) s.handle.gate st next g ∧ t.stage? p = next.stage? ∧
      ∀ q, q ≠ p → t.stage? q = s.stage? q := by
  cases h.motion with
  | @read _ _ next g at_p step _ _ _ goes _ others =>
    rw [hp] at at_p; cases at_p
    exact ⟨next, g, step, goes, others⟩
  | propagate at_n doing =>
    obtain ⟨c, buffer, propagate, hc, ha⟩ := stage?_client_iff.mp hp
    rw [at_n] at hc; cases hc
    rw [doing] at ha; cases ha
  | aside at_p => rw [Move.party, hp] at at_p; cases at_p

theorem step_of_stage {p : Party} {st : ReadStage} {next : ReadNext} {g : Gate σ} (hp : s.stage? p = some st)
    (h : st.step? p (s.propagates p) s.handle.gate = some (next, g)) :
    ∃ u, Step s (.move (.run p)) u ∧ u.endpoint = g.endpoint := by
  cases p with
  | listener =>
    obtain ⟨wanted, hl⟩ := stage?_listener_iff.mp hp
    obtain ⟨-, -, endpoint, -, -⟩ := Duty.ofRead_stage wanted next g
    refine ⟨s.work wanted (Duty.ofRead (next, g)), ⟨rfl, ?_⟩, endpoint⟩
    change st.step? .listener true s.handle.gate = some (next, g) at h
    simp only [happen?, System.next, run?, hl, Duty.step?, h, Option.map_some]
  | client n =>
    obtain ⟨c, buffer, propagate, hc, ha⟩ := stage?_client_iff.mp hp
    rw [propagates_of_read hc ha] at h
    have goes : s.handle.step? n c = some (Handle.afterRead c buffer propagate next, s.handle.onGate g) := by
      simp only [Handle.step?, ha, h, Option.map_some]
    exact ⟨_, step_of_turn hc goes, rfl⟩

end

end System

end HidGate
