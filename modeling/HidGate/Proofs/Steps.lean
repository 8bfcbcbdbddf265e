import HidGate.System
import HidGate.Proofs.ReadStep

/-!
# One step of a party

All that a step of the listener and of a client can do, each case with what brings it about.
-/

namespace HidGate

variable {σ : Type} [Endpoint σ]

/-! ## The listener -/

inductive DutyStep (wanted : Bool) (g : Gate σ) : Duty → Worker → Gate σ → Prop
  | goesOn (on : wanted = true) : DutyStep wanted g .check (.working .acquire) g
  | exits (off : wanted = false) : DutyStep wanted g .check .finished (g.note .listener .listenerExiting)
  | acquires (free : g.lock.reader = none) :
      DutyStep wanted g .acquire (.working (.read .poll)) { g with lock := { g.lock with reader := some .listener } }
  | reads {st : ReadStage} {next : ReadNext} {g' : Gate σ} (step : ReadStep .listener true g st next g') :
      DutyStep wanted g (.read st) (Duty.ofRead (next, g')).1 (Duty.ofRead (next, g')).2
  | drained {n : Nat} : DutyStep wanted g (.leave (.ok n)) (.working .gate)
      ({ g with lock := g.lock.release }.note .listener (.listenerDrained n))
  | bears {f : Fault} (transient : f.isTransient = true) :
      DutyStep wanted g (.leave (.error f)) (.working .gate) { g with lock := g.lock.release }
  | fails {f : Fault} (hard : f.isTransient = false) : DutyStep wanted g (.leave (.error f)) (.working .pause)
      ({ g with lock := g.lock.release }.note .listener (.listenerFailed f))
  | resumes : DutyStep wanted g .pause (.working .gate) g
  | grabs (free : g.lock.grabber = none) :
      DutyStep wanted g .gate (.working .pass) { g with lock := { g.lock with grabber := some .listener } }
  | passes : DutyStep wanted g .pass (.working .check) { g with lock := g.lock.ungrab }

theorem SoftLock.acquire?_eq_some {l l' : SoftLock} {p : Party} :
    l.acquire? p = some l' ↔ l.reader = none ∧ l' = { l with reader := some p } := by
  simp only [SoftLock.acquire?, Option.isNone_iff_eq_none]
  split <;> simp_all [eq_comm]

theorem SoftLock.grab?_eq_some {l l' : SoftLock} {p : Party} :
    l.grab? p = some l' ↔ l.grabber = none ∧ l' = { l with grabber := some p } := by
  simp only [SoftLock.grab?, Option.isNone_iff_eq_none]
  split <;> simp_all [eq_comm]

theorem Duty.dutyStep {wanted : Bool} {d : Duty} {g g' : Gate σ} {w : Worker}
    (h : d.step? wanted g = some (w, g')) : DutyStep wanted g d w g' := by
  cases d with
  | check =>
    simp only [Duty.step?, Option.some.injEq] at h
    split at h
    · rename_i on; cases h; exact .goesOn on
    · rename_i off; cases h; exact .exits (Bool.eq_false_iff.mpr off)
  | acquire =>
    simp only [Duty.step?, Option.map_eq_some_iff, SoftLock.acquire?_eq_some] at h
    obtain ⟨l, ⟨free, rfl⟩, h⟩ := h
    cases h; exact .acquires free
  | read st =>
    simp only [Duty.step?, Option.map_eq_some_iff] at h
    obtain ⟨⟨next, g₁⟩, hr, h⟩ := h
    have : DutyStep wanted g (.read st) _ _ := .reads (ReadStage.readStep hr)
    rwa [h] at this
  | leave result =>
    simp only [Duty.step?, Option.some.injEq] at h
    cases result with
    | ok n => cases h; exact .drained
    | error f =>
      simp only [report] at h
      split at h
      · rename_i ht; cases h; exact .bears ht
      · rename_i ht; cases h; exact .fails (Bool.eq_false_iff.mpr ht)
  | pause => cases h; exact .resumes
  | gate =>
    simp only [Duty.step?, Option.map_eq_some_iff, SoftLock.grab?_eq_some] at h
    obtain ⟨l, ⟨free, rfl⟩, h⟩ := h
    cases h; exact .grabs free
  | pass => cases h; exact .passes

theorem DutyStep.step? {wanted : Bool} {d : Duty} {g g' : Gate σ} {w : Worker} (h : DutyStep wanted g d w g') :
    d.step? wanted g = some (w, g') := by
  cases h with
  | goesOn on => simp only [Duty.step?, on, if_true]
  | exits off => rw [off]; rfl
  | acquires free => simp only [Duty.step?, SoftLock.acquire?, free, Option.isNone_none, if_true, Option.map_some]
  | reads step => simp only [Duty.step?, step.step?, Option.map_some]
  | drained | resumes | passes => rfl
  | bears transient => simp only [Duty.step?, Duty.report, transient, if_true]
  | fails hard => simp [Duty.step?, Duty.report, hard]
  | grabs free => simp only [Duty.step?, SoftLock.grab?, free, Option.isNone_none, if_true, Option.map_some]

theorem Duty.expire?_eq_some {d : Duty} {g g' : Gate σ} {w : Worker} (h : d.expire? g = some (w, g')) :
    d = .read .poll ∧ w = .working (.leave (.error .timeout)) ∧ g' = g := by
  cases d with
  | read st =>
    simp only [Duty.expire?, Option.map_eq_some_iff] at h
    obtain ⟨next, hn, h⟩ := h
    obtain ⟨rfl, rfl⟩ := ReadStage.expire?_eq_some hn
    cases h
    exact ⟨rfl, rfl, rfl⟩
  | _ => cases h

/-! ## Clients -/

namespace Handle

/-- `answered` is any call that ends with its first step and leaves the handle as it was. -/
inductive ClientStep (n : Nat) (client : Client) (h : Handle σ) : Client → Handle σ → Prop
  | answered {c : Call} {reply : Reply} (doing : client.activity = .enter c)
      (enter : h.enter n client c = (client.answer reply, h)) : ClientStep n client h (client.answer reply) h
  | steals {c : Call} {errand : Errand} (doing : client.activity = .enter c)
      (enter : h.enter n client c = (client.goOn (.steal .grab errand), h))
      (running : h.listener.isRunning = true) : ClientStep n client h (client.goOn (.steal .grab errand)) h
  | granted (doing : client.activity = .enter .lockEvents) (idle : h.listener.isRunning = false) :
      ClientStep n client h (client.grant ⟨number, false⟩) h
  | unlocks {p : Permit} {ps : List Permit} (doing : client.activity = .enter .unlock)
      (held : client.permits = p :: ps) :
      ClientStep n client h ({ client with permits := ps }.finish .done)
        (if p.exclusive then h.withLock h.gate.lock.release else h)
  | reads {permit : Permit} {buffer : Bytes} {propagate : Bool}
      (doing : client.activity = .enter (.read permit buffer propagate)) (fine : readRefusal? permit buffer = none) :
      ClientStep n client h (client.goOn (.read .poll buffer propagate)) h
  | requests {kind : ReportKind} {r : Request} (doing : client.activity = .enter (.request kind r))
      (fine : r.refusal? kind = none) (idle : h.listener.isRunning = false) :
      ClientStep n client h (client.goOn (.exchange r false)) h
  | writes {report : Bytes} (doing : client.activity = .enter (.write report)) :
      ClientStep n client h (client.finish (h.gate.writeReport (.client n) report).1)
        (h.onGate (h.gate.writeReport (.client n) report).2)
  | propagates {report : Bytes} (doing : client.activity = .enter (.propagate report)) :
      ClientStep n client h (client.finish (h.gate.propagateReport (.client n) report).1)
        (h.onGate (h.gate.propagateReport (.client n) report).2)
  | registers {handler : Option Handler} (doing : client.activity = .enter (.register handler)) :
      ClientStep n client h (client.finish .done) (h.onGate (h.gate.register handler))
  | starts (doing : client.activity = .enter (.start none)) (stopped : h.listener = .stopped)
      (fine : canName h.config.threadName = true) :
      ClientStep n client h (client.finish .done)
        ({ h with listener := .running true (.working .check) }
          |>.note .listener .listenerStarted |>.note (.client n) (.listening h.config.threadName))
  | stops {c : Call} {closing : Bool} (doing : client.activity = .enter c) (exclusive : c.isExclusive = true)
      (running : h.listener.isRunning = true) : ClientStep n client h (client.goOn (.halt .clear closing)) h
  | closes (doing : client.activity = .enter .close) (idle : h.listener.isRunning = false) :
      ClientStep n client h (client.goOn .release) h
  | stealing {st st' : Steal} {errand : Errand} {l : SoftLock} (doing : client.activity = .steal st errand)
      (step : st.step? (.client n) h.gate.lock = some (l, some st')) :
      ClientStep n client h (client.goOn (.steal st' errand)) (h.withLock l)
  | stolen {errand : Errand} (doing : client.activity = .steal .ungrab errand) :
      ClientStep n client h (stolen client errand) (h.withLock h.gate.lock.ungrab)
  | reading {st : ReadStage} {buffer : Bytes} {propagate : Bool} {next : ReadNext} {g : Gate σ}
      (doing : client.activity = .read st buffer propagate)
      (step : ReadStep (.client n) propagate h.gate st next g) :
      ClientStep n client h (afterRead client buffer propagate next) (h.onGate g)
  | exchanges {r : Request} {exclusive : Bool} (doing : client.activity = .exchange r exclusive) :
      ClientStep n client h (client.goOn (.leave exclusive (r.perform (.client n) h.gate).1))
        (h.onGate (r.perform (.client n) h.gate).2)
  | leaves {exclusive : Bool} {reply : Reply} (doing : client.activity = .leave exclusive reply) :
      ClientStep n client h (client.answer reply) (if exclusive then h.withLock h.gate.lock.release else h)
  | halting {st st' : Halt} {closing : Bool} {h' : Handle σ} (doing : client.activity = .halt st closing)
      (step : h.halt? (.client n) st = some (some st', h')) :
      ClientStep n client h (client.goOn (.halt st' closing)) h'
  | halted {st : Halt} {closing : Bool} {h' : Handle σ} (doing : client.activity = .halt st closing)
      (step : h.halt? (.client n) st = some (none, h')) :
      ClientStep n client h (if closing then client.goOn .release else client.finish .done) h'
  | releases (doing : client.activity = .release) :
      ClientStep n client h (client.finish .done) { h with released := h.released + 1 }

variable {n : Nat} {client client' : Client} {h h' : Handle σ}

theorem enter_clientStep {c : Call} (hc : client.activity = .enter c) (hs : h.enter n client c = (client', h')) :
    ClientStep n client h client' h' := by
  have hs' := hs
  cases c with
  | lockEvents =>
    simp only [enter] at hs
    split at hs
    · rename_i hl; cases hs; exact .steals hc hs' hl
    · rename_i hl; cases hs; exact .granted hc (Bool.eq_false_iff.mpr hl)
  | unlock =>
    simp only [enter] at hs
    split at hs
    · cases hs; exact .answered hc hs'
    · rename_i p ps hp; cases hs; exact .unlocks hc hp
  | read permit buffer propagate =>
    simp only [enter] at hs
    split at hs
    · cases hs; exact .answered hc hs'
    · rename_i hr; cases hs; exact .reads hc hr
  | request kind r =>
    simp only [enter] at hs
    split at hs
    · cases hs; exact .answered hc hs'
    · rename_i hr
      split at hs
      · rename_i hl; cases hs; exact .steals hc hs' hl
      · rename_i hl; cases hs; exact .requests hc hr (Bool.eq_false_iff.mpr hl)
  | write report =>
    simp only [enter] at hs
    split at hs
    · cases hs; exact .answered hc hs'
    · cases hs; exact .writes hc
  | propagate report => cases hs; exact .propagates hc
  | register handler => cases hs; exact .registers hc
  | start refusal =>
    simp only [enter, start] at hs
    split at hs
    · cases hs; exact .answered hc hs'
    · rename_i hl
      split at hs
      · cases hs; exact .answered hc hs'
      · rename_i hn
        cases refusal with
        | some e => cases hs; exact .answered hc hs'
        | none =>
          cases hs
          refine .starts hc ?_ (by simpa using hn)
          cases h₀ : h.listener with
          | stopped => rfl
          | running wanted w => rw [h₀] at hl; exact absurd rfl hl
  | stop =>
    simp only [enter] at hs
    split at hs
    · rename_i hl; cases hs; exact .stops hc rfl hl
    · cases hs; exact .answered hc hs'
  | close =>
    simp only [enter] at hs
    split at hs
    · rename_i hl; cases hs; exact .stops hc rfl hl
    · rename_i hl; cases hs; exact .closes hc (Bool.eq_false_iff.mpr hl)

theorem clientStep (hs : h.step? n client = some (client', h')) : ClientStep n client h client' h' := by
  cases hc : client.activity with
  | idle => simp [step?, hc] at hs
  | enter c =>
    simp only [step?, hc, Option.some.injEq] at hs
    exact enter_clientStep hc hs
  | steal st errand =>
    simp only [step?, hc, Option.map_eq_some_iff] at hs
    obtain ⟨⟨l, next⟩, hst, hs⟩ := hs
    cases next with
    | some st' => cases hs; exact .stealing hc hst
    | none =>
      cases st with
      | ungrab => cases hst; cases hs; exact .stolen hc
      | grab | take =>
        simp only [Steal.step?, Option.map_eq_some_iff] at hst
        obtain ⟨l', -, hst⟩ := hst
        cases hst
      | announce | clear => cases hst
  | read st buffer propagate =>
    simp only [step?, hc, Option.map_eq_some_iff] at hs
    obtain ⟨⟨next, g⟩, hst, hs⟩ := hs
    cases hs
    exact .reading hc (ReadStage.readStep hst)
  | exchange r exclusive => simp only [step?, hc] at hs; cases hs; exact .exchanges hc
  | leave exclusive reply => simp only [step?, hc] at hs; cases hs; exact .leaves hc
  | halt st closing =>
    simp only [step?, hc, Option.map_eq_some_iff] at hs
    obtain ⟨⟨next, h₁⟩, hst, hs⟩ := hs
    cases next with
    | some st' => cases hs; exact .halting hc hst
    | none => cases hs; exact .halted hc hst
  | release => simp only [step?, hc] at hs; cases hs; exact .releases hc

theorem expire?_eq_some (hs : h.expire? client = some (client', h')) :
    ∃ buffer propagate, client.activity = .read .poll buffer propagate ∧
      client' = client.answer ⟨.fault .timeout, buffer⟩ ∧ h' = h := by
  cases hc : client.activity with
  | read st buffer propagate =>
    simp only [expire?, hc, Option.map_eq_some_iff] at hs
    obtain ⟨next, hn, hs⟩ := hs
    obtain ⟨rfl, rfl⟩ := ReadStage.expire?_eq_some hn
    cases hs
    exact ⟨buffer, propagate, rfl, rfl, rfl⟩
  | _ => simp [expire?, hc] at hs

end Handle

end HidGate
