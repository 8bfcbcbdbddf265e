import HidGate.Proofs.Locking

/-!
# The conduct of clients

What a client may hold and do while the listener runs, and while it does not. A step of the client keeps to
this, and changes the listener only by starting or stopping it.
-/

namespace HidGate

/-! ## Clients -/

def Activity.Fits (listening : Bool) (permits : List Permit) : Activity → Prop
  | .enter (.read permit _ _) => permit.guards Handle.number = true → permit ∈ permits
  | .steal _ _ => listening = true
  | .read _ _ _ => permits ≠ []
  | .exchange _ exclusive | .leave exclusive _ => exclusive = listening
  | .halt .drain _ | .release => listening = false
  | .halt _ _ => listening = true
  | _ => True

structure Client.Fits (listening : Bool) (c : Client) : Prop where
  permits : ∀ p ∈ c.permits, p.exclusive = listening
  activity : c.activity.Fits listening c.permits

def Client.isAside (c : Client) : Bool := c.isIdle && c.permits.isEmpty

theorem Client.isIdle_iff {c : Client} : c.isIdle = true ↔ c.activity = .idle := by
  unfold Client.isIdle Activity.isIdle
  cases c.activity <;> simp

theorem Client.isAside_iff {c : Client} : c.isAside = true ↔ c.activity = .idle ∧ c.permits = [] := by
  rw [Client.isAside, Bool.and_eq_true, Client.isIdle_iff, List.isEmpty_iff]

theorem Client.Fits.of_isAside {c : Client} (h : c.isAside = true) (listening : Bool) : c.Fits listening := by
  obtain ⟨ha, hp⟩ := Client.isAside_iff.mp h
  exact ⟨by simp [hp], by rw [ha]; trivial⟩

theorem Client.Fits.holds_of_read {c : Client} (hf : c.Fits true) {st : ReadStage} {buffer : Bytes}
    {propagate : Bool} (ha : c.activity = .read st buffer propagate) : 0 < c.holds := by
  obtain ⟨hp, hact⟩ := hf
  rw [ha] at hact
  cases hps : c.permits with
  | nil => exact absurd hps hact
  | cons p ps =>
    have hx : p.exclusive = true := hp p (by rw [hps]; exact List.mem_cons_self)
    rw [Client.holds, hps, List.countP_cons_of_pos hx]
    omega

namespace Handle

variable {σ : Type}

/-! ## What a client's step does to the listener -/

inductive Steering (a : Activity) (l l' : Listener) : Prop
  | keep (same : l' = l)
  | start (doing : a = .enter (.start none)) (before : l = .stopped) (after : l' = .running true (.working .check))
  | clear (closing wanted : Bool) (w : Worker) (doing : a = .halt .clear closing) (before : l = .running wanted w)
      (after : l' = .running false w)
  | join (closing wanted : Bool) (w : Worker) (doing : a = .halt .join closing) (before : l = .running wanted w)
      (ended : w = .finished ∨ w = .crashed) (after : l' = .stopped)

theorem halt?_steering {who : Party} {h h' : Handle σ} {st : Halt} {next : Option Halt} {closing : Bool}
    (hs : h.halt? who st = some (next, h')) : Steering (.halt st closing) h.listener h'.listener := by
  cases st with
  | clear =>
    simp only [halt?] at hs
    split at hs <;> cases hs
    · exact .keep rfl
    · rename_i wanted w hl; exact .clear closing wanted w rfl hl rfl
  | wake => cases hs; exact .keep rfl
  | join =>
    simp only [halt?] at hs
    split at hs
    · rename_i wanted hl; cases hs; exact .join closing wanted _ rfl hl (.inl rfl) rfl
    · rename_i wanted hl; cases hs; exact .join closing wanted _ rfl hl (.inr rfl) rfl
    · cases hs
  | drain => cases hs; exact .keep rfl

theorem halt?_fits {who : Party} {h h' : Handle σ} {st : Halt} {next : Option Halt} {closing : Bool}
    {permits : List Permit} (ha : (Activity.halt st closing).Fits h.listener.isRunning permits)
    (hs : h.halt? who st = some (next, h')) :
    match next with
    | some st' => (Activity.halt st' closing).Fits h'.listener.isRunning permits
    | none => h'.listener.isRunning = false := by
  cases st with
  | clear =>
    simp only [halt?] at hs
    split at hs
    · rename_i hl; cases hs; simp [hl, Listener.isRunning]
    · cases hs; rfl
  | wake => cases hs; exact ha
  | join =>
    simp only [halt?] at hs
    split at hs
    · cases hs; rfl
    · cases hs; rfl
    · cases hs
  | drain => cases hs; exact ha

variable [Endpoint σ]

theorem step?_steering {n : Nat} {client client' : Client} {h h' : Handle σ}
    (hs : h.step? n client = some (client', h')) : Steering client.activity h.listener h'.listener := by
  cases clientStep hs with
  | starts doing stopped => exact .start doing stopped rfl
  | halting doing step => rw [doing]; exact halt?_steering step
  | halted doing step => rw [doing]; exact halt?_steering step
  | unlocks | leaves =>
    apply Steering.keep
    split <;> rfl
  | _ => exact .keep rfl

theorem Steering.eq_of_shared {a : Activity} {l l' : Listener} (h : Steering a l l')
    (shared : a.isExclusive = false) : l' = l := by
  cases h with
  | keep same => exact same
  | start doing => subst doing; cases shared
  | clear _ _ _ doing => subst doing; cases shared
  | join _ _ _ doing => subst doing; cases shared

theorem Steering.counts {a : Activity} {l l' : Listener} (h : Steering a l l') :
    l'.holds = l.holds ∧ l'.grabs = l.grabs := by
  cases h with
  | keep same => rw [same]; exact ⟨rfl, rfl⟩
  | start _ before after => rw [before, after]; exact ⟨rfl, rfl⟩
  | clear _ _ _ _ before after => rw [before, after]; exact ⟨rfl, rfl⟩
  | join _ _ _ _ before ended after =>
    rw [before, after]
    rcases ended with rfl | rfl <;> exact ⟨rfl, rfl⟩

/-! ## What a client's step does to the client -/

theorem fits_afterRead {listening : Bool} {client : Client} (hf : ∀ p ∈ client.permits, p.exclusive = listening)
    (hp : client.permits ≠ []) (buffer : Bytes) (propagate : Bool) (next : ReadNext) :
    (afterRead client buffer propagate next).Fits listening := by
  rcases next with st | (f | report) | _
  · exact ⟨hf, hp⟩
  · exact ⟨hf, trivial⟩
  · exact ⟨hf, trivial⟩
  · exact ⟨hf, trivial⟩

theorem fits_grant {listening : Bool} {client : Client} (hf : ∀ p ∈ client.permits, p.exclusive = listening)
    {permit : Permit} (hp : permit.exclusive = listening) : (client.grant permit).Fits listening := by
  refine ⟨fun p hm => ?_, trivial⟩
  rcases List.mem_cons.mp hm with rfl | hm
  · exact hp
  · exact hf p hm

theorem step?_fits {n : Nat} {client client' : Client} {h h' : Handle σ} (hf : client.Fits h.listener.isRunning)
    (alone : client.activity.isExclusive = true → client.permits = [])
    (hs : h.step? n client = some (client', h')) : client'.Fits h'.listener.isRunning := by
  obtain ⟨hp, ha⟩ := hf
  cases clientStep hs with
  | answered | writes | propagates | registers | releases => exact ⟨hp, trivial⟩
  | steals _ _ running => exact ⟨hp, running⟩
  | granted _ idle => exact fits_grant hp idle.symm
  | @unlocks p ps doing held =>
    have same : (if p.exclusive then h.withLock h.gate.lock.release else h).listener = h.listener := by
      split <;> rfl
    rw [same]
    refine ⟨fun q hq => hp q ?_, trivial⟩
    rw [held]
    exact List.mem_cons_of_mem p hq
  | @reads permit buffer propagate doing fine =>
    -- a permit that is not refused is one that the client holds
    refine ⟨hp, fun hnil => ?_⟩
    have hg : permit.guards number = true := by
      unfold readRefusal? at fine
      split at fine
      · cases fine
      · rename_i hg; simpa using hg
    rw [doing] at ha
    have hm : permit ∈ client.permits := ha hg
    rw [show client.permits = [] from hnil] at hm; cases hm
  | requests _ _ idle => exact ⟨hp, idle.symm⟩
  | starts doing =>
    have hnil := alone (by rw [doing]; rfl)
    refine ⟨fun p hm => ?_, trivial⟩
    rw [Client.finish_permits, hnil] at hm; cases hm
  | stops _ _ running => exact ⟨hp, running⟩
  | closes _ idle => exact ⟨hp, idle⟩
  | stealing doing => rw [doing] at ha; exact ⟨hp, ha⟩
  | @stolen errand doing =>
    rw [doing] at ha
    have running : h.listener.isRunning = true := ha
    cases errand with
    | permit => exact fits_grant hp running.symm
    | request r => exact ⟨hp, running.symm⟩
  | reading doing => rw [doing] at ha; exact fits_afterRead hp ha ..
  | exchanges doing => rw [doing] at ha; exact ⟨hp, ha⟩
  | leaves doing =>
    refine ⟨?_, trivial⟩
    split <;> exact hp
  | @halting st st' closing h' doing step =>
    have hnil := alone (by rw [doing]; rfl)
    rw [doing] at ha
    exact ⟨by simp [hnil], halt?_fits ha step⟩
  | @halted st closing h' doing step =>
    have hnil := alone (by rw [doing]; rfl)
    rw [doing] at ha
    have stopped : h'.listener.isRunning = false := halt?_fits ha step
    cases closing with
    | true => exact ⟨by simp [hnil], stopped⟩
    | false => exact ⟨by simp [hnil], trivial⟩

theorem step?_exclusive {n : Nat} {client client' : Client} {h h' : Handle σ}
    (hs : h.step? n client = some (client', h')) (he : client'.activity.isExclusive = true) :
    client.activity.isExclusive = true ∧ client'.permits = client.permits := by
  cases clientStep hs with
  | stops doing exclusive => rw [doing]; exact ⟨exclusive, rfl⟩
  | closes doing | halting doing => rw [doing]; exact ⟨rfl, rfl⟩
  | @halted st closing h' doing =>
    rw [doing]
    cases closing <;> exact ⟨rfl, rfl⟩
  | @stolen errand => cases errand <;> cases he
  | @reading st buffer propagate next => rcases next with st | (f | report) | _ <;> cases he
  | _ => cases he

end Handle

end HidGate
