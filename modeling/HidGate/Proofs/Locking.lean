import HidGate.Proofs.Run
import HidGate.Proofs.Steps

/-!
# What a step does to the soft lock

Where a party is in its program says how often it holds the read path and how often the right to announce.
Each step does one of seven things to the lock, and the two counts change along with it.
-/

namespace HidGate

/-! ## Counts -/

/-- How often the activity itself holds the read path. A read holds it by a permit of its client. -/
def Activity.holds : Activity → Nat
  | .steal .clear _ | .steal .ungrab _ | .exchange _ true | .leave true _ => 1
  | _ => 0

def Activity.grabs : Activity → Nat
  | .steal .grab _ => 0
  | .steal _ _ => 1
  | _ => 0

def Client.holds (c : Client) : Nat := c.permits.countP (·.exclusive) + c.activity.holds

def Worker.holds : Worker → Nat
  | .working (.read _) | .working (.leave _) => 1
  | _ => 0

def Worker.grabs : Worker → Nat
  | .working .pass => 1
  | _ => 0

def Listener.holds : Listener → Nat
  | .stopped => 0
  | .running _ w => w.holds

def Listener.grabs : Listener → Nat
  | .stopped => 0
  | .running _ w => w.grabs

namespace System

variable {σ : Type}

def holds (s : System σ) : Party → Nat
  | .listener => s.handle.listener.holds
  | .client n => (s.clients[n]?.map Client.holds).getD 0

def grabs (s : System σ) : Party → Nat
  | .listener => s.handle.listener.grabs
  | .client n => (s.clients[n]?.map (·.activity.grabs)).getD 0

end System

/-! ## One step -/

/-- What a step of `p` can do to a lock `l`, while `p` has the read path `k` times and the right to announce
`g` times. A client takes the read path only while it may announce. -/
inductive Locking (p : Party) (l : SoftLock) (k g : Nat) (l' : SoftLock) (k' g' : Nat) : Prop
  | keep (lock : l' = l) (holds : k' = k) (grabs : g' = g)
  | take (free : l.reader = none) (turn : p = .listener ∨ 0 < g)
      (lock : l' = { l with reader := some p }) (holds : k' = k + 1) (grabs : g' = g)
  | give (lock : l' = l.release) (holds : k = k' + 1) (grabs : g' = g)
  | grab (free : l.grabber = none)
      (lock : l' = { l with grabber := some p }) (holds : k' = k) (grabs : g' = g + 1)
  | ungrab (lock : l' = l.ungrab) (holds : k' = k) (grabs : g = g' + 1)
  | interrupt (lock : l' = l.interrupt) (holds : k' = k) (grabs : g' = g)
  | drain (lock : l' = l.drained) (holds : k' = k) (grabs : g' = g)

variable {σ : Type} [Endpoint σ]

/-! ## One step of the listener -/

omit [Endpoint σ] in
theorem Duty.ofRead_locking {g g' : Gate σ} {next : ReadNext} (hl : g'.lock = g.lock) :
    Locking .listener g.lock 1 0 (ofRead (next, g')).2.lock (ofRead (next, g')).1.holds
      (ofRead (next, g')).1.grabs := by
  cases next with
  | stage st => exact .keep hl rfl rfl
  | ended result => exact .keep hl rfl rfl
  | crashed => exact .give (congrArg SoftLock.release hl) rfl rfl

theorem Duty.step?_locking {wanted : Bool} {d : Duty} {g g' : Gate σ} {w : Worker}
    (h : d.step? wanted g = some (w, g')) :
    Locking .listener g.lock (Worker.working d).holds (Worker.working d).grabs g'.lock w.holds w.grabs := by
  cases Duty.dutyStep h with
  | goesOn | exits | resumes => exact .keep rfl rfl rfl
  | acquires free => exact .take free (.inl rfl) rfl rfl rfl
  | reads step =>
    rcases step.lock with ⟨-, hl⟩ | ⟨-, rfl, hl⟩
    · exact ofRead_locking hl
    · exact .drain hl rfl rfl
  | drained | bears | fails => exact .give rfl rfl rfl
  | grabs free => exact .grab free rfl rfl rfl
  | passes => exact .ungrab rfl rfl rfl

theorem Duty.expire?_locking {d : Duty} {g g' : Gate σ} {w : Worker} (h : d.expire? g = some (w, g')) :
    Locking .listener g.lock (Worker.working d).holds (Worker.working d).grabs g'.lock w.holds w.grabs := by
  obtain ⟨rfl, rfl, rfl⟩ := Duty.expire?_eq_some h
  exact .keep rfl rfl rfl

/-! ## One step of a client -/

/-- A step within a steal, by a client that holds the read path `k` times by its permits. -/
theorem Steal.step?_locking (k : Nat) (errand : Errand) {p : Party} {st st' : Steal} {l l' : SoftLock}
    (h : st.step? p l = some (l', some st')) :
    Locking p l (k + (Activity.steal st errand).holds) (Activity.steal st errand).grabs l'
      (k + (Activity.steal st' errand).holds) (Activity.steal st' errand).grabs := by
  cases st with
  | grab =>
    simp only [Steal.step?, Option.map_eq_some_iff, SoftLock.grab?_eq_some] at h
    obtain ⟨l, ⟨hfree, rfl⟩, h⟩ := h
    cases h
    exact .grab hfree rfl rfl rfl
  | announce => cases h; exact .interrupt rfl rfl rfl
  | take =>
    simp only [Steal.step?, Option.map_eq_some_iff, SoftLock.acquire?_eq_some] at h
    obtain ⟨l, ⟨hfree, rfl⟩, h⟩ := h
    cases h
    exact .take hfree (.inr Nat.one_pos) rfl rfl rfl
  | clear => cases h; exact .drain rfl rfl rfl
  | ungrab => cases h

theorem Client.holds_of_activity {c : Client} {a : Activity} (ha : c.activity = a) :
    c.holds = c.permits.countP (·.exclusive) + a.holds := by
  rw [Client.holds, ha]

theorem Client.holds_grant (p : Permit) (c : Client) :
    (c.grant p).holds = c.permits.countP (·.exclusive) + if p.exclusive then 1 else 0 :=
  List.countP_cons

namespace Handle

theorem holds_afterRead (client : Client) (buffer : Bytes) (propagate : Bool) (next : ReadNext) :
    (afterRead client buffer propagate next).holds = client.permits.countP (·.exclusive) ∧
      (afterRead client buffer propagate next).activity.grabs = 0 := by
  rcases next with st | (f | report) | _ <;> exact ⟨rfl, rfl⟩

omit [Endpoint σ] in
theorem halt?_lock {who : Party} {h h' : Handle σ} {st : Halt} {next : Option Halt}
    (hs : h.halt? who st = some (next, h')) :
    h'.gate.lock = h.gate.lock ∨ (st = .wake ∧ h'.gate.lock = h.gate.lock.interrupt) ∨
      (st = .drain ∧ h'.gate.lock = h.gate.lock.drained) := by
  cases st with
  | clear =>
    simp only [halt?] at hs
    split at hs <;> (cases hs; exact .inl rfl)
  | wake => cases hs; exact .inr (.inl ⟨rfl, rfl⟩)
  | join =>
    simp only [halt?] at hs
    split at hs
    · cases hs; exact .inl rfl
    · cases hs; exact .inl rfl
    · cases hs
  | drain => cases hs; exact .inr (.inr ⟨rfl, rfl⟩)

omit [Endpoint σ] in
theorem halt?_kept {who : Party} {h h' : Handle σ} {st : Halt} {next : Option Halt}
    (hs : h.halt? who st = some (next, h')) :
    h'.gate.endpoint = h.gate.endpoint ∧ h'.released = h.released := by
  cases st with
  | clear | join =>
    simp only [halt?] at hs
    split at hs <;> cases hs <;> exact ⟨rfl, rfl⟩
  | wake | drain => cases hs; exact ⟨rfl, rfl⟩

omit [Endpoint σ] in
theorem halt?_locking {p : Party} (k : Nat) {h h' : Handle σ} {st : Halt} {next : Option Halt}
    (hs : h.halt? p st = some (next, h')) : Locking p h.gate.lock k 0 h'.gate.lock k 0 := by
  rcases halt?_lock hs with hl | ⟨-, hl⟩ | ⟨-, hl⟩
  · exact .keep hl rfl rfl
  · exact .interrupt hl rfl rfl
  · exact .drain hl rfl rfl

theorem step?_locking {n : Nat} {client client' : Client} {h h' : Handle σ}
    (hs : h.step? n client = some (client', h')) :
    Locking (.client n) h.gate.lock client.holds client.activity.grabs h'.gate.lock client'.holds
      client'.activity.grabs := by
  cases clientStep hs with
  | answered doing | steals doing | reads doing | requests doing | registers doing | starts doing | stops doing
  | closes doing | releases doing =>
    rw [Client.holds_of_activity doing, doing]
    exact .keep rfl rfl rfl
  | granted doing =>
    rw [Client.holds_of_activity doing, doing]
    exact .keep rfl (client.holds_grant _) rfl
  | @unlocks p ps doing held =>
    rw [Client.holds_of_activity doing, doing, held]
    cases hp : p.exclusive with
    | true => exact .give rfl (List.countP_cons_of_pos hp) rfl
    | false => exact .keep rfl (List.countP_cons_of_neg (by simp [hp])).symm rfl
  | writes doing =>
    rw [Client.holds_of_activity doing, doing]
    exact .keep (Gate.writeReport_lock ..) rfl rfl
  | propagates doing =>
    rw [Client.holds_of_activity doing, doing]
    exact .keep (Gate.propagateReport_lock ..) rfl rfl
  | @stealing st st' errand l doing step =>
    rw [Client.holds_of_activity doing, doing]
    exact Steal.step?_locking (client.permits.countP (·.exclusive)) errand step
  | @stolen errand doing =>
    rw [Client.holds_of_activity doing, doing]
    cases errand with
    | permit => exact .ungrab rfl (client.holds_grant _) rfl
    | request r => exact .ungrab rfl rfl rfl
  | @reading st buffer propagate next g doing step =>
    obtain ⟨holds, grabs⟩ := holds_afterRead client buffer propagate next
    rw [holds, grabs, Client.holds_of_activity doing, doing]
    rcases step.lock with ⟨-, hl⟩ | ⟨-, -, hl⟩
    · exact .keep hl rfl rfl
    · exact .drain hl rfl rfl
  | @exchanges r exclusive doing =>
    rw [Client.holds_of_activity doing, doing]
    exact .keep (Request.perform_lock ..) (by cases exclusive <;> rfl) rfl
  | @leaves exclusive reply doing =>
    rw [Client.holds_of_activity doing, doing]
    cases exclusive with
    | true => exact .give rfl rfl rfl
    | false => exact .keep rfl rfl rfl
  | halting doing step =>
    rw [Client.holds_of_activity doing, doing]
    exact halt?_locking _ step
  | @halted st closing h' doing step =>
    rw [Client.holds_of_activity doing, doing]
    cases closing <;> exact halt?_locking _ step

end Handle

end HidGate
