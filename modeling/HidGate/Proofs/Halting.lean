import HidGate.Proofs.Deadlock
import HidGate.Proofs.Wakeup

/-!
# Stopping the listener

Who stops the listener has the handle for itself: it tells the thread to finish, wakes it, waits for its end and
empties the pipe. A thread that is told to finish is on the last leg of its cycle. It begins a poll only if it
was about to take the read path, and the byte that wakes it is there for that poll as for the one it is in. So
it ends after a few steps, and so does the call.
-/

namespace HidGate

def Activity.halt? : Activity → Option Halt
  | .halt st _ => some st
  | _ => none

/-! ## What is left to the listener -/

namespace Worker

def mayPoll : Worker → Bool
  | .working .acquire | .working (.read .poll) => true
  | _ => false

def pollsLeft : Worker → Nat
  | .working .acquire => 1
  | _ => 0

def fetchesLeft : Worker → Nat
  | .working .acquire | .working (.read .poll) | .working (.read .fetch) => 1
  | _ => 0

def stepsLeft : Worker → Nat
  | .working .acquire => 9
  | .working (.read .poll) => 8
  | .working (.read .drain) | .working (.read .fetch) => 7
  | .working (.read (.hand _)) => 6
  | .working (.leave _) => 5
  | .working .pause => 4
  | .working .gate => 3
  | .working .pass => 2
  | .working .check => 1
  | .finished | .crashed => 0

end Worker

def Halt.stepsLeft : Halt → Nat
  | .clear => 4
  | .wake => 3
  | .join => 2
  | .drain => 1

/-- What a step of a thread that is told to finish takes from what is left to it. -/
structure Duty.Spends {σ : Type} (d : Duty) (g : Gate σ) (w : Worker) (g' : Gate σ) : Prop where
  steps : w.stepsLeft < (Worker.working d).stepsLeft
  polls : (if w.stage? == some .poll then 1 else 0) + w.pollsLeft ≤ (Worker.working d).pollsLeft
  fetches : (if (Worker.working d).stage? == some .fetch then 1 else 0) + w.fetchesLeft ≤
    (Worker.working d).fetchesLeft
  pipe : w.mayPoll = true → (Worker.working d).mayPoll = true ∧ g'.lock.pipe = g.lock.pipe

theorem Duty.spends {σ : Type} [Endpoint σ] {d : Duty} {g g' : Gate σ} {w : Worker}
    (h : d.step? false g = some (w, g')) : d.Spends g w g' := by
  cases dutyStep h with
  | goesOn on => cases on
  | acquires => exact ⟨by decide, by decide, by decide, fun _ => ⟨rfl, rfl⟩⟩
  | reads step =>
    cases step <;> constructor <;>
      simp [ofRead, Worker.stepsLeft, Worker.pollsLeft, Worker.fetchesLeft, Worker.mayPoll, Worker.stage?]
  | exits | drained | bears | fails | resumes | grabs | passes =>
    constructor <;> simp [Worker.stepsLeft, Worker.pollsLeft, Worker.fetchesLeft, Worker.mayPoll, Worker.stage?]

theorem Duty.late_spends {σ : Type} (g : Gate σ) :
    (Duty.read .poll).Spends g (.working (.leave (.error .timeout))) g :=
  ⟨by decide, by decide, by decide, nofun⟩

/-! ## Alone with the handle -/

namespace System

section
variable {σ : Type} {s t : System σ} {n m : Nat} {st : Halt}

def halt? (s : System σ) (n : Nat) : Option Halt := s.clients[n]?.bind (·.activity.halt?)

theorem halt?_iff : s.halt? n = some st ↔ ∃ c closing, s.clients[n]? = some c ∧ c.activity = .halt st closing := by
  rw [halt?, Option.bind_eq_some_iff]
  constructor
  · rintro ⟨c, hc, hst⟩
    cases ha : c.activity with
    | halt st' closing => rw [ha] at hst; cases hst; exact ⟨c, closing, hc, ha⟩
    | _ => rw [ha] at hst; cases hst
  · rintro ⟨c, closing, hc, ha⟩
    exact ⟨c, hc, by rw [ha]; rfl⟩

theorem halt?_turn_self {c : Client} (hc : s.clients[n]? = some c) (u : Turn σ) :
    (s.turn n u).halt? n = u.1.activity.halt? := by
  have := getElem?_set_at hc u.1
  simp [halt?, turn, this]

theorem Sound.alone_of_halt (hs : Sound s) (hh : s.halt? n = some st) {d : Client} (hd : s.clients[m]? = some d) :
    d.permits = [] ∧ (m ≠ n → d.activity = .idle) := by
  obtain ⟨c, closing, hc, ha⟩ := halt?_iff.mp hh
  obtain ⟨none_held, others⟩ := hs.alone n c hc (by rw [ha]; rfl)
  by_cases hmn : m = n
  · subst hmn
    rw [hc] at hd; cases hd
    exact ⟨none_held, fun h => absurd rfl h⟩
  · obtain ⟨idle, none_held⟩ := Client.isAside_iff.mp (others m d hd hmn)
    exact ⟨none_held, fun _ => idle⟩

theorem Sound.clients_hold_none (hs : Sound s) (hh : s.halt? n = some st) (m : Nat) :
    s.lock.reader ≠ some (.client m) ∧ s.lock.grabber ≠ some (.client m) := by
  have count : s.holds (.client m) = 0 ∧ s.grabs (.client m) = 0 := by
    cases hd : s.clients[m]? with
    | none => simp [holds, grabs, hd]
    | some d =>
      obtain ⟨none_held, idle⟩ := hs.alone_of_halt hh hd
      rw [(holds_of_at hd).1, (holds_of_at hd).2, Client.holds, none_held]
      by_cases hmn : m = n
      · subst hmn
        obtain ⟨c, closing, hc, ha⟩ := halt?_iff.mp hh
        rw [hc] at hd; cases hd
        rw [ha]; exact ⟨rfl, rfl⟩
      · rw [idle hmn]; exact ⟨rfl, rfl⟩
  constructor
  · intro hr
    have := hs.reader (.client m)
    rw [if_pos hr, count.1] at this; cases this
  · intro hg
    have := hs.grabber (.client m)
    rw [if_pos hg, count.2] at this; cases this

variable [Endpoint σ] [Surroundings σ] {e : Event σ}

inductive HaltStep (n : Nat) (st : Halt) (s : System σ) : Event σ → System σ → Prop
  | works {wanted : Bool} {d : Duty} {w : Worker} {g : Gate σ}
      (on_duty : s.handle.listener = .running wanted (.working d))
      (step : d.step? wanted s.handle.gate = some (w, g)) :
      HaltStep n st s (.move (.run .listener)) (s.work wanted (w, g))
  | late {wanted : Bool} (on_duty : s.handle.listener = .running wanted (.working (.read .poll))) :
      HaltStep n st s (.move (.expire .listener))
        (s.work wanted (.working (.leave (.error .timeout)), s.handle.gate))
  | goes {client client' : Client} {closing : Bool} {st' : Halt} {h' : Handle σ} (at_n : s.clients[n]? = some client)
      (step : s.handle.halt? (.client n) st = some (some st', h')) (now : client'.activity = .halt st' closing) :
      HaltStep n st s (.move (.run (.client n))) (s.turn n (client', h'))
  | returns {client client' : Client} {h' : Handle σ} (at_n : s.clients[n]? = some client)
      (step : s.handle.halt? (.client n) st = some (none, h'))
      (now : client'.activity = .idle ∨ client'.activity = .release) :
      HaltStep n st s (.move (.run (.client n))) (s.turn n (client', h'))
  | incident (i : Surroundings.Incident σ) :
      HaltStep n st s (.incident i) (s.withEndpoint (Surroundings.befall i s.handle.gate.endpoint))

theorem Sound.haltStep (hs : Sound s) (hh : s.halt? n = some st) (h : Step s e t) : HaltStep n st s e t := by
  obtain ⟨c, closing, hc, ha⟩ := halt?_iff.mp hh
  have only_n {m : Nat} {d : Client} (hd : s.clients[m]? = some d) (busy : d.activity ≠ .idle) : m = n := by
    by_cases hmn : m = n
    · exact hmn
    · exact absurd ((hs.alone_of_halt hh hd).2 hmn) busy
  cases h.cause with
  | ask _ _ admitted =>
    have := shared_of_admits admitted hc
    rw [ha] at this; cases this
  | listener on_duty step => exact .works on_duty step
  | listenerLate on_duty late =>
    obtain ⟨rfl, rfl, rfl⟩ := Duty.expire?_eq_some late
    exact .late on_duty
  | incident i => exact .incident i
  | @clientLate m d d' h' hd late =>
    obtain ⟨_, _, doing, -, -⟩ := Handle.expire?_eq_some late
    obtain rfl := only_n hd (by rw [doing]; simp)
    rw [hc] at hd; cases hd
    rw [ha] at doing; cases doing
  | @client m d d' h' hd step =>
    obtain rfl := only_n hd fun idle => by simp [Handle.step?, idle] at step
    rw [hc] at hd; cases hd
    simp only [Handle.step?, ha, Option.map_eq_some_iff] at step
    obtain ⟨⟨next, h₁⟩, halts, step⟩ := step
    cases next with
    | some st' => cases step; exact .goes hc halts rfl
    | none =>
      cases step
      refine .returns hc halts ?_
      cases closing with
      | true => exact .inr rfl
      | false => exact .inl rfl

/-! ## From the flag to the end -/

inductive Stopping (n : Nat) (s : System σ) : Prop
  | wake (w : Worker) (at_wake : s.halt? n = some .wake) (told : s.handle.listener = .running false w)
  | join (w : Worker) (at_join : s.halt? n = some .join) (told : s.handle.listener = .running false w)
      (woken : w.mayPoll = true → s.lock.pipe.isEmpty = false)
  | drain (at_drain : s.halt? n = some .drain) (stopped : s.handle.listener = .stopped)

omit [Endpoint σ] [Surroundings σ] in
theorem Stopping.halts (h : Stopping n s) : ∃ st, s.halt? n = some st := by
  cases h with
  | wake _ at_wake => exact ⟨_, at_wake⟩
  | join _ at_join => exact ⟨_, at_join⟩
  | drain at_drain => exact ⟨_, at_drain⟩

omit [Endpoint σ] [Surroundings σ] in
theorem Stopping.told (h : Stopping n s) {wanted : Bool} {w : Worker}
    (hl : s.handle.listener = .running wanted w) : wanted = false := by
  cases h with
  | wake _ _ told | join _ _ told => rw [hl] at told; cases told; rfl
  | drain _ stopped => rw [stopped] at hl; cases hl

omit [Endpoint σ] [Surroundings σ] in
theorem Stopping.work (h : Stopping n s) {d : Duty} {w : Worker} {g : Gate σ}
    (on_duty : s.handle.listener = .running false (.working d)) (spends : d.Spends s.handle.gate w g) :
    Stopping n (s.work false (w, g)) := by
  cases h with
  | wake _ at_wake => exact .wake w at_wake rfl
  | join w' at_join told woken =>
    rw [on_duty] at told; cases told
    refine .join w at_join rfl fun may => ?_
    obtain ⟨may, pipe⟩ := spends.pipe may
    change g.lock.pipe.isEmpty = false
    rw [pipe]
    exact woken may
  | drain _ stopped => rw [stopped] at on_duty; cases on_duty

theorem Sound.stopping_of_clear (hs : Sound s) (clear : s.halt? n = some .clear)
    (h : Step s (.move (.run (.client n))) t) : Stopping n t ∧ t.halt? n = some .wake := by
  have listening : s.isListening = true := by
    obtain ⟨c, closing, hc, ha⟩ := halt?_iff.mp clear
    have := (hs.fits n c hc).activity
    rwa [ha] at this
  cases hs.haltStep clear h with
  | @goes client client' closing st' h' at_n step now =>
    have told : (s.turn n (client', h')).halt? n = some st' := by rw [halt?_turn_self at_n, now]; rfl
    simp only [Handle.halt?] at step
    split at step
    · cases step
    · rename_i w _
      cases step
      exact ⟨.wake w told rfl, told⟩
  | returns _ step =>
    simp only [Handle.halt?] at step
    split at step
    · rename_i hl; rw [isListening, hl] at listening; cases listening
    · cases step

structure Returned (n : Nat) (t : System σ) : Prop where
  stopped : t.handle.listener = .stopped
  pipe : t.lock.pipe = .empty
  done : t.halt? n = none
  clients : ∀ (m : Nat) (d : Client), t.clients[m]? = some d → d.activity = .idle ∨ d.activity = .release

theorem Stopping.step (h : Stopping n s) (hs : Sound s) (st : Step s e t) :
    Stopping n t ∨ s.halt? n = some .drain ∧ Returned n t := by
  obtain ⟨stage, hh⟩ := h.halts
  cases hs.haltStep hh st with
  | works on_duty step =>
    obtain rfl := h.told on_duty
    exact .inl (h.work on_duty (Duty.spends step))
  | late on_duty =>
    obtain rfl := h.told on_duty
    exact .inl (h.work on_duty (Duty.late_spends _))
  | incident i =>
    left
    cases h with
    | wake w at_wake told => exact .wake w at_wake told
    | join w at_join told woken => exact .join w at_join told woken
    | drain at_drain stopped => exact .drain at_drain stopped
  | @goes client client' closing st' h' at_n step now =>
    left
    have there : (s.turn n (client', h')).halt? n = some st' := by rw [halt?_turn_self at_n, now]; rfl
    cases h with
    | wake w at_wake told =>
      cases hh.symm.trans at_wake
      cases step
      exact .join w there told fun _ => Pipe.notify_not_empty _
    | join w at_join =>
      cases hh.symm.trans at_join
      simp only [Handle.halt?] at step
      split at step <;> cases step <;> exact .drain there rfl
    | drain at_drain =>
      cases hh.symm.trans at_drain
      cases step
  | @returns client client' h' at_n step now =>
    right
    cases h with
    | wake w at_wake =>
      cases hh.symm.trans at_wake
      cases step
    | join w at_join =>
      cases hh.symm.trans at_join
      simp only [Handle.halt?] at step
      split at step <;> cases step
    | drain at_drain stopped =>
      cases hh.symm.trans at_drain
      cases step
      refine ⟨at_drain, stopped, congrArg Prod.snd (Pipe.drain_eq _), ?_, fun m d hd => ?_⟩
      · rw [halt?_turn_self at_n]
        rcases now with now | now <;> rw [now] <;> rfl
      · rcases at_turn at_n hd with ⟨rfl, rfl⟩ | ⟨other, hd⟩
        · exact now
        · exact .inl ((hs.alone_of_halt hh hd).2 other)

theorem Stopping.along {tr : Trace σ} (h : Stopping n s) (hs : Sound s) (hf : Follows s tr)
    (still : ∀ x ∈ tr, x.2.halt? n ≠ none) : ∀ x ∈ tr, Sound x.2 ∧ Stopping n x.2 := by
  induction tr generalizing s with
  | nil => intro x hx; cases hx
  | cons y tr ih =>
    obtain ⟨e, t⟩ := y
    have sound := hs.step hf.1.cause
    have stopping : Stopping n t := by
      rcases h.step hs hf.1 with stopping | ⟨-, returned⟩
      · exact stopping
      · exact absurd returned.done (still (e, t) List.mem_cons_self)
    intro x hx
    rcases List.mem_cons.mp hx with rfl | hx
    · exact ⟨sound, stopping⟩
    · exact ih stopping sound hf.2 (fun x hx => still x (List.mem_cons_of_mem _ hx)) x hx

end

/-! ## Budgets -/

section
variable {σ : Type} [Surroundings σ]

def count (kind : System σ → Event σ → System σ → Bool) : System σ → Trace σ → Nat
  | _, [] => 0
  | s, (e, t) :: tr => (if kind s e t then 1 else 0) + count kind t tr

def beginsPoll (_ : System σ) : Event σ → System σ → Bool
  | .move (.run .listener), t => t.stage? .listener == some .poll
  | _, _ => false

def fetches (s : System σ) : Event σ → System σ → Bool
  | .move (.run p), _ => s.stage? p == some .fetch
  | _, _ => false

def isMove (_ : System σ) : Event σ → System σ → Bool
  | .move _, _ => true
  | .incident _, _ => false

omit [Surroundings σ] in
def left (measure : Worker → Nat) (s : System σ) : Nat := (s.handle.listener.worker?.map measure).getD 0

omit [Surroundings σ] in
theorem left_of_running {measure : Worker → Nat} {s : System σ} {wanted : Bool} {w : Worker}
    (hl : s.handle.listener = .running wanted w) : left measure s = measure w := by
  rw [left, hl]; rfl

def stepsLeft (n : Nat) (s : System σ) : Nat :=
  ((s.halt? n).map Halt.stepsLeft).getD 0 + left Worker.stepsLeft s

omit [Surroundings σ] in
theorem stepsLeft_of_halt {n : Nat} {s : System σ} {st : Halt} (hh : s.halt? n = some st) :
    stepsLeft n s = st.stepsLeft + left Worker.stepsLeft s := by
  rw [stepsLeft, hh]; rfl

variable [Endpoint σ]

theorem count_le {Q : System σ → Prop} {kind : System σ → Event σ → System σ → Bool} {budget : System σ → Nat}
    (step : ∀ {s : System σ} {e : Event σ} {t : System σ}, Q s → Q t → Step s e t →
      (if kind s e t then 1 else 0) + budget t ≤ budget s)
    {s : System σ} {tr : Trace σ} (hs : Q s) (h : Follows s tr) (along : ∀ x ∈ tr, Q x.2) :
    count kind s tr + budget (final s tr) ≤ budget s := by
  induction tr generalizing s with
  | nil => exact Nat.le_of_eq (Nat.zero_add _)
  | cons x tr ih =>
    obtain ⟨e, t⟩ := x
    have ht : Q t := along (e, t) List.mem_cons_self
    have first := step hs ht h.1
    have rest := ih ht h.2 fun x hx => along x (List.mem_cons_of_mem _ hx)
    rw [count, final]
    omega

/-- Each step while client `n` stops the listener is paid for. -/
structure Paid (n : Nat) (s : System σ) (e : Event σ) (t : System σ) : Prop where
  polls : (if beginsPoll s e t then 1 else 0) + left Worker.pollsLeft t ≤ left Worker.pollsLeft s
  fetches : (if fetches s e t then 1 else 0) + left Worker.fetchesLeft t ≤ left Worker.fetchesLeft s
  steps : (if isMove s e t then 1 else 0) + stepsLeft n t ≤ stepsLeft n s

omit [Endpoint σ] in
theorem Paid.of_work {n : Nat} {s : System σ} {wanted : Bool} {d : Duty} {w : Worker} {g : Gate σ}
    (on_duty : s.handle.listener = .running wanted (.working d)) (spends : d.Spends s.handle.gate w g) :
    Paid n s (.move (.run .listener)) (s.work wanted (w, g)) := by
  have before : s.stage? .listener = (Worker.working d).stage? := by rw [stage?, on_duty]; rfl
  have after : (s.work wanted (w, g)).stage? .listener = w.stage? := rfl
  have same : (s.work wanted (w, g)).halt? n = s.halt? n := rfl
  constructor
  · rw [beginsPoll, after, left_of_running on_duty, left_of_running (s := s.work wanted (w, g)) rfl]
    exact spends.polls
  · rw [System.fetches, before, left_of_running on_duty, left_of_running (s := s.work wanted (w, g)) rfl]
    exact spends.fetches
  · have := spends.steps
    rw [stepsLeft, stepsLeft, same, left_of_running on_duty, left_of_running (s := s.work wanted (w, g)) rfl, isMove]
    simp only [if_true]
    omega

theorem Stopping.paid {n : Nat} {s t : System σ} {e : Event σ} (h : Stopping n s) (hs : Sound s)
    (on : Stopping n t) (st : Step s e t) : Paid n s e t := by
  obtain ⟨stage, hh⟩ := h.halts
  cases hs.haltStep hh st with
  | works on_duty step =>
    obtain rfl := h.told on_duty
    exact .of_work on_duty (Duty.spends step)
  | @late wanted on_duty =>
    have steps : stepsLeft n (s.work wanted (.working (.leave (.error .timeout)), s.handle.gate)) + 3 =
        stepsLeft n s := by
      rw [stepsLeft, stepsLeft, left_of_running on_duty]
      exact Nat.add_assoc ..
    refine ⟨?_, ?_, ?_⟩
    · exact Nat.zero_le _
    · exact Nat.zero_le _
    · rw [← steps, isMove, if_pos rfl]; omega
  | incident i => exact ⟨Nat.le_of_eq (Nat.zero_add _), Nat.le_of_eq (Nat.zero_add _), Nat.le_of_eq (Nat.zero_add _)⟩
  | @returns client client' h' at_n _ now =>
    obtain ⟨st', goes⟩ := on.halts
    rw [halt?_turn_self at_n] at goes
    rcases now with now | now <;> rw [now] at goes <;> cases goes
  | @goes client client' closing st' h' at_n step now =>
    have at_stage : s.stage? (.client n) = none := by
      obtain ⟨c, closing, hc, ha⟩ := halt?_iff.mp hh
      simp [stage?, hc, ha, Activity.stage?]
    have there : (s.turn n (client', h')).halt? n = some st' := by rw [halt?_turn_self at_n, now]; rfl
    -- the steps of the stopping client are neither polls nor reads
    have of_left (polls : left Worker.pollsLeft (s.turn n (client', h')) ≤ left Worker.pollsLeft s)
        (reads : left Worker.fetchesLeft (s.turn n (client', h')) ≤ left Worker.fetchesLeft s)
        (steps : 1 + stepsLeft n (s.turn n (client', h')) ≤ stepsLeft n s) :
        Paid n s (.move (.run (.client n))) (s.turn n (client', h')) := by
      refine ⟨?_, ?_, steps⟩
      · rw [show beginsPoll s (.move (.run (.client n))) (s.turn n (client', h')) = false from rfl, if_neg (by simp)]
        omega
      · rw [System.fetches, at_stage, if_neg (by simp)]; omega
    cases h with
    | wake w at_wake told =>
      cases hh.symm.trans at_wake
      cases step
      refine of_left (Nat.le_refl _) (Nat.le_refl _) ?_
      have same : left Worker.stepsLeft (s.turn n (client', s.handle.withLock s.handle.gate.lock.interrupt)) =
        left Worker.stepsLeft s := rfl
      rw [stepsLeft_of_halt there, stepsLeft_of_halt at_wake, same]
      simp only [Halt.stepsLeft]
      omega
    | join w at_join =>
      cases hh.symm.trans at_join
      have stopped : h'.listener = .stopped ∧ st' = .drain := by
        simp only [Handle.halt?] at step
        split at step <;> cases step <;> exact ⟨rfl, rfl⟩
      obtain ⟨stopped, rfl⟩ := stopped
      have none_left (measure : Worker → Nat) : left measure (s.turn n (client', h')) = 0 := by
        rw [left, turn, stopped]; rfl
      refine of_left (by rw [none_left]; exact Nat.zero_le _) (by rw [none_left]; exact Nat.zero_le _) ?_
      rw [stepsLeft_of_halt there, stepsLeft_of_halt at_join, none_left]
      simp only [Halt.stepsLeft]
      omega
    | drain at_drain =>
      cases hh.symm.trans at_drain
      cases step

end

/-! ## The end of the call -/

section
variable {σ : Type} [Endpoint σ] [Surroundings σ] {s t : System σ} {e : Event σ} {n : Nat}

def HasEnded (s : System σ) : Prop :=
  s.handle.listener = .running false .finished ∨ s.handle.listener = .running false .crashed

theorem Stopping.ended {tr : Trace σ} (h : Stopping n s) (hs : Sound s) (before : s.halt? n ≠ some .drain)
    (hf : Follows s tr) (still : ∀ x ∈ tr, x.2.halt? n ≠ none) (at_drain : (final s tr).halt? n = some .drain) :
    ∃ x ∈ s :: tr.map Prod.snd, HasEnded x := by
  induction tr generalizing s with
  | nil => exact absurd at_drain before
  | cons y tr ih =>
    obtain ⟨e, t⟩ := y
    have ht : Stopping n t := by
      rcases h.step hs hf.1 with stopping | ⟨-, returned⟩
      · exact stopping
      · exact absurd returned.done (still (e, t) List.mem_cons_self)
    by_cases here : t.halt? n = some .drain
    · refine ⟨s, List.mem_cons_self, ?_⟩
      obtain ⟨st, hh⟩ := h.halts
      cases hs.haltStep hh hf.1 with
      | works | late | incident => exact absurd here before
      | @goes client client' closing st' h' at_n step now =>
        rw [halt?_turn_self at_n, now] at here
        cases here
        cases h with
        | wake w at_wake => cases hh.symm.trans at_wake; cases step
        | drain at_drain => exact absurd at_drain before
        | join w at_join told =>
          cases hh.symm.trans at_join
          simp only [Handle.halt?] at step
          split at step
          · rename_i hl; rw [told] at hl; cases hl; exact .inl told
          · rename_i hl; rw [told] at hl; cases hl; exact .inr told
          · cases step
      | returns at_n _ now =>
        rw [halt?_turn_self at_n] at here
        rcases now with now | now <;> rw [now] at here <;> cases here
    · obtain ⟨x, hx, ended⟩ := ih ht (hs.step hf.1.cause) here hf.2
        (fun x hx => still x (List.mem_cons_of_mem _ hx)) at_drain
      exact ⟨x, List.mem_cons_of_mem _ hx, ended⟩

omit [Endpoint σ] [Surroundings σ] in
theorem Sound.unlocked (hs : Sound s) (stopped : s.handle.listener = .stopped) :
    s.lock.reader = none ∧ s.lock.grabber = none := by
  have idle : s.isListening = false := by rw [isListening, stopped]; rfl
  have count (p : Party) : s.holds p = 0 ∧ s.grabs p = 0 := by
    cases p with
    | listener => rw [holds, grabs, stopped]; exact ⟨rfl, rfl⟩
    | client m =>
      cases hc : s.clients[m]? with
      | none => simp [holds, grabs, hc]
      | some c =>
        have fits := hs.fits m c hc
        rw [idle] at fits
        have none_exclusive : c.permits.countP (·.exclusive) = 0 := by
          rw [List.countP_eq_zero]
          intro p hp
          simp [fits.permits p hp]
        have activity := fits.activity
        rw [(holds_of_at hc).1, (holds_of_at hc).2, Client.holds, none_exclusive]
        cases ha : c.activity with
        | steal => rw [ha] at activity; cases activity
        | exchange | leave => rw [ha] at activity; cases activity; exact ⟨rfl, rfl⟩
        | _ => exact ⟨rfl, rfl⟩
  exact ⟨hs.reader_eq_none fun p => (count p).1, hs.grabber_eq_none fun p => (count p).2⟩

/-! ## Until the next start or read -/

end

end System

/-- The client neither reads nor is about to read or to start the listener. -/
def Activity.isCalm : Activity → Bool
  | .read .. | .enter (.start _) | .enter (.read ..) => false
  | _ => true

def Event.isCalm {σ : Type} [Surroundings σ] : Event σ → Bool
  | .move (.ask _ (.start _)) | .move (.ask _ (.read ..)) => false
  | _ => true

namespace System

section
variable {σ : Type} [Endpoint σ] [Surroundings σ] {s t : System σ} {e : Event σ} {n : Nat}

structure Calm (s : System σ) : Prop where
  stopped : s.handle.listener = .stopped
  clients : ∀ (n : Nat) (c : Client), s.clients[n]? = some c → c.activity.isCalm = true

omit [Endpoint σ] [Surroundings σ] in
theorem Returned.calm (h : Returned n s) : Calm s := by
  refine ⟨h.stopped, fun m d hd => ?_⟩
  rcases h.clients m d hd with idle | leaving
  · rw [idle]; rfl
  · rw [leaving]; rfl

omit [Surroundings σ] in
theorem calm_of_step? {client client' : Client} {h h' : Handle σ} (stopped : h.listener = .stopped)
    (calm : client.activity.isCalm = true) (hs : h.step? n client = some (client', h')) :
    client'.activity.isCalm = true ∧ h'.listener = .stopped := by
  have idle : h.listener.isRunning = false := by rw [stopped]; rfl
  have same : h'.listener = .stopped := by
    cases Handle.step?_steering hs with
    | keep same => rw [same, stopped]
    | start doing => rw [doing] at calm; cases calm
    | clear _ _ _ _ before | join _ _ _ _ before => rw [stopped] at before; cases before
  refine ⟨?_, same⟩
  cases Handle.clientStep hs with
  | reads doing | reading doing => rw [doing] at calm; cases calm
  | @stolen errand => cases errand <;> rfl
  | @halted st closing => cases closing <;> rfl
  | _ => rfl

theorem Calm.step (h : Calm s) (hc : e.isCalm = true) (st : Step s e t) : Calm t := by
  obtain ⟨stopped, clients⟩ := h
  have of_turn {m : Nat} {c : Client} (client' : Client) (h' : Handle σ) (at_m : s.clients[m]? = some c)
      (calm : client'.activity.isCalm = true) (listener : h'.listener = .stopped) : Calm (s.turn m (client', h')) := by
    refine ⟨listener, fun k d hd => ?_⟩
    rcases at_turn at_m hd with ⟨rfl, rfl⟩ | ⟨-, hd⟩
    · exact calm
    · exact clients k d hd
  cases st.cause with
  | @ask m c client hm =>
    refine of_turn { client with activity := .enter c, reply := none } s.handle hm ?_ stopped
    cases c with
    | start | read => cases hc
    | _ => rfl
  | listener on_duty | listenerLate on_duty => rw [stopped] at on_duty; cases on_duty
  | incident => exact ⟨stopped, clients⟩
  | @client m client client' h' hm step =>
    obtain ⟨calm, listener⟩ := calm_of_step? stopped (clients m client hm) step
    exact of_turn client' h' hm calm listener
  | @clientLate m client client' h' hm late =>
    obtain ⟨_, _, doing, -, -⟩ := Handle.expire?_eq_some late
    have := clients m client hm
    rw [doing] at this; cases this

theorem Calm.no_fetches {tr : Trace σ} (h : Calm s) (hf : Follows s tr) (calm : ∀ x ∈ tr, x.1.isCalm = true) :
    count fetches s tr = 0 := by
  induction tr generalizing s with
  | nil => rfl
  | cons x tr ih =>
    obtain ⟨e, t⟩ := x
    have nobody (p : Party) : s.stage? p = none := by
      cases p with
      | listener => rw [stage?, h.stopped]; rfl
      | client n =>
        cases hst : s.stage? (.client n) with
        | none => rfl
        | some st =>
          obtain ⟨c, _, _, hc, ha⟩ := stage?_client_iff.mp hst
          have := h.clients n c hc
          rw [ha] at this; cases this
    have first : fetches s e t = false := by
      cases e with
      | incident => rfl
      | move m =>
        cases m with
        | run p => rw [fetches, nobody]; rfl
        | _ => rfl
    rw [count, first, ih (h.step (calm (e, t) List.mem_cons_self) hf.1) hf.2
      fun x hx => calm x (List.mem_cons_of_mem _ hx)]
    rfl

end

/-! ## The handshake -/

section
variable {σ : Type} [Endpoint σ] [Surroundings σ] [Separate σ] {s : System σ} {n : Nat}

theorem Stopping.goes_on (h : Stopping n s) (hs : Reachable s) : ∃ m t, Step s (.move m) t := by
  obtain ⟨st, hh⟩ := h.halts
  obtain ⟨c, closing, hc, ha⟩ := halt?_iff.mp hh
  have of_halt (goes : (s.handle.halt? (.client n) st).isSome = true) : ∃ m t, Step s (.move m) t := by
    obtain ⟨u, hu⟩ := Option.isSome_iff_exists.mp goes
    have step : (s.handle.step? n c).isSome = true := by simp only [Handle.step?, ha, hu, Option.map_some]; rfl
    obtain ⟨v, hv⟩ := Option.isSome_iff_exists.mp step
    exact ⟨.run (.client n), s.turn n v, step_of_turn hc hv⟩
  cases h with
  | wake w at_wake => cases hh.symm.trans at_wake; exact of_halt rfl
  | drain at_drain => cases hh.symm.trans at_drain; exact of_halt rfl
  | join w at_join told =>
    cases hh.symm.trans at_join
    cases w with
    | finished | crashed => exact of_halt (by rw [Handle.halt?, told]; rfl)
    | working d =>
      -- the locks are the listener's alone
      have free : s.isBlocked .listener = false := by
        rw [isBlocked_of_running told]
        have count := hs.sound.reader .listener
        have count' := hs.sound.grabber .listener
        rw [holds, told] at count
        rw [grabs, told] at count'
        obtain others := hs.sound.clients_hold_none hh
        cases d with
        | gate =>
          cases hg : s.lock.grabber with
          | none => rw [Worker.isBlocked, hg]; rfl
          | some p =>
            cases p with
            | listener => rw [if_pos hg] at count'; cases count'
            | client m => exact absurd hg (others m).2
        | acquire =>
          cases hr : s.lock.reader with
          | none => rw [Worker.isBlocked, hr]; rfl
          | some p =>
            cases p with
            | listener => rw [if_pos hr] at count; cases count
            | client m => exact absurd hr (others m).1
        | _ => rfl
      have work : s.isUnfinished (fun _ => []) .listener = true := isUnfinished_of_running told
      obtain ⟨e, t, turn, step⟩ := hs.listener_steps work free
      cases e with
      | move m => exact ⟨m, t, step⟩
      | incident => exact turn.elim

end

section
variable {s t : System Bench} {n : Nat}

theorem stepsLeft_le {st : Halt} (hh : s.halt? n = some st) (clear : st ≠ .clear) : stepsLeft n s ≤ 12 := by
  have thread (w : Worker) : w.stepsLeft ≤ 9 := by
    unfold Worker.stepsLeft
    split <;> decide
  have listener : left Worker.stepsLeft s ≤ 9 := by
    rw [left]
    cases s.handle.listener.worker? with
    | none => decide
    | some w => exact thread w
  have client : st.stepsLeft ≤ 3 := by
    cases st with
    | clear => exact absurd rfl clear
    | _ => decide
  rw [stepsLeft_of_halt hh]
  omega

/-- Let client `n` tell the listener to finish, wherever that is in its cycle, and follow the call as far as one
likes. The listener begins one poll at most and reads one item at most, and once it is woken its poll ends at
once. The call is never stuck and takes a few steps at most. When it returns the thread has ended, both locks are
free and the pipe is empty, and nobody reads the endpoint until the next start or read. -/
theorem stop_handshake {tr : Trace Bench} (hs : Reachable s) (clear : s.halt? n = some .clear)
    (told : Step s (.move (.run (.client n))) t) (h : Follows t tr) (still : ∀ x ∈ tr, x.2.halt? n ≠ none) :
    let u := final t tr
    count beginsPoll t tr ≤ 1 ∧ count fetches t tr ≤ 1 ∧
      (u.halt? n ≠ some .wake → u.stage? .listener = some .poll →
        u.lock.pipe.isEmpty = false ∧ ∃ v, Step u (.move (.run .listener)) v ∧ v.stage? .listener ≠ some .poll) ∧
      count isMove t tr ≤ 12 ∧ (∃ m v, Step u (.move m) v) ∧
      ∀ e v, Step u e v → v.halt? n = none →
        (∃ x ∈ t :: tr.map Prod.snd, HasEnded x) ∧ v.handle.listener = .stopped ∧ v.lock = .free ∧
          ∀ tr', Follows v tr' → (∀ x ∈ tr', x.1.isCalm = true) → count fetches v tr' = 0 := by
  intro u
  have sound := hs.sound.step told.cause
  obtain ⟨stopping, at_wake⟩ := hs.sound.stopping_of_clear clear told
  have along := stopping.along sound h still
  obtain ⟨sound', stopping'⟩ : Sound u ∧ Stopping n u :=
    final_of_forall (P := fun x => Sound x ∧ Stopping n x) ⟨sound, stopping⟩ along
  have paid {x y : System Bench} {e : Event Bench} (hx : Sound x ∧ Stopping n x) (hy : Sound y ∧ Stopping n y)
      (st : Step x e y) : Paid n x e y := hx.2.paid hx.1 hy.2 st
  have polls := count_le (fun hx hy st => (paid hx hy st).polls) ⟨sound, stopping⟩ h along
  have reads := count_le (fun hx hy st => (paid hx hy st).fetches) ⟨sound, stopping⟩ h along
  have moves := count_le (fun hx hy st => (paid hx hy st).steps) ⟨sound, stopping⟩ h along
  have one_left : left Worker.pollsLeft t ≤ 1 ∧ left Worker.fetchesLeft t ≤ 1 := by
    rw [left, left]
    cases t.handle.listener.worker? with
    | none => exact ⟨Nat.zero_le 1, Nat.zero_le 1⟩
    | some w =>
      simp only [Option.map_some, Option.getD_some]
      constructor
      · unfold Worker.pollsLeft; split <;> decide
      · unfold Worker.fetchesLeft; split <;> decide
  have some_left := stepsLeft_le at_wake (by simp)
  have reachable : Reachable u := (hs.step told).follows h
  refine ⟨by omega, by omega, fun woken polling => ?_, by omega, stopping'.goes_on reachable, ?_⟩
  · have byte : u.lock.pipe.isEmpty = false := by
      obtain ⟨wanted, hl⟩ := stage?_listener_iff.mp polling
      cases stopping' with
      | wake _ at_wake => exact absurd at_wake woken
      | join w _ told byte => rw [hl] at told; cases told; exact byte rfl
      | drain _ stopped => rw [hl] at stopped; cases stopped
    exact ⟨byte, poll_ends polling byte⟩
  · intro e v st done
    rcases stopping'.step sound' st with on | ⟨at_drain, returned⟩
    · obtain ⟨st', on⟩ := on.halts
      rw [done] at on; cases on
    · have sound_v := sound'.step st.cause
      obtain ⟨reader, grabber⟩ := sound_v.unlocked returned.stopped
      refine ⟨stopping.ended sound (by rw [at_wake]; simp) h still at_drain, returned.stopped, ?_, ?_⟩
      · have empty := returned.pipe
        cases hl : v.lock with
        | mk r g p => rw [hl] at reader grabber empty; cases reader; cases grabber; cases empty; rfl
      · intro tr' h' calm
        exact returned.calm.no_fetches h' calm

/-- The listener is about to take the read path when it is told to finish. A report arrives; the listener polls
and reads it, and ends at its next check, past the byte that was to wake it. -/
theorem stop_handshake_past_wakeup :
    let s := after (start (.fresh Bench.fresh .standard) 1) [.move (.ask 0 .start), .move (.run (.client 0)),
      .move (.run .listener), .move (.ask 0 .stop), .move (.run (.client 0))]
    let t := after s [.move (.run (.client 0))]
    let tr := play t [.incident (Bench.Incident.arrive [.report (.whole [1, 2])]), .move (.run .listener),
      .move (.run .listener), .move (.run (.client 0)), .move (.run .listener), .move (.run .listener),
      .move (.run .listener), .move (.run .listener), .move (.run .listener), .move (.run .listener),
      .move (.run (.client 0))]
    let u := final t tr
    let v := after u [.move (.run (.client 0))]
    tr.length = 11 ∧ count beginsPoll t tr = 1 ∧ count fetches t tr = 1 ∧ u.lock.pipe.bytes = 1 ∧
      v.handle.listener = .stopped ∧ v.lock = .free := by
  intro s t tr u v
  have handshake := @stop_handshake s t 0 tr ((Reachable.start Bench.fresh .standard 1).after _)
    (by decide +kernel) (step_after (by decide +kernel)) (follows_play _ _) (by decide +kernel)
  obtain ⟨-, -, -, -, -, returns⟩ := handshake
  obtain ⟨-, stopped, free, -⟩ := returns (.move (.run (.client 0))) v (step_after (by decide +kernel))
    (by decide +kernel)
  exact ⟨by decide +kernel, by decide +kernel, by decide +kernel, by decide +kernel, stopped, free⟩

end

end System

end HidGate
