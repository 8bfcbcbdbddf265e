import HidGate.Proofs.Granting
import HidGate.Proofs.Sending

/-!
# A caller beside its listener

In the order in which a session settles the caller goes first, and the listener only when the caller has to wait. Then
the listener holds what the caller waits for, or is being waited for itself, and each of its steps brings it nearer to
giving way. So a call comes to its reply, and there is fuel enough for it, however much the endpoint has in store.
-/

namespace HidGate

/-! ## Calls without permits -/

def Activity.isPlain : Activity → Bool
  | .enter .lockEvents | .enter .unlock | .enter (.read ..) | .enter (.propagate _) => false
  | .steal _ .permit | .read .. => false
  | _ => true

def Activity.turnsLeft : Activity → Nat
  | .halt st _ => st.stepsLeft + 1
  | .release => 1
  | a => a.stepsLeft

theorem Activity.turnsLeft_le (a : Activity) : a.turnsLeft ≤ 8 := by
  cases a with
  | halt st => cases st <;> simp [turnsLeft, Halt.stepsLeft]
  | steal st => cases st <;> simp [turnsLeft, stepsLeft]
  | _ => simp [turnsLeft, stepsLeft]

theorem Activity.idle_of_turnsLeft {a : Activity} (plain : a.isPlain = true) (none_left : a.turnsLeft = 0) :
    a = .idle := by
  cases a with
  | idle => rfl
  | steal st => cases st <;> cases none_left
  | read => cases plain
  | _ => cases none_left

section
variable {σ : Type} [Endpoint σ] {h k : Handle σ} {c d : Client} {n : Nat}

theorem Handle.step?_plain (plain : c.activity.isPlain = true) (hs : h.step? n c = some (d, k)) :
    d.activity.isPlain = true ∧ d.permits = c.permits ∧ d.activity.turnsLeft < c.activity.turnsLeft := by
  cases clientStep hs with
  | granted doing | unlocks doing | reads doing | propagates doing | reading doing =>
    rw [doing] at plain
    cases plain
  | answered doing | requests doing | writes doing | registers doing | starts doing | stops doing | closes doing
  | exchanges doing | leaves doing | releases doing =>
    rw [doing]
    exact ⟨rfl, rfl, by simp [Activity.turnsLeft, Activity.stepsLeft, Halt.stepsLeft]⟩
  | steals doing enter =>
    rw [doing] at plain
    rcases call_of_steals enter with ⟨rfl, rfl⟩ | ⟨kind, r, rfl, rfl, -⟩
    · cases plain
    · rw [doing]
      exact ⟨rfl, rfl, by simp [Activity.turnsLeft, Activity.stepsLeft]⟩
  | @stealing st st' errand l doing step =>
    rw [doing] at plain ⊢
    exact ⟨by cases errand <;> exact plain, rfl, Steal.stepsLeft_lt errand step⟩
  | @stolen errand doing =>
    rw [doing] at plain ⊢
    cases errand with
    | permit => cases plain
    | request => exact ⟨rfl, rfl, by simp [stolen, Activity.turnsLeft, Activity.stepsLeft]⟩
  | @halting st st' closing _ doing step =>
    rw [doing]
    refine ⟨rfl, rfl, ?_⟩
    cases st with
    | clear | join =>
      simp only [halt?] at step
      split at step <;> cases step <;> simp [Activity.turnsLeft, Halt.stepsLeft]
    | wake =>
      cases step
      simp [Activity.turnsLeft, Halt.stepsLeft]
    | drain => cases step
  | @halted st closing _ doing step =>
    rw [doing]
    have some_left : 0 < st.stepsLeft := by cases st <;> decide
    cases closing with
    | true => exact ⟨rfl, rfl, Nat.lt_add_of_pos_left some_left⟩
    | false => exact ⟨rfl, rfl, Nat.succ_pos _⟩

end

/-! ## Whose turn it is -/

namespace System

section
variable {σ : Type} [Endpoint σ] {s t : System σ} {c : Client}

theorem advance?_of_wait (hc : s.clients = [c]) (waits : s.handle.step? 0 c = none) (runs : s.run? .listener = some t) :
    s.advance? = some t := by
  have client : s.run? (.client 0) = none := by simp [run?, hc, waits]
  simp [advance?, choices, hc, next, client, runs]

end

section
variable {σ : Type} [Endpoint σ] {s t : System σ} {c : Client}

def GivesWay (s : System σ) : Prop := ∃ wanted d w g, s.handle.listener = .running wanted (.working d) ∧
  DutyStep wanted s.handle.gate d w g ∧ w.stepsLeft < (Worker.working d).stepsLeft

def Supplies (s : System σ) : Prop := s.stage? .listener = some .fetch → Endpoint.ready s.endpoint = true

theorem Supplies.gives_way {wanted : Bool} {st : ReadStage} (supplies : Supplies s)
    (on_duty : s.handle.listener = .running wanted (.working (.read st)))
    (woken : st = .poll → s.lock.pipe.isEmpty = false) : GivesWay s := by
  have of_step {next : ReadNext} {g : Gate σ} (step : ReadStep .listener true s.handle.gate st next g) :
      GivesWay s := by
    have goes : DutyStep wanted s.handle.gate (.read st) _ _ := .reads step
    exact ⟨wanted, .read st, _, _, on_duty, goes, goes.stepsLeft_lt Nat.one_pos⟩
  have of_some {u : ReadNext × Gate σ} (step : st.step? .listener true s.handle.gate = some u) : GivesWay s :=
    of_step (ReadStage.readStep step)
  cases st with
  | drain => exact of_some rfl
  | hand => exact of_some rfl
  | poll =>
    cases fault : Endpoint.pollFault? s.handle.gate.endpoint with
    | some y => exact of_step (.pollFault fault)
    | none => exact of_step (.wake fault (woken rfl))
  | fetch =>
    have fetches : (Gate.fetch? .listener true s.handle.gate).isSome = true := by
      rw [Gate.fetch?, Option.isSome_map]
      exact supplies (stage?_listener_iff.mpr ⟨wanted, on_duty⟩)
    obtain ⟨u, step⟩ := Option.isSome_iff_exists.mp fetches
    exact of_some step

namespace Lone

theorem gives_way_of_grabs (taken : s.handle.listener.grabs ≠ 0) : GivesWay s := by
  cases on_duty : s.handle.listener with
  | stopped =>
    rw [on_duty] at taken
    exact absurd rfl taken
  | running wanted w =>
    rw [on_duty] at taken
    cases w with
    | finished | crashed => exact absurd rfl taken
    | working x =>
      cases x with
      | pass => exact ⟨wanted, .pass, _, _, on_duty, .passes, by decide⟩
      | _ => exact absurd rfl taken

theorem gives_way_of_holds (h : Lone s c) (supplies : Supplies s) (awaited : c.activity.isAwaiting = true)
    (taken : s.handle.listener.holds ≠ 0) : GivesWay s := by
  cases on_duty : s.handle.listener with
  | stopped =>
    rw [on_duty] at taken
    exact absurd rfl taken
  | running wanted w =>
    rw [on_duty] at taken
    cases w with
    | finished | crashed => exact absurd rfl taken
    | working x =>
      cases x with
      | read st =>
        apply supplies.gives_way on_duty
        rintro rfl
        rcases h.roused awaited with byte | spent
        · exact byte
        · rw [on_duty] at spent
          cases spent
      | leave result =>
        have step : ((Duty.leave result).step? wanted s.handle.gate).isSome = true := rfl
        obtain ⟨⟨w, g⟩, step⟩ := Option.isSome_iff_exists.mp step
        have goes := Duty.dutyStep step
        exact ⟨wanted, _, w, g, on_duty, goes, goes.stepsLeft_lt Nat.one_pos⟩
      | _ => exact absurd rfl taken

theorem gives_way_of_told (h : Lone s c) (supplies : Supplies s) (unheld : c.holds = 0)
    (ungrabbed : c.activity.grabs = 0) {x : Duty} (told : s.handle.listener = .running false (.working x))
    (woken : x = .read .poll → s.lock.pipe.isEmpty = false) : GivesWay s := by
  have of_step {u : Worker × Gate σ} (step : x.step? false s.handle.gate = some u) : GivesWay s :=
    ⟨false, x, u.1, u.2, told, Duty.dutyStep step, (Duty.spends step).steps⟩
  cases x with
  | check | leave | pause | pass => exact of_step rfl
  | acquire =>
    have free := h.reader_eq_none (by rw [told]; rfl) unheld
    exact of_step (Option.map_eq_some_iff.mpr ⟨_, SoftLock.acquire?_eq_some.mpr ⟨free, rfl⟩, rfl⟩)
  | gate =>
    have free := h.grabber_eq_none (by rw [told]; rfl) ungrabbed
    exact of_step (Option.map_eq_some_iff.mpr ⟨_, SoftLock.grab?_eq_some.mpr ⟨free, rfl⟩, rfl⟩)
  | read st =>
    apply supplies.gives_way told
    rintro rfl
    exact woken rfl

/-- A client that has to wait waits for the listener. -/
theorem gives_way (h : Lone s c) (supplies : Supplies s) (plain : c.activity.isPlain = true) (unheld : c.permits = [])
    (busy : c.activity ≠ .idle) (waits : s.handle.step? 0 c = none) : GivesWay s := by
  have holds : c.holds = c.activity.holds := by simp [Client.holds, unheld]
  cases doing : c.activity with
  | idle => exact absurd doing busy
  | read =>
    rw [doing] at plain
    cases plain
  | enter | exchange | leave | release => simp [Handle.step?, doing] at waits
  | steal st errand =>
    simp only [Handle.step?, doing, Option.map_eq_none_iff] at waits
    cases st with
    | announce | clear | ungrab => cases waits
    | grab =>
      apply gives_way_of_grabs
      intro none_grabbed
      have free : s.handle.gate.lock.grabber = none := h.grabber_eq_none none_grabbed (by rw [doing]; rfl)
      simp [Steal.step?, SoftLock.grab?, free] at waits
    | take =>
      apply h.gives_way_of_holds supplies (by rw [doing]; rfl)
      intro none_held
      have free : s.handle.gate.lock.reader = none := h.reader_eq_none none_held (by rw [holds, doing]; rfl)
      simp [Steal.step?, SoftLock.acquire?, free] at waits
  | halt st closing =>
    simp only [Handle.step?, doing, Option.map_eq_none_iff] at waits
    cases st with
    | wake | drain => cases waits
    | clear =>
      simp only [Handle.halt?] at waits
      split at waits <;> cases waits
    | join =>
      have stops := h.stopping (.inr ⟨.join, by rw [doing]; rfl, by decide⟩)
      have at_join : s.halt? 0 = some .join := by rw [h.halt?_eq, doing]; rfl
      cases stops with
      | wake _ at_wake => cases at_join.symm.trans at_wake
      | drain at_drain => cases at_join.symm.trans at_drain
      | join w _ told woken =>
        cases w with
        | finished | crashed => simp [Handle.halt?, told] at waits
        | working x =>
          apply h.gives_way_of_told supplies (h.holds_of_halt (by rw [doing]; rfl)) (by rw [doing]; rfl) told
          rintro rfl
          exact woken rfl

end Lone

end

end System

/-! ## A node and its listener -/

instance : Surroundings Node where
  Incident := List Bytes
  befall data n := { n with medium := n.medium.arrive data }

namespace Node

def still (n : Node) : Node := { n with medium := .null }

theorem ready_eq (n : Node) : Endpoint.ready n = n.medium.fetch?.isSome := Option.isSome_map

theorem ready_of_touch {x y : Node} (touch : Touch x y) (ready : Endpoint.ready x = true) :
    Endpoint.ready y = true := by
  rw [ready_eq] at ready ⊢
  cases touch with
  | keep | get | set => exact ready
  | write report =>
    obtain ⟨path, medium, driver, requests, writes⟩ := x
    cases medium with
    | pipe queue => cases queue <;> rfl
    | _ => rfl

end Node

theorem ReadStep.still {who : Party} {propagate : Bool} {st : ReadStage} {next : ReadNext} {g g' : Gate Node}
    (h : ReadStep who propagate g st next g') : g'.endpoint.still = g.endpoint.still := by
  have fetched {answer : Except SystemError Reading} {y : Node}
      (fetch : Endpoint.fetch? g.endpoint = some (answer, y)) : y.still = g.endpoint.still := by
    simp only [Endpoint.fetch?, Node.fetch?, Option.map_eq_some_iff] at fetch
    obtain ⟨_, -, same⟩ := fetch
    cases same
    rfl
  cases h with
  | pollFault fault => cases fault
  | fault fetch | empty fetch | overlong fetch | report fetch => exact fetched fetch
  | wake | ready | drain => rfl
  | accepted | crashed => exact congrArg Node.still (Gate.hand_endpoint ..)
  | rejected => exact congrArg Node.still ((Gate.note_endpoint ..).trans (Gate.hand_endpoint ..))

theorem DutyStep.still {wanted : Bool} {d : Duty} {w : Worker} {g g' : Gate Node} (h : DutyStep wanted g d w g') :
    g'.endpoint.still = g.endpoint.still := by
  cases h with
  | @reads st next g₁ step =>
    rw [(Duty.ofRead_stage true next g₁).2.2.1]
    exact step.still
  | _ => rfl

def Listener.wanted? : Listener → Option Bool
  | .stopped => none
  | .running wanted _ => some wanted

/-- How a handle stands, whatever its listener is at and whatever is there to be read. -/
structure Standing where
  config : Config
  wanted : Option Bool
  released : Nat
  node : Node

def Handle.standing (h : Handle Node) : Standing :=
  ⟨h.config, h.listener.wanted?, h.released, h.gate.endpoint.still⟩

namespace System

structure Attended (R : Client → Standing → Prop) (s : System Node) (c : Client) : Prop where
  lone : Lone s c
  unheld : c.permits = []
  plain : c.activity.isPlain = true
  supplies : Supplies s
  stands : R c s.handle.standing

def Lasting (R : Client → Standing → Prop) : Prop :=
  ∀ (c d : Client) (h k : Handle Node), R c h.standing → h.step? 0 c = some (d, k) → R d k.standing

/-- Steps of the client and of the thread that are left; a step of the client counts for ten. -/
def turnsLeft (s : System Node) (c : Client) : Nat := 10 * c.activity.turnsLeft + left Worker.stepsLeft s

section
variable {s t : System Node} {c d : Client} {R : Client → Standing → Prop} {wanted : Bool} {x : Duty} {w : Worker}
  {g : Gate Node} {fuel : Nat}

theorem left_le (s : System Node) : left Worker.stepsLeft s ≤ 9 := by
  rw [left]
  cases s.handle.listener.worker? with
  | none => exact Nat.zero_le 9
  | some w =>
    simp only [Option.map_some, Option.getD_some]
    unfold Worker.stepsLeft
    split <;> decide

theorem Supplies.work (goes : DutyStep wanted s.handle.gate x w g) : Supplies (s.work wanted (w, g)) := by
  intro fetching
  have at_fetch : w.stage? = some .fetch := fetching
  cases goes with
  | reads step =>
    cases step with
    | ready fault byte ready => exact ready
    | _ => cases at_fetch
  | _ => cases at_fetch

namespace Attended

theorem step_listener (h : Attended R s c) (on_duty : s.handle.listener = .running wanted (.working x))
    (goes : DutyStep wanted s.handle.gate x w g) : Attended R (s.work wanted (w, g)) c := by
  have standing : (s.work wanted (w, g)).handle.standing = s.handle.standing := by
    simp only [Handle.standing, work, on_duty]
    exact congrArg (Standing.mk _ _ _) goes.still
  refine ⟨h.lone.of_step (step_of_duty on_duty goes) h.lone.clients, h.unheld, h.plain, .work goes, ?_⟩
  rw [standing]
  exact h.stands

theorem step_client {k : Handle Node} (lasting : Lasting R) (h : Attended R s c)
    (goes : s.handle.step? 0 c = some (d, k)) : Attended R ⟨k, [d]⟩ d := by
  obtain ⟨plain, permits, -⟩ := Handle.step?_plain h.plain goes
  have apart : c.activity.stage? = none := by
    have plain := h.plain
    cases doing : c.activity with
    | read =>
      rw [doing] at plain
      cases plain
    | _ => rfl
  have silent (report : Bytes) : c.activity ≠ .enter (.propagate report) := by
    intro doing
    have plain := h.plain
    rw [doing] at plain
    cases plain
  refine ⟨h.lone.of_step (step_of_client h.lone.clients goes) rfl, permits.trans h.unheld, plain, ?_,
    lasting _ _ _ _ h.stands goes⟩
  intro fetching
  have before : s.stage? .listener = some .fetch := (Handle.step?_steering goes).stage?.symm.trans fetching
  exact Node.ready_of_touch (Handle.step?_aside goes apart silent).1.endpoint (h.supplies before)

theorem settleFor_of_idle (h : Attended R s c) (idle : c.activity = .idle) : Attended R (settleFor fuel s) c := by
  induction fuel generalizing s with
  | zero => exact h
  | succ fuel ih =>
    unfold settleFor
    rw [advance?_of_idle (by rw [h.lone.clients]; simpa using Client.isIdle_iff.mpr idle)]
    split
    · rename_i t runs
      simp only [run?] at runs
      split at runs
      · rename_i wanted x on_duty
        obtain ⟨⟨w, g⟩, goes, rfl⟩ := Option.map_eq_some_iff.mp runs
        exact ih (h.step_listener on_duty (Duty.dutyStep goes))
      · cases runs
    · exact h

/-- The call comes to its end, and the listener has what fuel is left. -/
theorem settleFor (lasting : Lasting R) (h : Attended R s c) (enough : s.turnsLeft c ≤ fuel) :
    ∃ d, Attended R (System.settleFor fuel s) d ∧ d.activity = .idle := by
  induction fuel generalizing s c with
  | zero =>
    unfold turnsLeft at enough
    exact ⟨c, h, Activity.idle_of_turnsLeft h.plain (by omega)⟩
  | succ fuel ih =>
    by_cases idle : c.activity = .idle
    · exact ⟨c, h.settleFor_of_idle idle, idle⟩
    · unfold System.settleFor
      unfold turnsLeft at enough
      cases goes : s.handle.step? 0 c with
      | some u =>
        obtain ⟨d, k⟩ := u
        obtain ⟨-, -, less⟩ := Handle.step?_plain h.plain goes
        have advances : s.advance? = some ⟨k, [d]⟩ := by
          obtain ⟨handle, clients⟩ := s
          cases h.lone.clients
          exact advance?_of_step goes
        have thread := left_le ⟨k, [d]⟩
        rw [advances]
        apply ih (h.step_client lasting goes)
        unfold turnsLeft
        omega
      | none =>
        obtain ⟨wanted, x, w, g, on_duty, works, less⟩ := h.lone.gives_way h.supplies h.plain h.unheld idle goes
        have advances : s.advance? = some (s.work wanted (w, g)) := by
          apply advance?_of_wait h.lone.clients goes
          simp only [run?, on_duty, works.step?, Option.map_some]
        rw [advances]
        apply ih (h.step_listener on_duty works)
        unfold turnsLeft
        rw [left_of_running on_duty] at enough
        rw [left_of_running (s := s.work wanted (w, g)) rfl]
        dsimp only
        omega

end Attended

end

end System

/-! ## Calls -/

namespace System

def Idling (st : Standing) (s : Session Node) : Prop :=
  ∃ c, Attended (fun _ st' => st' = st) s c ∧ c.activity = .idle

theorem Idling.of (x : Node) (config : Config) : Idling ⟨config, none, 0, x.still⟩ (Session.of (.fresh x config)) :=
  ⟨.fresh, ⟨.start x config, rfl, rfl, nofun, rfl⟩, rfl⟩

theorem Idling.call {st st' : Standing} {s : Session Node} {R : Client → Standing → Prop} {call : Call} {reply : Reply}
    (idling : Idling st s) (unreleased : st.released = 0) (plain : (Activity.enter call).isPlain = true)
    (lasting : Lasting R) (begins : ∀ c : Client, c.activity = .enter call → R c st)
    (ends : ∀ (c : Client) (st₁ : Standing), c.activity = .idle → R c st₁ → c.reply = some reply ∧ st₁ = st') :
    (Monitor.call call s).1 = reply ∧ Idling st' (Monitor.call call s).2 := by
  obtain ⟨c, attended, idle⟩ := idling
  have held : s.handle.released = 0 := by
    have same := congrArg Standing.released attended.stands
    exact same.trans unreleased
  have admitted : s.admits call = true := by
    simp [admits, isQuiet, held, attended.lone.clients, Client.isIdle, idle, attended.unheld, Activity.isIdle,
      Activity.isExclusive]
  have honored : s.honors (.move (.ask 0 call)) = true := by
    cases call with
    | read => cases plain
    | _ => rfl
  -- the client as it is when the call begins
  let b : Client := { c with activity := .enter call, reply := none }
  have asks := step_of_ask attended.lone.clients idle admitted honored
  have asked : s.ask? 0 call = some ⟨s.handle, [b]⟩ := asks.2
  have begun : Attended R ⟨s.handle, [b]⟩ b := by
    refine ⟨attended.lone.of_step asks rfl, attended.unheld, plain, attended.supplies, ?_⟩
    rw [attended.stands]
    exact begins b rfl
  have enough : turnsLeft ⟨s.handle, [b]⟩ b ≤
      longestCall * (Endpoint.backlog s.handle.gate.endpoint + 2 * [b].length + 2) := by
    have thread := left_le ⟨s.handle, [b]⟩
    have client := b.activity.turnsLeft_le
    unfold turnsLeft longestCall
    rw [List.length_singleton]
    omega
  obtain ⟨d, done, idle'⟩ := begun.settleFor lasting enough
  obtain ⟨replied, standing⟩ := ends d _ idle' done.stands
  have called : Session.call? call s = some (reply, settle ⟨s.handle, [b]⟩) := by
    have at_zero : (settle ⟨s.handle, [b]⟩).clients[0]? = some d := done.lone.at_zero
    simp [Session.call?, asked, Session.reply?, at_zero, replied]
  rw [Monitor.call, called]
  exact ⟨rfl, d, ⟨done.lone, done.unheld, done.plain, done.supplies, standing⟩, idle'⟩

end System

end HidGate
