import HidGate.Proofs.ErrorNumber
import HidGate.Proofs.Rest

/-!
# Who has the endpoint

Opening makes three attempts and ends with the first that fails; a file that is open by then is let go at once. After
the last attempt the handle has the endpoint, and has it until it is closed. The last step of closing lets it go. By
then the listener's thread has ended and nobody is in a call, so an endpoint that was let go is used by nobody.
-/

namespace HidGate

/-! ## Opening -/

namespace Opening

def course : List Attempt := [.file, .identity, .pipe]

def obstacle? (find : String → Except SystemError Place) (driver : Node.Driver) (pipeFault : Option Int)
    (path : String) : Attempt → Option Fault
  | .file =>
    match file find path with
    | .error e => some (.io e)
    | .ok _ => none
  | .identity => driver.refusal?.map fun n => .io (.tabled n)
  | .pipe => pipeFault.map fun n => .setup (.tabled n)

structure Stops (obstacle? : Attempt → Option Fault) (done : List Attempt) (a : Attempt) (f : Fault) : Prop where
  order : done ++ [a] <+: course
  clear : ∀ b ∈ done, obstacle? b = none
  fails : obstacle? a = some f

section
variable {find : String → Except SystemError Place} {driver : Node.Driver} {config : Config} {pipeFault : Option Int}
  {path : String} {done : List Attempt} {a : Attempt} {f : Fault}

theorem stops_or_clear (obstacle? : Attempt → Option Fault) :
    (∃ done a f, Stops obstacle? done a f) ∨ ∀ a ∈ course, obstacle? a = none := by
  by_cases stops : ∃ done a f, Stops obstacle? done a f
  · exact .inl stops
  · right
    have none_of (done : List Attempt) (a : Attempt) (order : done ++ [a] <+: course)
        (clear : ∀ b ∈ done, obstacle? b = none) : obstacle? a = none := by
      cases fails : obstacle? a with
      | none => rfl
      | some f => exact absurd ⟨done, a, f, order, clear, fails⟩ stops
    have file := none_of [] .file ⟨_, rfl⟩ (by simp)
    have identity := none_of [.file] .identity ⟨_, rfl⟩ (by simp [file])
    have pipe := none_of [.file, .identity] .pipe ⟨_, rfl⟩ (by simp [file, identity])
    simp [course, file, identity, pipe]

theorem file_of_clear (clear : obstacle? find driver pipeFault path .file = none) :
    ∃ medium, file find path = .ok medium := by
  unfold obstacle? at clear
  cases opens : file find path with
  | error e => simp [opens] at clear
  | ok medium => exact ⟨medium, rfl⟩

theorem refusal_of_clear (clear : obstacle? find driver pipeFault path .identity = none) : driver.refusal? = none := by
  simpa [obstacle?] using clear

theorem run_of_clear (config : Config) (given : path.isEmpty = false)
    (clear : ∀ a ∈ course, obstacle? find driver pipeFault path a = none) :
    ∃ node notices, node.path = path ∧
      run find driver config pipeFault path = ⟨.ok (.fresh node config), course, notices, none⟩ := by
  obtain ⟨medium, opens⟩ := file_of_clear (clear .file (by decide))
  have answers := refusal_of_clear (clear .identity (by decide))
  have piped : pipeFault = none := by simpa [obstacle?] using clear .pipe (by decide)
  obtain ⟨raw, answered⟩ := Node.identify_of_answer (.opened path medium driver) answers
  rw [run_of_file driver config pipeFault given opens, identified, answered, piped]
  exact ⟨_, _, rfl, rfl⟩

structure Stopped (o : Opening) (path : String) (done : List Attempt) (a : Attempt) (f : Fault) : Prop where
  result : o.result = .error f
  attempts : o.attempts = done ++ [a]
  /-- The file is let go iff it was open. -/
  dropped : o.dropped.map Node.path = if .file ∈ done then some path else none
  unheard : .listenerStarted ∉ o.notices

theorem run_of_stops (config : Config) (given : path.isEmpty = false)
    (stops : Stops (obstacle? find driver pipeFault path) done a f) :
    Stopped (run find driver config pipeFault path) path done a f := by
  obtain ⟨⟨rest, order⟩, clear, fails⟩ := stops
  match done, order with
  | [], order =>
    cases order
    unfold obstacle? at fails
    cases opens : file find path with
    | error e =>
      simp only [opens, Option.some.injEq] at fails
      subst fails
      rw [run_of_file_error driver config pipeFault given opens]
      exact ⟨rfl, rfl, rfl, by simp [unopened]⟩
    | ok medium => simp [opens] at fails
  | [_], order =>
    cases order
    obtain ⟨medium, opens⟩ := file_of_clear (clear .file (by simp))
    obtain ⟨n, refuses, rfl⟩ := Option.map_eq_some_iff.mp fails
    obtain ⟨asked, same, whole⟩ :=
      identified_of_refusal (.opened path medium driver) config pipeFault refuses
    rw [run_of_file driver config pipeFault given opens, whole]
    exact ⟨rfl, rfl, congrArg some same, by simp [letGo]⟩
  | [_, _], order =>
    cases order
    obtain ⟨medium, opens⟩ := file_of_clear (clear .file (by simp))
    have answers := refusal_of_clear (clear .identity (by simp))
    obtain ⟨n, rfl, rfl⟩ := Option.map_eq_some_iff.mp fails
    obtain ⟨raw, whole⟩ := identified_of_pipe (.opened path medium driver) config n answers
    rw [run_of_file driver config _ given opens, whole]
    exact ⟨rfl, rfl, rfl, by simp [letGo]⟩
  | _ :: _ :: _ :: _, order => simp [course] at order

theorem fails_iff (given : path.isEmpty = false) : (run find driver config pipeFault path).result = .error f ↔
    ∃ done a, Stops (obstacle? find driver pipeFault path) done a f := by
  constructor
  · intro failed
    rcases stops_or_clear (obstacle? find driver pipeFault path) with ⟨done, a, f', stops⟩ | clear
    · have stopped := run_of_stops config given stops
      cases failed.symm.trans stopped.result
      exact ⟨done, a, stops⟩
    · obtain ⟨node, notices, -, whole⟩ := run_of_clear config given clear
      rw [whole] at failed
      cases failed
  · rintro ⟨done, a, stops⟩
    exact (run_of_stops config given stops).result

end

end Opening

/-! ## Letting go -/

def Activity.isClosing : Activity → Bool
  | .enter .close | .halt _ true | .release => true
  | _ => false

theorem Activity.isExclusive_of_closing {a : Activity} (closing : a.isClosing = true) : a.isExclusive = true := by
  unfold isClosing at closing
  split at closing <;> first | rfl | cases closing

theorem Handle.closing_of_step? {σ : Type} [Endpoint σ] {n : Nat} {c d : Client} {h k : Handle σ}
    (closing : c.activity.isClosing = true) (goes : h.step? n c = some (d, k)) :
    d.activity.isClosing = true ∧ k.released = h.released ∨
      c.activity = .release ∧ d = c.finish .done ∧ k = { h with released := h.released + 1 } := by
  cases doing : c.activity with
  | enter call =>
    rw [doing] at closing
    cases call with
    | close =>
      simp only [step?, doing, enter, Option.some.injEq] at goes
      cases goes
      left
      by_cases running : h.listener.isRunning = true
      · simp [running, Activity.isClosing]
      · simp [running, Activity.isClosing]
    | _ => cases closing
  | halt st final =>
    rw [doing] at closing
    cases final with
    | false => cases closing
    | true =>
      simp only [step?, doing, Option.map_eq_some_iff] at goes
      obtain ⟨⟨next, h'⟩, halts, goes⟩ := goes
      have kept := (halt?_kept halts).2
      cases next <;> cases goes <;> exact .inl ⟨rfl, kept⟩
  | release =>
    simp only [step?, doing, Option.some.injEq] at goes
    cases goes
    exact .inr ⟨rfl, rfl, rfl⟩
  | _ => rw [doing] at closing; cases closing

namespace System

section
variable {σ : Type} [Endpoint σ] [Surroundings σ] {s t : System σ} {e : Event σ} {n : Nat} {c : Client}

theorem Step.released (st : Step s e t) : t.handle.released = s.handle.released ∨
    ∃ n c, e = .move (.run (.client n)) ∧ s.clients[n]? = some c ∧ c.activity = .release ∧
      t = s.turn n (c.finish .done, { s.handle with released := s.handle.released + 1 }) := by
  cases st.cause with
  | ask | listener | listenerLate | incident => exact .inl rfl
  | clientLate _ late =>
    obtain ⟨_, _, -, -, rfl⟩ := Handle.expire?_eq_some late
    exact .inl rfl
  | @client n c d k hc goes =>
    rcases released_of_step? goes with same | leaving
    · exact .inl same
    · simp only [Handle.step?, leaving, Option.some.injEq] at goes
      cases goes
      exact .inr ⟨n, c, rfl, hc, leaving, rfl⟩

theorem Reachable.unreleased (hs : Reachable s) (hc : s.clients[n]? = some c) (busy : c.activity ≠ .idle) :
    s.handle.released = 0 := by
  by_cases released : s.handle.released = 0
  · exact released
  · exact absurd (Client.isAside_iff.mp ((hs.at_rest released).2 n c hc)).1 busy

theorem Reachable.released_le_one (hs : Reachable s) : s.handle.released ≤ 1 := by
  induction hs with
  | start => exact Nat.zero_le 1
  | @step s t e hs st ih =>
    rcases st.released with same | ⟨n, c, -, hc, leaving, rfl⟩
    · omega
    · have unreleased := hs.unreleased hc (by simp [leaving])
      exact Nat.le_of_eq (congrArg (· + 1) unreleased)

omit [Endpoint σ] [Surroundings σ] in
theorem listener_of_not_isListening (idle : s.isListening = false) : s.handle.listener = .stopped := by
  unfold isListening at idle
  cases hl : s.handle.listener with
  | stopped => rfl
  | running => rw [hl] at idle; cases idle

theorem Reachable.no_move (hs : Reachable s) (released : s.handle.released ≠ 0) (m : Move) (t : System σ) :
    ¬Step s (.move m) t := by
  intro st
  obtain ⟨idle, aside⟩ := hs.at_rest released
  have stopped := listener_of_not_isListening idle
  have at_rest {n : Nat} {c : Client} (hc : s.clients[n]? = some c) : c.activity = .idle :=
    (Client.isAside_iff.mp (aside n c hc)).1
  cases st.cause with
  | ask _ _ admitted =>
    simp only [admits, Bool.and_eq_true, beq_iff_eq] at admitted
    exact released admitted.1.1
  | listener on_duty | listenerLate on_duty => rw [stopped] at on_duty; cases on_duty
  | client hc goes => simp [Handle.step?, at_rest hc] at goes
  | clientLate hc late => simp [Handle.expire?, at_rest hc] at late

theorem Step.ended (st : Step s e t) (before : s.isListening = true) (after : t.isListening = false) :
    ∃ wanted w, s.handle.listener = .running wanted w ∧ (w = .finished ∨ w = .crashed) := by
  unfold isListening at before after
  cases st.cause with
  | ask | incident => exact absurd (before.symm.trans after) (by decide)
  | listener | listenerLate => cases after
  | clientLate _ late =>
    obtain ⟨_, _, -, -, rfl⟩ := Handle.expire?_eq_some late
    rw [show (s.turn _ (_, s.handle)).handle = s.handle from rfl, before] at after
    cases after
  | @client n c d k _ goes =>
    change k.listener.isRunning = false at after
    cases Handle.step?_steering goes with
    | keep same => rw [same, before] at after; cases after
    | start _ _ now | clear _ _ _ _ _ now => rw [now] at after; cases after
    | join _ wanted w _ running ended => exact ⟨wanted, w, running, ended⟩

/-! ## Closing -/

structure Closing (n : Nat) (c : Client) (s : System σ) : Prop where
  at_n : s.clients[n]? = some c
  closing : c.activity.isClosing = true
  unreleased : s.handle.released = 0

structure Closed (n : Nat) (s : System σ) : Prop where
  released : s.handle.released = 1
  told : ∃ c, s.clients[n]? = some c ∧ c.activity = .idle ∧ c.reply = some ⟨.done, []⟩

theorem Closing.step (h : Closing n c s) (hs : Reachable s) (st : Step s e t) :
    (∃ d, Closing n d t) ∨ Closed n t := by
  obtain ⟨hc, closing, unreleased⟩ := h
  have exclusive := Activity.isExclusive_of_closing closing
  obtain ⟨-, others⟩ := hs.sound.alone n c hc exclusive
  -- whoever closes the handle is alone, so a busy client is this one
  have only_n {m : Nat} {d : Client} (hd : s.clients[m]? = some d) (busy : d.activity ≠ .idle) : m = n ∧ d = c := by
    by_cases hm : m = n
    · subst hm
      exact ⟨rfl, Option.some.inj (hd.symm.trans hc)⟩
    · exact absurd (Client.isAside_iff.mp (others m d hd hm)).1 busy
  cases st.cause with
  | ask _ _ admitted =>
    have shared := shared_of_admits admitted hc
    rw [exclusive] at shared
    cases shared
  | listener | listenerLate | incident => exact .inl ⟨c, hc, closing, unreleased⟩
  | clientLate hd late =>
    obtain ⟨_, _, doing, -, -⟩ := Handle.expire?_eq_some late
    obtain ⟨rfl, rfl⟩ := only_n hd (by simp [doing])
    rw [doing] at closing
    cases closing
  | @client m d d' k hd goes =>
    obtain ⟨rfl, rfl⟩ := only_n hd fun idle => by simp [Handle.step?, idle] at goes
    have now : (s.turn m (d', k)).clients[m]? = some d' := getElem?_set_at hc d'
    rcases Handle.closing_of_step? closing goes with ⟨closing', kept⟩ | ⟨-, rfl, rfl⟩
    · exact .inl ⟨d', now, closing', kept.trans unreleased⟩
    · exact .inr ⟨congrArg (· + 1) unreleased, _, now, rfl, rfl⟩

theorem Closed.step (h : Closed n s) (hs : Reachable s) (st : Step s e t) : Closed n t := by
  cases e with
  | move m => exact absurd st (hs.no_move (by rw [h.released]; decide) m t)
  | incident =>
    cases st.cause
    exact ⟨h.released, h.told⟩

theorem Closed.follows {tr : Trace σ} (h : Closed n s) (hs : Reachable s) (hf : Follows s tr) :
    Closed n (final s tr) := by
  induction tr generalizing s with
  | nil => exact h
  | cons x tr ih => exact ih (h.step hs hf.1) (hs.step hf.1) hf.2

/-- However it goes on, the endpoint is there until the client's call has ended, and is let go then. -/
theorem Closing.follows {tr : Trace σ} (h : Closing n c s) (hs : Reachable s) (hf : Follows s tr) :
    (∃ d, Closing n d (final s tr)) ∨ Closed n (final s tr) := by
  induction tr generalizing s c with
  | nil => exact .inl ⟨c, h⟩
  | cons x tr ih =>
    obtain ⟨e, t⟩ := x
    rcases h.step hs hf.1 with ⟨d, on⟩ | done
    · exact ih on (hs.step hf.1) hf.2
    · right
      exact done.follows (hs.step hf.1) hf.2

theorem Step.begins_halt (st : Step s e t) (before : s.halt? n = none) {stage : Halt} (after : t.halt? n = some stage) :
    stage = .clear := by
  have of_turn {m : Nat} {c : Client} (u : Turn σ) (hc : s.clients[m]? = some c)
      (other : c.activity.halt? = none → u.1.activity.halt? = some stage → stage = .clear)
      (after : (s.turn m u).halt? n = some stage) : stage = .clear := by
    by_cases hm : m = n
    · subst hm
      rw [halt?_turn_self hc] at after
      refine other ?_ after
      simpa [halt?, hc] using before
    · have same : (s.turn m u).clients[n]? = s.clients[n]? := List.getElem?_set_ne hm
      rw [halt?, same] at after
      exact absurd (after.symm.trans before) (by simp)
  cases st.cause with
  | ask hc => exact of_turn (_, s.handle) hc (fun _ now => by cases now) after
  | listener | listenerLate | incident => exact absurd (after.symm.trans before) (by simp)
  | clientLate hc late =>
    obtain ⟨_, _, -, rfl, rfl⟩ := Handle.expire?_eq_some late
    exact of_turn _ hc (fun _ now => by cases now) after
  | @client m c d k hc goes =>
    refine of_turn (d, k) hc (fun idle now => ?_) after
    cases Handle.clientStep goes with
    | stops => cases now; rfl
    | halting doing => rw [doing] at idle; cases idle
    | @stolen errand => cases errand <;> cases now
    | @halted st closing => cases closing <;> cases now
    | @reading _ _ _ next => rcases next with _ | (_ | _) | _ <;> cases now
    | _ => cases now

theorem Reachable.halting (hs : Reachable s) {stage : Halt} (halts : s.halt? n = some stage) :
    stage = .clear ∨ Stopping n s := by
  induction hs generalizing stage with
  | start endpoint config k =>
    obtain ⟨c, _, hc, doing⟩ := halt?_iff.mp halts
    rw [List.eq_of_mem_replicate (List.mem_of_getElem? hc)] at doing
    cases doing
  | @step s t e hs st ih =>
    cases before : s.halt? n with
    | none => exact .inl (st.begins_halt before halts)
    | some stage' =>
      rcases ih before with rfl | stopping
      · cases hs.sound.haltStep before st with
        | works | late | incident => exact .inl (Option.some.inj (halts.symm.trans before))
        | goes | returns => exact .inr (hs.sound.stopping_of_clear before st).1
      · rcases stopping.step hs.sound st with on | ⟨-, returned⟩
        · exact .inr on
        · cases returned.done.symm.trans halts

theorem Closing.goes {d : Client} {k : Handle σ} (h : Closing n c s) (goes : s.handle.step? n c = some (d, k)) :
    Comes s (s.turn n (d, k)) ∧ (Closing n d (s.turn n (d, k)) ∨ Closed n (s.turn n (d, k))) := by
  refine ⟨.step (step_of_turn h.at_n goes) rfl, ?_⟩
  have now : (s.turn n (d, k)).clients[n]? = some d := getElem?_set_at h.at_n d
  rcases Handle.closing_of_step? h.closing goes with ⟨closing, kept⟩ | ⟨-, rfl, rfl⟩
  · exact .inl ⟨now, closing, kept.trans h.unreleased⟩
  · exact .inr ⟨congrArg (· + 1) h.unreleased, _, now, rfl, rfl⟩

theorem Closing.ends_after {d : Client} {k : Handle σ} (h : Closing n c s) (goes : s.handle.step? n c = some (d, k))
    (rest : Closing n d (s.turn n (d, k)) → ∃ t, Comes (s.turn n (d, k)) t ∧ Closed n t) :
    ∃ t, Comes s t ∧ Closed n t := by
  obtain ⟨comes, on | closed⟩ := h.goes goes
  · obtain ⟨t, comes', closed⟩ := rest on
    exact ⟨t, comes.trans comes', closed⟩
  · exact ⟨_, comes, closed⟩

theorem Comes.reachable {t : System σ} (h : Comes s t) (hs : Reachable s) : Reachable t := by
  obtain ⟨tr, follows, -, rfl⟩ := h
  exact hs.follows follows

theorem Closing.ends_of_release (h : Closing n c s) (leaving : c.activity = .release) :
    ∃ t, Comes s t ∧ Closed n t := by
  have goes : s.handle.step? n c = some (c.finish .done, { s.handle with released := s.handle.released + 1 }) := by
    simp only [Handle.step?, leaving]
  refine h.ends_after goes fun on => ?_
  have := on.closing
  cases this

end

section
variable {σ : Type} [Endpoint σ] [Surroundings σ] [Separate σ] {s : System σ} {n : Nat} {c : Client}

theorem Stopping.returns (h : Stopping n s) (hs : Reachable s) : ∃ t, Comes s t ∧ Returned n t := by
  -- by the steps that are left, each of which some party can take
  generalize measure : stepsLeft n s = k
  induction k using Nat.strongRecOn generalizing s with
  | ind k ih =>
    obtain ⟨m, t, st⟩ := h.goes_on hs
    obtain ⟨stage, halts⟩ := h.halts
    have silent : (Event.move m : Event σ).isOperation = false := by
      cases m with
      | ask => cases hs.sound.haltStep halts st
      | _ => rfl
    rcases h.step hs.sound st with on | ⟨-, returned⟩
    · have paid := (h.paid hs.sound on st).steps
      rw [isMove, if_pos rfl] at paid
      obtain ⟨u, comes, returned⟩ := ih (stepsLeft n t) (by omega) on (hs.step st) rfl
      exact ⟨u, (Comes.step st silent).trans comes, returned⟩
    · exact ⟨t, .step st silent, returned⟩

theorem Closing.ends_of_stopping (h : Closing n c s) (hs : Reachable s) (stopping : Stopping n s) :
    ∃ t, Comes s t ∧ Closed n t := by
  obtain ⟨t, comes, returned⟩ := stopping.returns hs
  obtain ⟨tr, follows, -, rfl⟩ := id comes
  rcases h.follows hs follows with ⟨d, on⟩ | closed
  · rcases returned.clients n d on.at_n with idle | leaving
    · have := on.closing
      rw [idle] at this
      cases this
    · obtain ⟨u, comes', closed⟩ := on.ends_of_release leaving
      exact ⟨u, comes.trans comes', closed⟩
  · exact ⟨_, comes, closed⟩

theorem Closing.ends_of_clear (h : Closing n c s) (hs : Reachable s) (clear : s.halt? n = some .clear) :
    ∃ t, Comes s t ∧ Closed n t := by
  obtain ⟨c', final, hc, doing⟩ := halt?_iff.mp clear
  cases h.at_n.symm.trans hc
  obtain ⟨⟨d, k⟩, goes⟩ : ∃ u, s.handle.step? n c = some u := by
    apply Option.isSome_iff_exists.mp
    simp only [Handle.step?, doing, Option.isSome_map, Handle.halt?]
    split <;> rfl
  have st := step_of_turn h.at_n goes
  exact h.ends_after goes fun on => on.ends_of_stopping (hs.step st) (hs.sound.stopping_of_clear clear st).1

/-- Whoever closes the handle can always come to the end of it, and has let the endpoint go then. -/
theorem Closing.ends (h : Closing n c s) (hs : Reachable s) : ∃ t, Comes s t ∧ Closed n t := by
  have closing := h.closing
  cases doing : c.activity with
  | release => exact h.ends_of_release doing
  | halt stage final =>
    have halts : s.halt? n = some stage := halt?_iff.mpr ⟨c, final, h.at_n, doing⟩
    rcases hs.halting halts with rfl | stopping
    · exact h.ends_of_clear hs halts
    · exact h.ends_of_stopping hs stopping
  | enter call =>
    rw [doing] at closing
    cases call with
    | close =>
      have goes : s.handle.step? n c =
          some (c.goOn (if s.handle.listener.isRunning then .halt .clear true else .release), s.handle) := by
        simp only [Handle.step?, doing, Handle.enter]
      by_cases running : s.handle.listener.isRunning = true
      · rw [if_pos running] at goes
        have clear := halt?_turn_self h.at_n (c.goOn (.halt .clear true), s.handle)
        exact h.ends_after goes fun on => on.ends_of_clear (hs.step (step_of_turn h.at_n goes)) clear
      · rw [if_neg running] at goes
        exact h.ends_after goes fun on => on.ends_of_release rfl
    | _ => cases closing
  | _ => rw [doing] at closing; cases closing

end

section
variable {σ : Type} [Endpoint σ] [Surroundings σ]

/-- What holds of a handle's endpoint in a state, and in whatever comes after it. -/
structure Custody (s : System σ) : Prop where
  once : s.handle.released ≤ 1
  unused : s.handle.released ≠ 0 → s.handle.listener = .stopped ∧
    (∀ (n : Nat) (c : Client), s.clients[n]? = some c → c.activity = .idle ∧ c.permits = []) ∧
    ∀ (m : Move) (t : System σ), ¬Step s (.move m) t
  joined : ∀ (e : Event σ) (t : System σ), Step s e t → s.isListening = true → t.isListening = false →
    ∃ wanted w, s.handle.listener = .running wanted w ∧ (w = .finished ∨ w = .crashed)
  last : ∀ (e : Event σ) (t : System σ), Step s e t → t.handle.released ≠ s.handle.released →
    s.handle.released = 0 ∧ t.handle.released = 1 ∧ s.handle.listener = .stopped ∧
    ∃ n c, e = .move (.run (.client n)) ∧ s.clients[n]? = some c ∧ c.activity = .release
  closes : ∀ (n : Nat) (c : Client), s.clients[n]? = some c → c.activity.isClosing = true →
    ∀ tr, Follows s tr → (∃ d, Closing n d (final s tr)) ∨ Closed n (final s tr)

theorem Reachable.closing {s : System σ} {n : Nat} {c : Client} (hs : Reachable s) (hc : s.clients[n]? = some c)
    (closing : c.activity.isClosing = true) : Closing n c s :=
  ⟨hc, closing, hs.unreleased hc fun idle => by rw [idle] at closing; cases closing⟩

theorem Reachable.custody {s : System σ} (hs : Reachable s) : Custody s where
  once := hs.released_le_one
  unused released := by
    obtain ⟨idle, aside⟩ := hs.at_rest released
    exact ⟨listener_of_not_isListening idle, fun n c hc => Client.isAside_iff.mp (aside n c hc), hs.no_move released⟩
  joined _ _ st before after := st.ended before after
  last e t st changed := by
    rcases st.released with same | ⟨n, c, rfl, hc, leaving, rfl⟩
    · exact absurd same changed
    · have unreleased := hs.unreleased hc (by simp [leaving])
      have idle := (hs.sound.fits n c hc).activity
      rw [leaving] at idle
      exact ⟨unreleased, congrArg (· + 1) unreleased, listener_of_not_isListening idle, n, c, rfl, hc, leaving⟩
  closes _ _ hc closing _ hf := (hs.closing hc closing).follows hs hf

/-- Opening a node stops at the first of its attempts that fails, with the fault of that one, and lets the file go iff
it was open; an empty path is refused before all. Otherwise there is a handle, which has the endpoint. In each state
that the handle can come to, whatever the endpoint, the endpoint was let go at most once. Only the last step of closing
does so, when the listener's thread has ended. From then on nothing happens. A call that closes the handle lets the
endpoint go when it has ended and not before, and it can always come to its end. -/
theorem device_lifetime (find : String → Except SystemError Place) (driver : Node.Driver) (config : Config)
    (pipeFault : Option Int) (path : String) (endpoint : σ) :
    let o := Opening.run find driver config pipeFault path
    let stops := Opening.Stops (Opening.obstacle? find driver pipeFault path)
    (path.isEmpty = true → o = .unopened (.invalidArgument .noNode) []) ∧
      (path.isEmpty = false → (∀ f, o.result = .error f ↔ ∃ done a, stops done a f) ∧
        (∀ done a f, stops done a f → o.Stopped path done a f) ∧
        ∀ h, o.result = .ok h → ∃ node, node.path = path ∧ h = .fresh node config ∧ o.attempts = Opening.course ∧
          o.dropped = none) ∧
      (Handle.make pipeFault config endpoint).mapError Prod.fst =
        (match pipeFault with
        | some n => .error (.setup (.tabled n))
        | none => .ok (.fresh endpoint config)) ∧
      ∀ (k : Nat) (tr : Trace σ), Follows (start (.fresh endpoint config) k) tr →
        let s := final (start (.fresh endpoint config) k) tr
        Custody s ∧ ∀ [Separate σ] (n : Nat) (c : Client), s.clients[n]? = some c → c.activity.isClosing = true →
          ∃ t, Comes s t ∧ Closed n t := by
  intro o stops
  refine ⟨fun empty => ?_, fun given => ⟨fun f => Opening.fails_iff given,
    fun done a f => Opening.run_of_stops config given, fun h opened => ?_⟩, ?_, fun k tr hf => ?_⟩
  · simp only [o, Opening.run, empty, if_true]
  · rcases Opening.stops_or_clear (Opening.obstacle? find driver pipeFault path) with ⟨done, a, f, stops⟩ | clear
    · exact absurd (opened.symm.trans (Opening.run_of_stops config given stops).result) (by simp)
    · obtain ⟨node, notices, same, whole⟩ := Opening.run_of_clear config given clear
      have opened : (Opening.run find driver config pipeFault path).result = .ok h := opened
      rw [whole] at opened
      cases opened
      exact ⟨node, same, rfl, congrArg Opening.attempts whole, congrArg Opening.dropped whole⟩
  · cases pipeFault <;> rfl
  · intro s
    have hs : Reachable s := (Reachable.start endpoint config k).follows hf
    exact ⟨hs.custody, fun n c hc closing => (hs.closing hc closing).ends hs⟩

/-- A file that no driver stands behind is let go before the pipe is tried. The listener of a handle over another
endpoint dies of a report that was too long, and the handle is closed: its endpoint is let go in the end, and only
then. -/
theorem device_lifetime_past_death :
    let o := Opening.run (fun _ => .ok .null) ⟨none, .empty⟩ .standard (some 24) "node"
    let s := start (.fresh (Bench.fresh.arrive [.report ⟨[1], 5000⟩]) .standard) 1
    let tr := play s [.move (.ask 0 .start), .move (.run (.client 0)), .move (.run .listener), .move (.run .listener),
      .move (.run .listener), .move (.run .listener), .move (.ask 0 .close), .move (.run (.client 0)),
      .move (.run (.client 0)), .move (.run (.client 0)), .move (.run (.client 0))]
    let t := final s tr
    o.result = .error (.io (.tabled Errno.notTerminal)) ∧ o.attempts = [.file, .identity] ∧
      o.dropped.map Node.path = some "node" ∧ tr.length = 11 ∧ t.handle.released = 0 ∧
      ∃ u, Comes t u ∧ u.handle.released = 1 ∧ u.handle.listener = .stopped := by
  intro o s tr t
  obtain ⟨-, opening, -, -⟩ :=
    device_lifetime (fun _ => .ok .null) ⟨none, .empty⟩ .standard (some 24) "node" Bench.fresh
  obtain ⟨-, stopped, -⟩ := opening (by decide)
  have first : Opening.Stopped o "node" [.file] .identity (.io (.tabled Errno.notTerminal)) :=
    stopped [.file] .identity _ ⟨⟨[.pipe], rfl⟩, by decide, rfl⟩
  obtain ⟨-, -, -, runs⟩ := device_lifetime (fun _ => .ok .null) ⟨none, .empty⟩ .standard none "node"
    (Bench.fresh.arrive [.report ⟨[1], 5000⟩])
  obtain ⟨custody, ends⟩ := runs 1 tr (follows_play _ _)
  have closing : t.clients[0]?.any (·.activity.isClosing) = true := by decide +kernel
  obtain ⟨c, hc, closing⟩ := (Option.any_eq_true ..).mp closing
  obtain ⟨u, comes, closed⟩ := ends 0 c hc closing
  refine ⟨first.result, first.attempts, first.dropped, by decide +kernel, by decide +kernel, u, comes, closed.released,
    ?_⟩
  obtain ⟨tr', follows, -, rfl⟩ := comes
  obtain ⟨custody', -⟩ := runs 1 (tr ++ tr') (follows_append.mpr ⟨follows_play _ _, follows⟩)
  rw [final_append] at custody'
  exact (custody'.unused (by rw [closed.released]; decide)).1

end

end System

end HidGate
