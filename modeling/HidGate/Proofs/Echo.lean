import HidGate.Proofs.Alike

/-!
# A run without its requests and writes

To each run of one caller there is a run in which this caller makes no requests and no writes and all else is the
same. In the second run the listener waits before its cycle as long as the first run's listener has seen nothing:
while that one is about to poll, polls in vain, or is interrupted for a request that the second run does not have. It
takes the read path when the first listener's poll has an outcome, and when it is told to finish.
-/

namespace HidGate

def Duty.isWaiting : Duty → Bool
  | .check | .acquire | .read .poll | .read .drain | .gate | .pass => true
  | .leave (.error f) => f.isTransient
  | _ => false

/-- How the listeners of the two runs stand, with these bytes in the pipes: level, or the second one behind. Level
they poll only if they are told to finish. -/
inductive Lags (p p' : Pipe) : Listener → Listener → Prop
  | level {l : Listener}
      (told : ∀ wanted w, l = .running wanted w → w.mayPoll = true → wanted = false ∧ p' = p) : Lags p p' l l
  | behind {wanted : Bool} {d : Duty} (waiting : d.isWaiting = true)
      (polls : (Worker.working d).mayPoll = true → wanted = true) :
      Lags p p' (.running wanted (.working d)) (.running wanted (.working .check))

section
variable {p p' q q' : Pipe} {l l' : Listener}

theorem Lags.of_not_mayPoll {wanted : Bool} {w : Worker} (h : w.mayPoll = false) :
    Lags p p' (.running wanted w) (.running wanted w) := by
  refine .level fun wanted' w' same may => ?_
  cases same
  rw [h] at may; cases may

theorem Lags.stopped : Lags p p' .stopped .stopped := by
  refine .level fun wanted w same => ?_
  cases same

theorem Lags.behind_of_not_mayPoll {wanted : Bool} {d : Duty} (waiting : d.isWaiting = true)
    (h : (Worker.working d).mayPoll = false) :
    Lags p p' (.running wanted (.working d)) (.running wanted (.working .check)) :=
  .behind waiting fun may => by rw [h] at may; cases may

theorem Lags.isRunning (h : Lags p p' l l') : l.isRunning = l'.isRunning := by
  cases h <;> rfl

theorem Lags.holds (h : Lags p p' l l') (free : l.holds = 0) : l'.holds = 0 := by
  cases h with
  | level => exact free
  | behind => rfl

theorem Lags.grabs (h : Lags p p' l l') (free : l.grabs = 0) : l'.grabs = 0 := by
  cases h with
  | level => exact free
  | behind => rfl

theorem Lags.map (h : Lags p p' l l') (f : Pipe → Pipe) : Lags (f p) (f p') l l' := by
  cases h with
  | level told =>
    refine .level fun wanted w same may => ?_
    obtain ⟨off, pipe⟩ := told wanted w same may
    exact ⟨off, congrArg f pipe⟩
  | behind waiting polls => exact .behind waiting polls

/-- While the listener is not told to finish, the pipes do not matter. -/
theorem Lags.of_wanted (h : Lags p p' l l') (wanted : ∀ w, l ≠ .running false w) : Lags q q' l l' := by
  cases h with
  | level told =>
    refine .level fun on w same may => ?_
    obtain ⟨rfl, -⟩ := told on w same may
    exact absurd same (wanted w)
  | behind waiting polls => exact .behind waiting polls

end

inductive Shadows (call? call?' : Option Call) : Client → Client → Prop
  | same {c : Client} (kept : c.activity.isExchange = false) (calls : call?' = call?) : Shadows call? call?' c c
  | apart {c c' : Client} (idle : c'.activity = .idle) (permits : c'.permits = c.permits)
      (away : c.activity = .idle ∨ c.activity.isExchange = true) : Shadows call? call?' c c'

section
variable {call? call?' : Option Call} {c c' : Client}

theorem Shadows.permits_eq (h : Shadows call? call?' c c') : c'.permits = c.permits := by
  cases h with
  | same => rfl
  | apart _ permits => exact permits

theorem Shadows.of_kept (h : Shadows call? call?' c c') (busy : c.activity ≠ .idle)
    (kept : c.activity.isExchange = false) : c' = c ∧ call?' = call? := by
  cases h with
  | same _ calls => exact ⟨rfl, calls⟩
  | apart _ _ away =>
    rcases away with idle | exchange
    · exact absurd idle busy
    · rw [kept] at exchange; cases exchange

theorem Shadows.idle_of_away (h : Shadows call? call?' c c')
    (away : c.activity = .idle ∨ c.activity.isExchange = true) : c'.activity = .idle := by
  cases h with
  | same kept =>
    rcases away with idle | exchange
    · exact idle
    · rw [kept] at exchange; cases exchange
  | apart idle => exact idle

theorem Shadows.holds (h : Shadows call? call?' c c') (free : c.holds = 0) : c'.holds = 0 := by
  cases h with
  | same => exact free
  | apart idle permits =>
    rw [Client.holds_of_activity idle, permits]
    exact Nat.le_zero.mp (Nat.le_trans (Nat.le_add_right ..) (Nat.le_of_eq free))

theorem Shadows.grabs (h : Shadows call? call?' c c') (free : c.activity.grabs = 0) : c'.activity.grabs = 0 := by
  cases h with
  | same => exact free
  | apart idle => rw [idle]; rfl

theorem Shadows.hasCalled (h : Shadows call? call?' c c') (quiet : c.activity.hasCalled = false) :
    c'.activity.hasCalled = false := by
  cases h with
  | same => exact quiet
  | apart idle => rw [idle]; rfl

end

theorem DutyStep.mayPoll {σ : Type} [Endpoint σ] {wanted : Bool} {d : Duty} {g k : Gate σ} {w : Worker}
    (h : DutyStep wanted g d w k) (may : w.mayPoll = true) :
    d = .check ∧ wanted = true ∨ d = .acquire ∧ k.lock.pipe = g.lock.pipe := by
  cases h with
  | goesOn on => exact .inl ⟨rfl, on⟩
  | acquires => exact .inr ⟨rfl, rfl⟩
  | reads step => cases step <;> cases may
  | _ => cases may

namespace Handle

variable {σ : Type} {h : Handle σ} {who : Party} {wanted : Bool}

theorem halt?_clear_stopped (stopped : h.listener = .stopped) : h.halt? who .clear = some (none, h) := by
  simp only [halt?, stopped]

theorem halt?_clear {w : Worker} (running : h.listener = .running wanted w) :
    h.halt? who .clear = some (some .wake, { h with listener := .running false w }) := by
  simp only [halt?, running]

theorem halt?_join_finished (finished : h.listener = .running wanted .finished) :
    h.halt? who .join = some (some .drain, { h with listener := .stopped }) := by
  simp only [halt?, finished]

theorem halt?_join_crashed (crashed : h.listener = .running wanted .crashed) :
    h.halt? who .join = some (some .drain, { h with listener := .stopped }.note who .listenerCrashed) := by
  simp only [halt?, crashed]

end Handle

namespace System

/-! ## The two runs -/

variable {σ : Type} [Endpoint σ] [Surroundings σ] [Separate σ]

structure Echo (call? call?' : Option Call) (s s' : System σ) (c c' : Client) : Prop where
  client : Shadows call? call?' c c'
  handle : s.handle.Alike s'.handle
  listener : Lags s.lock.pipe s'.lock.pipe s.handle.listener s'.handle.listener

namespace Echo

variable {call? call?' : Option Call} {s s' : System σ} {c c' : Client}

/-! ### The listener -/

theorem reader_free (h : Echo call? call?' s s' c c') (lone : Lone s c) (lone' : Lone s' c')
    (free : s.lock.reader = none) : s'.lock.reader = none := by
  have none_holds (p : Party) : s.holds p = 0 := by
    rw [lone.sound.reader p, free]; rfl
  refine lone'.reader_eq_none (h.listener.holds (none_holds .listener)) (h.client.holds ?_)
  rw [← (holds_of_at lone.at_zero).1]
  exact none_holds _

theorem grabber_free (h : Echo call? call?' s s' c c') (lone : Lone s c) (lone' : Lone s' c')
    (free : s.lock.grabber = none) : s'.lock.grabber = none := by
  have none_grabs (p : Party) : s.grabs p = 0 := by
    rw [lone.sound.grabber p, free]; rfl
  refine lone'.grabber_eq_none (h.listener.grabs (none_grabs .listener)) (h.client.grabs ?_)
  rw [← (holds_of_at lone.at_zero).2]
  exact none_grabs _

variable {wanted : Bool} {d : Duty} {w w' : Worker} {g g' : Gate σ}

theorem work (h : Echo call? call?' s s' c c') (gates : g.Alike g')
    (lags : Lags g.lock.pipe g'.lock.pipe (.running wanted w) (.running wanted w')) :
    Echo call? call?' (s.work wanted (w, g)) (s'.work wanted (w', g')) c c' :=
  ⟨h.client, ⟨gates, h.handle.config, h.handle.released⟩, lags⟩

theorem linger (h : Echo call? call?' s s' c c') (gates : g.Alike s'.handle.gate)
    (lags : Lags g.lock.pipe s'.lock.pipe (.running wanted w) s'.handle.listener) :
    Echo call? call?' (s.work wanted (w, g)) s' c c' :=
  ⟨h.client, ⟨gates, h.handle.config, h.handle.released⟩, lags⟩

def Keeps (call? call?' : Option Call) (t s' : System σ) (c c' : Client) : Prop :=
  ∃ t', Leads call?' s' [] [] call?' t' ∧ t'.clients = [c'] ∧ Echo call? call?' t t' c c'

theorem keeps (h : Echo call? call?' s s' c c') (lone' : Lone s' c') : Keeps call? call?' s s' c c' :=
  ⟨s', .stay _ _, lone'.clients, h⟩

omit [Separate σ] in
theorem leads_of_duty (lone' : Lone s' c') (on_duty : s'.handle.listener = .running wanted (.working d))
    (step : DutyStep wanted s'.handle.gate d w g) : Leads call?' s' [] [] call?' (s'.work wanted (w, g)) :=
  .silent (step_of_duty on_duty step) rfl lone'.clients lone'.clients rfl

def polling (s' : System σ) : System σ :=
  s'.work true
    (.working (.read .poll), { s'.handle.gate with lock := { s'.handle.gate.lock with reader := some .listener } })

omit [Separate σ] in
theorem catch_up (call? : Option Call) (lone' : Lone s' c')
    (on_duty : s'.handle.listener = .running true (.working .check)) (free : s'.lock.reader = none) :
    Leads call? s' [] [] call? (s'.work true (.working .acquire, s'.handle.gate)) ∧
      Leads call? s' [] [] call? (polling s') := by
  have first : Leads call? s' [] [] call? (s'.work true (.working .acquire, s'.handle.gate)) :=
    leads_of_duty lone' on_duty (.goesOn rfl)
  have between := lone'.leads first lone'.clients
  have second : Leads call? (s'.work true (.working .acquire, s'.handle.gate)) [] [] call? (polling s') :=
    leads_of_duty between rfl (.acquires free)
  exact ⟨first, first.trans second⟩

theorem outcome {next : ReadNext} (h : Echo call? call?' s s' c c') (lone : Lone s c) (lone' : Lone s' c')
    (on_duty : s.handle.listener = .running true (.working (.read .poll)))
    (on_duty' : s'.handle.listener = .running true (.working .check))
    (step' : ReadStep .listener true (polling s').handle.gate .poll next g') (gates : g.Alike g')
    (seen : (Duty.ofRead (next, g)).1.mayPoll = false) :
    Keeps call? call?' (s.work true (Duty.ofRead (next, g))) s' c c' := by
  have unheld : c.holds = 0 := lone.not_both_hold (by rw [on_duty]; exact Nat.one_pos)
  have free : s'.lock.reader = none := lone'.reader_eq_none (by rw [on_duty']; rfl) (h.client.holds unheld)
  have up : Leads call?' s' [] [] call?' (polling s') := (catch_up call?' lone' on_duty' free).2
  have there := lone'.leads up lone'.clients
  obtain ⟨worker, gates⟩ := Duty.ofRead_alike next gates
  refine ⟨(polling s').work true (Duty.ofRead (next, g')), up.trans (leads_of_duty there rfl (.reads step')),
    lone'.clients, ?_⟩
  refine ⟨h.client, ⟨gates, h.handle.config, h.handle.released⟩, ?_⟩
  change Lags _ _ (.running true (Duty.ofRead (next, g)).1) (.running true (Duty.ofRead (next, g')).1)
  rw [← worker]
  exact .of_not_mayPoll seen

theorem listener_level (h : Echo call? call?' s s' c c') (lone : Lone s c) (lone' : Lone s' c')
    (step : DutyStep wanted s.handle.gate d w g)
    (on_duty' : s'.handle.listener = .running wanted (.working d))
    (told : (Worker.working d).mayPoll = true → wanted = false ∧ s'.lock.pipe = s.lock.pipe) :
    Keeps call? call?' (s.work wanted (w, g)) s' c c' := by
  by_cases check : d = .check ∧ wanted = true
  · obtain ⟨rfl, rfl⟩ := check
    cases step with
    | goesOn => exact (h.linger h.handle.gate (by rw [on_duty']; exact .behind rfl fun _ => rfl)).keeps lone'
    | exits off => cases off
  · have reader : d = .acquire → s'.lock.reader = none := by
      rintro rfl
      cases step with
      | acquires free => exact h.reader_free lone lone' free
    have grabber : d = .gate → s'.lock.grabber = none := by
      rintro rfl
      cases step with
      | grabs free => exact h.grabber_free lone lone' free
    have pipe : d = .read .poll → s'.lock.pipe.isEmpty = s.lock.pipe.isEmpty := by
      rintro rfl
      rw [(told rfl).2]
    obtain ⟨g', step', gates⟩ := step.alike h.handle.gate reader grabber pipe
    refine ⟨s'.work wanted (w, g'), leads_of_duty lone' on_duty' step', lone'.clients, h.work gates ?_⟩
    refine .level fun wanted' w' same may => ?_
    cases same
    rcases step.mayPoll may with now | ⟨rfl, kept⟩
    · exact absurd now check
    · rcases step'.mayPoll may with ⟨now, -⟩ | ⟨-, kept'⟩
      · cases now
      · obtain ⟨off, same⟩ := told rfl
        exact ⟨off, kept'.trans (same.trans kept.symm)⟩

theorem listener_behind (h : Echo call? call?' s s' c c') (lone : Lone s c) (lone' : Lone s' c')
    (on_duty : s.handle.listener = .running wanted (.working d)) (step : DutyStep wanted s.handle.gate d w g)
    (on_duty' : s'.handle.listener = .running wanted (.working .check)) (waiting : d.isWaiting = true)
    (polls : (Worker.working d).mayPoll = true → wanted = true) :
    Keeps call? call?' (s.work wanted (w, g)) s' c c' := by
  have alike := h.handle.gate
  have unlocked {l : SoftLock} : Gate.Alike { s.handle.gate with lock := l } s'.handle.gate :=
    (s.handle.gate.alike_withLock l).symm.trans alike
  have stays {g : Gate σ} {w : Worker} (gates : g.Alike s'.handle.gate)
      (lags : Lags g.lock.pipe s'.lock.pipe (.running wanted w) (.running wanted (.working .check))) :
      Keeps call? call?' (s.work wanted (w, g)) s' c c' :=
    (h.linger gates (by rwa [on_duty'])).keeps lone'
  cases step with
  | goesOn on => exact stays alike (.behind rfl fun _ => on)
  | exits off =>
    exact ⟨_, leads_of_duty lone' on_duty' (.exits off), lone'.clients, h.work (alike.note _ _) (.of_not_mayPoll rfl)⟩
  | acquires => exact stays unlocked (.behind rfl fun _ => polls rfl)
  | @reads st next g step =>
    cases step with
    | pollFault fault =>
      obtain rfl : wanted = true := polls rfl
      obtain ⟨x, fault', same⟩ := pollFault_eq_some alike.input fault
      exact h.outcome lone lone' on_duty on_duty' (.pollFault fault')
        ((alike.withLock _ _).withEndpoint same) rfl
    | wake => exact stays alike (.behind_of_not_mayPoll rfl rfl)
    | ready fault empty ready =>
      obtain rfl : wanted = true := polls rfl
      -- the second pipe is empty as well: the client has not called
      have quiet := h.client.hasCalled (lone.quiet_of_poll on_duty empty)
      have empty' : s'.lock.pipe.isEmpty = true := by rw [lone'.pipe_eq_empty quiet]; rfl
      exact h.outcome lone lone' on_duty on_duty'
        (.ready (pollFault_eq_none alike.input fault) empty' ((ready_congr alike.input).symm.trans ready))
        (alike.trans (s'.handle.gate.alike_withLock _)) rfl
    | drain => exact stays unlocked (.behind_of_not_mayPoll rfl rfl)
    | fault | empty | overlong | report | accepted | rejected | crashed => cases waiting
  | bears => exact stays unlocked (.behind_of_not_mayPoll rfl rfl)
  | fails hard => cases hard.symm.trans waiting
  | grabs | passes => exact stays unlocked (.behind_of_not_mayPoll rfl rfl)
  | drained | resumes => cases waiting

theorem listener_step (h : Echo call? call?' s s' c c') (lone : Lone s c) (lone' : Lone s' c')
    (on_duty : s.handle.listener = .running wanted (.working d)) (step : DutyStep wanted s.handle.gate d w g) :
    Keeps call? call?' (s.work wanted (w, g)) s' c c' := by
  have lags := h.listener
  rw [on_duty] at lags
  generalize on_duty' : s'.handle.listener = l' at lags
  cases lags with
  | level told => exact h.listener_level lone lone' step on_duty' (told _ _ rfl)
  | behind waiting polls => exact h.listener_behind lone lone' on_duty step on_duty' waiting polls

theorem listener_late (h : Echo call? call?' s s' c c') (lone' : Lone s' c')
    (on_duty : s.handle.listener = .running wanted (.working (.read .poll))) (late : s.handle.gate.isIdle = true) :
    Keeps call? call?' (s.work wanted (.working (.leave (.error .timeout)), s.handle.gate)) s' c c' := by
  have lags := h.listener
  rw [on_duty] at lags
  generalize on_duty' : s'.handle.listener = l' at lags
  cases lags with
  | level told =>
    have pipe := (told _ _ rfl rfl).2
    have late' : s'.handle.gate.isIdle = true := h.handle.gate.isIdle (congrArg Pipe.isEmpty pipe) late
    exact ⟨_, .silent (step_of_late on_duty' late') rfl lone'.clients lone'.clients rfl, lone'.clients,
      h.work h.handle.gate (.of_not_mayPoll rfl)⟩
  | behind => exact (h.linger h.handle.gate (by rw [on_duty']; exact .behind_of_not_mayPoll rfl rfl)).keeps lone'

/-! ### The client -/

/-- The second run does what the first does with `e`, unless it is a request or a write, and hears the same of all
else. -/
def Mirrors (call? call?' : Option Call) (s s' : System σ) (e : Event σ) (t : System σ) (d : Client) : Prop :=
  ∃ t' d' call?'', Leads call?' s' (([e].filter Event.isOperation).filter (!·.isExchange))
    ((answer? (callAfter call? e) s t).toList.filter (!·.1.isExchange)) call?'' t' ∧ t'.clients = [d'] ∧
    Echo (callAfter call? e) call?'' t t' d d'

variable {t : System σ} {d : Client} {k : Handle σ} {e : Event σ}

theorem Keeps.mirrors (h : Keeps call? call?' t s' c c') (lone : Lone s c)
    (silent : e.isOperation = false) (hc : t.clients = [c]) : Mirrors call? call?' s s' e t c := by
  obtain ⟨t', leads, hc', echo⟩ := h
  refine ⟨t', c', call?', ?_, hc', ?_⟩
  · rw [answer?_of_sole lone.clients hc rfl, List.filter_cons_of_neg (by simp [silent])]
    exact leads
  · rwa [callAfter_of_silent call? silent]

theorem both (h : Echo call? call?' s s' c c') (lone : Lone s c) (known : Known call? c) (busy : c.activity ≠ .idle)
    (kept : c.activity.isExchange = false) (silent : e.isOperation = false) {u : System σ}
    (up : Leads call?' s' [] [] call?' u) (hu : u.clients = [c]) {k' : Handle σ} (step' : Step u e ⟨k', [d]⟩)
    (kept' : d.activity.isExchange = false) (alike : k.Alike k')
    (lags : Lags k.gate.lock.pipe k'.gate.lock.pipe k.listener k'.listener) :
    Mirrors call? call?' s s' e ⟨k, [d]⟩ d := by
  obtain ⟨-, rfl⟩ := h.client.of_kept busy kept
  have both : answer? call?' u ⟨k', [d]⟩ = answer? call?' s ⟨k, [d]⟩ := by
    rw [answer?, answer?, ended?_of_sole hu rfl, ended?_of_sole lone.clients rfl]
  have all : (answer? call?' s ⟨k, [d]⟩).toList.filter (!·.1.isExchange) = (answer? call?' s ⟨k, [d]⟩).toList := by
    refine List.filter_eq_self.mpr fun a ha => ?_
    rw [known.answer busy ha, kept]; rfl
  have leads := up.trans (.step call?' step')
  refine ⟨⟨k', [d]⟩, d, call?', ?_, rfl, ?_⟩
  · rw [callAfter_of_silent call?' silent, List.filter_cons_of_neg (by simp [silent])] at leads ⊢
    rw [all, ← both]
    exact leads
  · rw [callAfter_of_silent call?' silent]
    exact ⟨.same kept' rfl, alike, lags⟩

theorem client_late {buffer : Bytes} {propagate : Bool} (h : Echo call? call?' s s' c c') (lone : Lone s c)
    (lone' : Lone s' c') (known : Known call? c) (doing : c.activity = .read .poll buffer propagate)
    (late : s.handle.gate.isIdle = true) :
    Mirrors call? call?' s s' (.move (.expire (.client 0))) ⟨s.handle, [c.answer ⟨.fault .timeout, buffer⟩]⟩
      (c.answer ⟨.fault .timeout, buffer⟩) := by
  have busy : c.activity ≠ .idle := by rw [doing]; simp
  have kept : c.activity.isExchange = false := by rw [doing]; rfl
  have quiet : c.activity.hasCalled = false := by rw [doing]; rfl
  obtain ⟨rfl, -⟩ := h.client.of_kept busy kept
  have pipe : s'.lock.pipe = s.lock.pipe := (lone'.pipe_eq_empty quiet).trans (lone.pipe_eq_empty quiet).symm
  have late' : s'.handle.gate.isIdle = true := h.handle.gate.isIdle (congrArg Pipe.isEmpty pipe) late
  have step' : Step s' (.move (.expire (.client 0))) ⟨s'.handle, [c'.answer ⟨.fault .timeout, buffer⟩]⟩ := by
    refine ⟨rfl, ?_⟩
    simp [happen?, next, System.expire?, lone'.clients, Handle.expire?, doing, ReadStage.expire?, late', turn]
    rfl
  exact h.both lone known busy kept rfl (.stay _ _) lone'.clients step' rfl h.handle h.listener

theorem client_away (h : Echo call? call?' s s' c c') (lone : Lone s c) (lone' : Lone s' c') (known : Known call? c)
    (exchange : c.activity.isExchange = true) (step : s.handle.step? 0 c = some (d, k)) :
    Mirrors call? call?' s s' (.move (.run (.client 0))) ⟨k, [d]⟩ d := by
  have busy : c.activity ≠ .idle := fun idle => by rw [idle] at exchange; cases exchange
  obtain ⟨alike, listener, permits, away⟩ := Handle.step?_alike_of_isExchange step exchange
  have unheard : (answer? call? s ⟨k, [d]⟩).toList.filter (!·.1.isExchange) = [] := by
    refine List.filter_eq_nil_iff.mpr fun a ha => ?_
    rw [known.answer busy ha, exchange]; simp
  have wanted (w : Worker) : s.handle.listener ≠ .running false w := by
    intro told
    obtain ⟨st, halts⟩ := (lone.stopping (.inl ⟨w, told⟩)).halts
    rw [lone.halt?_eq] at halts
    cases ha : c.activity with
    | halt => rw [ha] at exchange; cases exchange
    | _ => rw [ha] at halts; cases halts
  refine ⟨s', c', call?', ?_, lone'.clients, ?_, alike.symm.trans h.handle, ?_⟩
  · rw [show callAfter call? (.move (.run (.client 0)) : Event σ) = call? from rfl, unheard]
    exact .stay _ _
  · exact .apart (h.client.idle_of_away (.inr exchange)) (h.client.permits_eq.trans permits.symm) away
  · change Lags k.gate.lock.pipe s'.lock.pipe k.listener s'.handle.listener
    rw [listener]
    exact h.listener.of_wanted wanted

omit [Surroundings σ] [Separate σ] in
theorem lags_of_abreast {h k h' k' : Handle σ} [Surroundings σ] [Separate σ] (abreast : Handle.Abreast h k h' k')
    (lags : Lags h.gate.lock.pipe h'.gate.lock.pipe h.listener h'.listener) :
    Lags k.gate.lock.pipe k'.gate.lock.pipe k.listener k'.listener := by
  obtain ⟨f, pipe, pipe'⟩ := abreast.pipe
  rcases abreast.listener with ⟨same, same'⟩ | ⟨checks, checks'⟩
  · rw [same, same', pipe, pipe']
    exact lags.map f
  · rw [checks, checks']
    exact .of_not_mayPoll rfl

theorem client_steady (h : Echo call? call?' s s' c c') (lone : Lone s c) (lone' : Lone s' c') (known : Known call? c)
    (kept : c.activity.isExchange = false) (kept' : d.activity.isExchange = false)
    (steady : c.activity.halt? = none) (step : s.handle.step? 0 c = some (d, k)) :
    Mirrors call? call?' s s' (.move (.run (.client 0))) ⟨k, [d]⟩ d := by
  have busy : c.activity ≠ .idle := fun idle => by simp [Handle.step?, idle] at step
  obtain ⟨rfl, -⟩ := h.client.of_kept busy kept
  have pipe (buffer : Bytes) (propagate : Bool) (ha : c'.activity = .read .poll buffer propagate) :
      s'.lock.pipe.isEmpty = s.lock.pipe.isEmpty := by
    have quiet : c'.activity.hasCalled = false := by rw [ha]; rfl
    rw [lone.pipe_eq_empty quiet, lone'.pipe_eq_empty quiet]
  obtain ⟨k', step', abreast⟩ := Handle.step?_alike step h.handle h.listener.isRunning kept steady
    (fun errand ha => h.reader_free lone lone' (Handle.reader_of_take step ha))
    (fun errand ha => h.grabber_free lone lone' (Handle.grabber_of_grab step ha)) pipe
  exact h.both lone known busy kept rfl (.stay _ _) lone'.clients (step_of_client lone'.clients step') kept'
    abreast.alike (lags_of_abreast abreast h.listener)

/-- If the first listener is about to poll, the second one can be brought to the same place. -/
theorem draw_level (h : Echo call? call?' s s' c c') (lone' : Lone s' c') (unheld : c'.holds = 0) {d : Duty}
    (on_duty' : s'.handle.listener = .running true (.working .check)) (may : (Worker.working d).mayPoll = true) :
    ∃ u, Leads call?' s' [] [] call?' u ∧ u.clients = [c'] ∧ u.handle.listener = .running true (.working d) ∧
      s.handle.Alike u.handle ∧ u.lock.pipe = s'.lock.pipe := by
  obtain ⟨gate, config, released⟩ := h.handle
  have free := lone'.reader_eq_none (by rw [on_duty']; rfl) unheld
  obtain ⟨acquiring, polls⟩ := catch_up call?' lone' on_duty' free
  cases d with
  | acquire => exact ⟨_, acquiring, lone'.clients, rfl, ⟨gate, config, released⟩, rfl⟩
  | read stage =>
    cases stage with
    | poll =>
      exact ⟨polling s', polls, lone'.clients, rfl, ⟨gate.trans (s'.handle.gate.alike_withLock _), config, released⟩,
        rfl⟩
    | _ => cases may
  | _ => cases may

def Halts (call?' : Option Call) (s' : System σ) (c' : Client) (st : Halt) (next : Option Halt) (k : Handle σ) :
    Prop :=
  ∃ u k', Leads call?' s' [] [] call?' u ∧ u.clients = [c'] ∧ u.handle.halt? (.client 0) st = some (next, k') ∧
    k.Alike k' ∧ Lags k.gate.lock.pipe k'.gate.lock.pipe k.listener k'.listener

theorem clears {next : Option Halt} (h : Echo call? call?' s s' c c') (lone : Lone s c) (lone' : Lone s' c')
    (halts : c.activity.halt? = some .clear) (halt : s.handle.halt? (.client 0) .clear = some (next, k)) :
    Halts call?' s' c' .clear next k := by
  have stay : Leads call?' s' [] [] call?' s' := .stay _ _
  obtain ⟨gate, config, released⟩ := h.handle
  have quiet : c.activity.hasCalled = false := by
    cases ha : c.activity with
    | halt => rw [ha] at halts; cases halts; rfl
    | _ => rw [ha] at halts; cases halts
  have pipe : s'.lock.pipe = s.lock.pipe :=
    (lone'.pipe_eq_empty (h.client.hasCalled quiet)).trans (lone.pipe_eq_empty quiet).symm
  -- from now on the listeners poll only when they are told to finish
  have told {p : Pipe} {w : Worker} (same : p = s.lock.pipe) :
      Lags s.lock.pipe p (.running false w) (.running false w) := by
    refine .level fun _ _ running _ => ?_
    cases running
    exact ⟨rfl, same⟩
  have lags := h.listener
  generalize on_duty' : s'.handle.listener = l' at lags
  simp only [Handle.halt?] at halt
  split at halt
  · rename_i on_duty
    rw [on_duty] at lags
    cases lags
    cases halt
    exact ⟨s', s'.handle, stay, lone'.clients, Handle.halt?_clear_stopped on_duty', h.handle, h.listener⟩
  · rename_i wanted w on_duty
    rw [on_duty] at lags
    cases halt
    cases lags with
    | level =>
      exact ⟨s', _, stay, lone'.clients, Handle.halt?_clear on_duty', ⟨gate, config, released⟩, told pipe⟩
    | @behind _ d waiting polls =>
      cases may : (Worker.working d).mayPoll with
      | false =>
        exact ⟨s', _, stay, lone'.clients, Handle.halt?_clear on_duty', ⟨gate, config, released⟩,
          .behind_of_not_mayPoll waiting may⟩
      | true =>
        obtain rfl := polls may
        obtain ⟨u, up, hu, level, alike, kept⟩ :=
          h.draw_level lone' (h.client.holds (lone.holds_of_halt halts)) on_duty' may
        exact ⟨u, _, up, hu, Handle.halt?_clear level, ⟨alike.gate, alike.config, alike.released⟩,
          told (kept.trans pipe)⟩

theorem halt_both {st : Halt} {next : Option Halt} (h : Echo call? call?' s s' c c') (lone : Lone s c)
    (lone' : Lone s' c') (halts : c.activity.halt? = some st)
    (halt : s.handle.halt? (.client 0) st = some (next, k)) : Halts call?' s' c' st next k := by
  have stay : Leads call?' s' [] [] call?' s' := .stay _ _
  obtain ⟨gate, config, released⟩ := h.handle
  cases st with
  | clear => exact h.clears lone lone' halts halt
  | wake =>
    cases halt
    refine ⟨s', _, stay, lone'.clients, rfl, ⟨gate.withLock _ _, config, released⟩, ?_⟩
    exact h.listener.map Pipe.notify
  | drain =>
    cases halt
    refine ⟨s', _, stay, lone'.clients, rfl, ⟨(gate.withLock _ _).note _ _, config, released⟩, ?_⟩
    exact h.listener.map fun p => p.drain.2
  | join =>
    have lags := h.listener
    generalize on_duty' : s'.handle.listener = l' at lags
    simp only [Handle.halt?] at halt
    split at halt
    · rename_i on_duty
      rw [on_duty] at lags
      cases lags
      cases halt
      exact ⟨s', _, stay, lone'.clients, Handle.halt?_join_finished on_duty', ⟨gate, config, released⟩, .stopped⟩
    · rename_i on_duty
      rw [on_duty] at lags
      cases lags
      cases halt
      exact ⟨s', _, stay, lone'.clients, Handle.halt?_join_crashed on_duty', ⟨gate.note _ _, config, released⟩,
        .stopped⟩
    · cases halt

theorem client_halts {st : Halt} {closing : Bool} (h : Echo call? call?' s s' c c') (lone : Lone s c)
    (lone' : Lone s' c') (known : Known call? c) (doing : c.activity = .halt st closing)
    (kept' : d.activity.isExchange = false) (step : s.handle.step? 0 c = some (d, k)) :
    Mirrors call? call?' s s' (.move (.run (.client 0))) ⟨k, [d]⟩ d := by
  have busy : c.activity ≠ .idle := by rw [doing]; simp
  have kept : c.activity.isExchange = false := by rw [doing]; rfl
  obtain ⟨rfl, -⟩ := h.client.of_kept busy kept
  simp only [Handle.step?, doing, Option.map_eq_some_iff] at step
  obtain ⟨⟨next, k⟩, halt, step⟩ := step
  cases step
  obtain ⟨u, k', up, hu, halt', alike, lags⟩ := h.halt_both lone lone' (by rw [doing]; rfl) halt
  refine h.both lone known busy kept rfl up hu (step_of_client hu ?_) kept' alike lags
  simp only [Handle.step?, doing, halt', Option.map_some]

/-! ### Calls and incidents -/

omit [Endpoint σ] [Surroundings σ] [Separate σ] in
theorem admits_congr {call : Call} (lone : Lone s c) (lone' : Lone s' c') (idle : c.activity = .idle)
    (idle' : c'.activity = .idle) (permits : c'.permits = c.permits)
    (released : s.handle.released = s'.handle.released) : s'.admits call = s.admits call := by
  simp [admits, isQuiet, lone.clients, lone'.clients, Client.isIdle, idle, idle', permits, released,
    Activity.isExclusive]

omit [Endpoint σ] [Separate σ] in
theorem honors_congr {call : Call} (lone : Lone s c) (lone' : Lone s' c') (permits : c'.permits = c.permits) :
    s'.honors (.move (.ask 0 call)) = s.honors (.move (.ask 0 call)) := by
  cases call with
  | read => simp [honors, lone.clients, lone'.clients, permits]
  | _ => rfl

theorem ask {call : Call} (h : Echo call? call?' s s' c c') (lone : Lone s c) (lone' : Lone s' c')
    (idle : c.activity = .idle) (admitted : s.admits call = true) (honored : s.honors (.move (.ask 0 call)) = true) :
    Mirrors call? call?' s s' (.move (.ask 0 call)) ⟨s.handle, [{ c with activity := .enter call, reply := none }]⟩
      { c with activity := .enter call, reply := none } := by
  have idle' := h.client.idle_of_away (.inl idle)
  have permits := h.client.permits_eq
  rw [Mirrors, show callAfter call? (.move (.ask 0 call) : Event σ) = some call from rfl,
    answer?_of_idle lone.clients rfl idle]
  cases exchange : call.isExchange with
  | true =>
    have unmade : ([(.move (.ask 0 call) : Event σ)].filter Event.isOperation).filter (!·.isExchange) = [] := by
      simp [Event.isOperation, Event.isExchange, exchange]
    rw [unmade]
    exact ⟨s', c', call?', .stay _ _, lone'.clients, .apart idle' permits (.inr exchange), h.handle, h.listener⟩
  | false =>
    have made : ([(.move (.ask 0 call) : Event σ)].filter Event.isOperation).filter (!·.isExchange) =
        [.move (.ask 0 call)] := by
      simp [Event.isOperation, Event.isExchange, exchange]
    have step' := step_of_ask lone'.clients idle'
      ((admits_congr lone lone' idle idle' permits h.handle.released).trans admitted)
      ((honors_congr lone lone' permits).trans honored)
    have leads := Leads.step call?' step'
    rw [show callAfter call?' (.move (.ask 0 call) : Event σ) = some call from rfl,
      answer?_of_idle lone'.clients rfl idle'] at leads
    rw [made]
    refine ⟨_, _, some call, leads, rfl, ?_, h.handle, h.listener⟩
    rw [permits]
    exact .same exchange rfl

theorem incident (h : Echo call? call?' s s' c c') (lone : Lone s c) (lone' : Lone s' c')
    (i : Surroundings.Incident σ) :
    Mirrors call? call?' s s' (.incident i) (s.withEndpoint (Surroundings.befall i s.handle.gate.endpoint)) c := by
  have leads : Leads call?' s' _ _ _ (s'.withEndpoint (Surroundings.befall i s'.handle.gate.endpoint)) :=
    .step call?' (e := .incident i) ⟨rfl, rfl⟩
  have hc : (s.withEndpoint (Surroundings.befall i s.handle.gate.endpoint)).clients = [c] := lone.clients
  have hc' : (s'.withEndpoint (Surroundings.befall i s'.handle.gate.endpoint)).clients = [c'] := lone'.clients
  rw [answer?_of_sole lone'.clients hc' rfl] at leads
  refine ⟨_, c', call?', ?_, hc', h.client, ⟨?_, h.handle.config, h.handle.released⟩, h.listener⟩
  · rw [answer?_of_sole lone.clients hc rfl]
    exact leads
  · exact h.handle.gate.withEndpoint (Separate.input_of_befall i h.handle.gate.input)

/-! ### Along a run -/

theorem step (h : Echo call? call?' s s' c c') (lone : Lone s c) (lone' : Lone s' c') (known : Known call? c)
    (sole : SoleStep s c e t d) : Mirrors call? call?' s s' e t d := by
  cases sole with
  | ask idle admitted honored => exact h.ask lone lone' idle admitted honored
  | listener on_duty step =>
    exact (h.listener_step lone lone' on_duty (Duty.dutyStep step)).mirrors lone rfl lone.clients
  | listenerLate on_duty late => exact (h.listener_late lone' on_duty late).mirrors lone rfl lone.clients
  | clientLate doing late => exact h.client_late lone lone' known doing late
  | incident i => exact h.incident lone lone' i
  | client step =>
    have busy : c.activity ≠ .idle := fun idle => by simp [Handle.step?, idle] at step
    cases exchange : c.activity.isExchange with
    | true => exact h.client_away lone lone' known exchange step
    | false =>
      have kept' := (known.isExchange_of_step? busy step).elim (fun idle => by rw [idle]; rfl) (·.trans exchange)
      cases ha : c.activity with
      | halt st closing => exact h.client_halts lone lone' known ha kept' step
      | _ => exact h.client_steady lone lone' known exchange kept' (by rw [ha]; rfl) step

theorem follows {tr : Trace σ} (h : Echo call? call?' s s' c c') (lone : Lone s c) (lone' : Lone s' c')
    (known : Known call? c) (hf : System.Follows s tr) :
    ∃ t' d d' call?'', Leads call?' s' ((operations tr).filter (!·.isExchange))
      ((answers call? s tr).filter (!·.1.isExchange)) call?'' t' ∧
      Echo (callAfterAll call? tr) call?'' (final s tr) t' d d' := by
  induction tr generalizing s s' c c' call? call?' with
  | nil => exact ⟨s', c, c', call?', .stay _ _, h⟩
  | cons x tr ih =>
    obtain ⟨e, t⟩ := x
    obtain ⟨st, hf⟩ := hf
    obtain ⟨d, sole, lone_t⟩ := lone.step st
    obtain ⟨t', d', between, leads, hd', h'⟩ := h.step lone lone' known sole
    obtain ⟨u', d'', e'', after, leads', h''⟩ := ih h' lone_t (lone'.leads leads hd') (known.step sole) hf
    refine ⟨u', d'', e'', after, ?_, h''⟩
    have both := leads.trans leads'
    rw [← List.filter_append, ← List.filter_append,
      show [e].filter Event.isOperation ++ operations tr = operations ((e, t) :: tr) from
        (operations_append [(e, t)] tr).symm] at both
    exact both

end Echo

end System

end HidGate
