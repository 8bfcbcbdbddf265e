import HidGate.Proofs.Delivery
import HidGate.Proofs.Operations
import HidGate.Proofs.Separate

/-!
# Gates that reads cannot tell apart

Two gates may differ in their lock, in the output of their endpoint and in their notices, and have everything else in
common. Then reads and handlers do the same on both, and so does each step of the listener and of a caller
that is in no request and no write, if only the two locks let it. A request or a write leaves a gate as it is in this
respect.
-/

namespace HidGate

variable {σ : Type} [Endpoint σ] [Surroundings σ] [Separate σ]

open Separate (input)

namespace Gate

structure Alike (g g' : Gate σ) : Prop where
  input : input g.endpoint = input g'.endpoint
  handler : g.handler = g'.handler
  heard : g.heard = g'.heard
  registered : g.registered = g'.registered
  feed : g.feed = g'.feed
  handings : g.journal.filterMap Entry.handing? = g'.journal.filterMap Entry.handing?

variable {g g' g'' : Gate σ}

theorem Alike.refl (g : Gate σ) : g.Alike g := ⟨rfl, rfl, rfl, rfl, rfl, rfl⟩

theorem Alike.symm (h : g.Alike g') : g'.Alike g :=
  ⟨h.input.symm, h.handler.symm, h.heard.symm, h.registered.symm, h.feed.symm, h.handings.symm⟩

theorem Alike.trans (h : g.Alike g') (h' : g'.Alike g'') : g.Alike g'' :=
  ⟨h.input.trans h'.input, h.handler.trans h'.handler, h.heard.trans h'.heard, h.registered.trans h'.registered,
    h.feed.trans h'.feed, h.handings.trans h'.handings⟩

/-! ## What makes no difference -/

theorem alike_withLock (g : Gate σ) (l : SoftLock) : g.Alike { g with lock := l } :=
  ⟨rfl, rfl, rfl, rfl, rfl, rfl⟩

theorem alike_note (g : Gate σ) (who : Party) (n : Notice) : g.Alike (g.note who n) := by
  refine ⟨rfl, rfl, rfl, rfl, rfl, ?_⟩
  rw [note_journal, List.filterMap_append]
  exact (List.append_nil _).symm

theorem Aside.alike (h : g.Aside g')
    (kept : g.handler = g'.handler ∧ g.heard = g'.heard ∧ g.registered = g'.registered ∧ g.feed = g'.feed) :
    g.Alike g' := by
  obtain ⟨handler, heard, registered, feed⟩ := kept
  obtain ⟨J, hJ, aside⟩ := h.journal
  refine ⟨h.endpoint.input_eq.symm, handler, heard, registered, feed, ?_⟩
  rw [hJ, List.filterMap_append, (Entry.of_isAside aside).2, List.append_nil]

theorem alike_writeReport (g : Gate σ) (who : Party) (report : Bytes) : g.Alike (g.writeReport who report).2 := by
  refine (writeReport_aside who report g).alike ?_
  unfold writeReport
  split
  · exact ⟨rfl, rfl, rfl, rfl⟩
  · dsimp only
    split <;> exact ⟨rfl, rfl, rfl, rfl⟩

theorem alike_perform (g : Gate σ) (who : Party) (r : Request) : g.Alike (r.perform who g).2 := by
  refine (Request.perform_aside who r g).alike ?_
  unfold Request.perform
  split
  · unfold Request.get
    split <;> exact ⟨rfl, rfl, rfl, rfl⟩
  · unfold Request.set
    dsimp only
    split <;> exact ⟨rfl, rfl, rfl, rfl⟩

/-! ## What is done to both -/

theorem Alike.note (h : g.Alike g') (who : Party) (n : Notice) : (g.note who n).Alike (g'.note who n) :=
  (alike_note g who n).symm.trans (h.trans (alike_note g' who n))

theorem Alike.withLock (h : g.Alike g') (l l' : SoftLock) :
    Alike { g with lock := l } { g' with lock := l' } :=
  (alike_withLock g l).symm.trans (h.trans (alike_withLock g' l'))

theorem Alike.withEndpoint (h : g.Alike g') {x x' : σ} (same : Separate.input x = Separate.input x') :
    Alike { g with endpoint := x } { g' with endpoint := x' } :=
  ⟨same, h.handler, h.heard, h.registered, h.feed, h.handings⟩

theorem Alike.enter (h : g.Alike g') (e : Entry) : (g.enter e).Alike (g'.enter e) := by
  refine ⟨h.input, h.handler, h.heard, h.registered, h.feed, ?_⟩
  rw [Gate.enter, Gate.enter, List.filterMap_append, List.filterMap_append, h.handings]

theorem Alike.register (h : g.Alike g') (handler : Option Handler) :
    (g.register handler).Alike (g'.register handler) := by
  refine ⟨h.input, ?_, rfl, ?_, ?_, h.handings⟩
  · simp only [Gate.register, h.registered]
  · simp only [Gate.register, h.registered]
  · simp only [Gate.register, h.feed]

theorem Alike.hand (h : g.Alike g') (who : Party) (report : Bytes) :
    (g.hand who report).1 = (g'.hand who report).1 ∧ (g.hand who report).2.Alike (g'.hand who report).2 := by
  have hears (e : Entry) : Alike { g.enter e with heard := g.heard ++ [report] }
      { g'.enter e with heard := g'.heard ++ [report] } := by
    have entered := h.enter e
    exact ⟨entered.input, entered.handler, by rw [h.heard], entered.registered, entered.feed, entered.handings⟩
  unfold Gate.hand
  rw [← h.handler]
  dsimp only
  split
  · exact ⟨rfl, hears _⟩
  · exact ⟨by rw [h.heard], hears _⟩
  · have entered := (h.note who (.publishing report.length)).enter (.handed who (.broadcast ‹Nat›) report)
    exact ⟨rfl, entered.input, entered.handler, by rw [h.heard], entered.registered, by rw [h.feed], entered.handings⟩

theorem Alike.propagateReport (h : g.Alike g') (who : Party) (report : Bytes) :
    (g.propagateReport who report).1 = (g'.propagateReport who report).1 ∧
      (g.propagateReport who report).2.Alike (g'.propagateReport who report).2 := by
  obtain ⟨verdict, rest⟩ := h.hand who report
  unfold Gate.propagateReport
  generalize g.hand who report = p at verdict rest ⊢
  generalize g'.hand who report = p' at verdict rest ⊢
  obtain ⟨v, k⟩ := p
  obtain ⟨v', k'⟩ := p'
  obtain rfl : v = v' := verdict
  cases v with
  | accept | reject | crash => exact ⟨rfl, rest⟩

theorem Alike.isIdle (h : g.Alike g') (pipe : g'.lock.pipe.isEmpty = g.lock.pipe.isEmpty) (idle : g.isIdle = true) :
    g'.isIdle = true := by
  simp only [Gate.isIdle, Bool.and_eq_true, Option.isNone_iff_eq_none] at idle ⊢
  obtain ⟨⟨fault, empty⟩, unready⟩ := idle
  exact ⟨⟨pollFault_eq_none h.input fault, pipe.trans empty⟩, by rw [← ready_congr h.input]; exact unready⟩

end Gate

/-- A read takes the same step on both gates, if it finds both pipes empty or neither. -/
theorem ReadStep.alike {who : Party} {propagate : Bool} {st : ReadStage} {g g' k : Gate σ} {next : ReadNext}
    (h : ReadStep who propagate g st next k) (alike : g.Alike g')
    (pipe : st = .poll → g'.lock.pipe.isEmpty = g.lock.pipe.isEmpty) :
    ∃ k', ReadStep who propagate g' st next k' ∧ k.Alike k' := by
  cases h with
  | pollFault fault =>
    obtain ⟨x, fault, same⟩ := pollFault_eq_some alike.input fault
    exact ⟨_, .pollFault fault, alike.withEndpoint same⟩
  | wake fault byte =>
    exact ⟨g', .wake (pollFault_eq_none alike.input fault) ((pipe rfl).trans byte), alike⟩
  | ready fault byte ready =>
    exact ⟨g', .ready (pollFault_eq_none alike.input fault) ((pipe rfl).trans byte)
      ((ready_congr alike.input).symm.trans ready), alike⟩
  | drain => exact ⟨_, .drain, alike.withLock _ _⟩
  | fault fetch =>
    obtain ⟨x, fetch, same⟩ := fetch_eq_some alike.input fetch
    exact ⟨_, .fault fetch, alike.withEndpoint same⟩
  | empty fetch claim =>
    obtain ⟨x, fetch, same⟩ := fetch_eq_some alike.input fetch
    exact ⟨_, .empty fetch claim, alike.withEndpoint same⟩
  | overlong fetch claim =>
    obtain ⟨x, fetch, same⟩ := fetch_eq_some alike.input fetch
    exact ⟨_, .overlong fetch claim, alike.withEndpoint same⟩
  | report fetch positive fits =>
    obtain ⟨x, fetch, same⟩ := fetch_eq_some alike.input fetch
    exact ⟨_, .report fetch positive fits, (alike.withEndpoint same).note _ _⟩
  | accepted verdict =>
    obtain ⟨same, rest⟩ := alike.hand who _
    exact ⟨_, .accepted (same.symm.trans verdict), rest⟩
  | rejected verdict =>
    obtain ⟨same, rest⟩ := alike.hand who _
    exact ⟨_, .rejected (same.symm.trans verdict), rest.note _ _⟩
  | crashed verdict =>
    obtain ⟨same, rest⟩ := alike.hand who _
    exact ⟨_, .crashed (same.symm.trans verdict), rest⟩

/-! ## The listener -/

theorem Duty.ofRead_alike {g g' : Gate σ} (next : ReadNext) (alike : g.Alike g') :
    (ofRead (next, g)).1 = (ofRead (next, g')).1 ∧ (ofRead (next, g)).2.Alike (ofRead (next, g')).2 := by
  cases next with
  | stage | ended => exact ⟨rfl, alike⟩
  | crashed => exact ⟨rfl, alike.withLock _ _⟩

theorem DutyStep.alike {wanted : Bool} {d : Duty} {g g' k : Gate σ} {w : Worker} (h : DutyStep wanted g d w k)
    (alike : g.Alike g') (reader : d = .acquire → g'.lock.reader = none)
    (grabber : d = .gate → g'.lock.grabber = none)
    (pipe : d = .read .poll → g'.lock.pipe.isEmpty = g.lock.pipe.isEmpty) :
    ∃ k', DutyStep wanted g' d w k' ∧ k.Alike k' := by
  cases h with
  | goesOn on => exact ⟨g', .goesOn on, alike⟩
  | exits off => exact ⟨_, .exits off, alike.note _ _⟩
  | acquires => exact ⟨_, .acquires (reader rfl), alike.withLock _ _⟩
  | @reads st next k step =>
    obtain ⟨k', step', alike'⟩ := step.alike alike fun poll => pipe (congrArg Duty.read poll)
    obtain ⟨worker, gates⟩ := Duty.ofRead_alike next alike'
    exact ⟨_, worker ▸ .reads step', gates⟩
  | drained => exact ⟨_, .drained, (alike.withLock _ _).note _ _⟩
  | bears transient => exact ⟨_, .bears transient, alike.withLock _ _⟩
  | fails hard => exact ⟨_, .fails hard, (alike.withLock _ _).note _ _⟩
  | resumes => exact ⟨g', .resumes, alike⟩
  | grabs => exact ⟨_, .grabs (grabber rfl), alike.withLock _ _⟩
  | passes => exact ⟨_, .passes, alike.withLock _ _⟩

/-! ## A caller -/

namespace Handle

/-- The handles differ in their listeners and in what reads cannot tell. -/
structure Alike (h h' : Handle σ) : Prop where
  gate : h.gate.Alike h'.gate
  config : h.config = h'.config
  released : h.released = h'.released

theorem Alike.symm {h h' : Handle σ} (alike : h.Alike h') : h'.Alike h :=
  ⟨alike.gate.symm, alike.config.symm, alike.released.symm⟩

theorem Alike.trans {h h' h'' : Handle σ} (alike : h.Alike h') (alike' : h'.Alike h'') : h.Alike h'' :=
  ⟨alike.gate.trans alike'.gate, alike.config.trans alike'.config, alike.released.trans alike'.released⟩

structure Abreast (h k h' k' : Handle σ) : Prop where
  alike : k.Alike k'
  listener : k.listener = h.listener ∧ k'.listener = h'.listener ∨
    k.listener = .running true (.working .check) ∧ k'.listener = .running true (.working .check)
  pipe : ∃ f : Pipe → Pipe, k.gate.lock.pipe = f h.gate.lock.pipe ∧ k'.gate.lock.pipe = f h'.gate.lock.pipe

variable {n : Nat} {c d : Client} {h h' k : Handle σ}

theorem Abreast.stay (alike : h.Alike h') : Abreast h h h' h' := ⟨alike, .inl ⟨rfl, rfl⟩, id, rfl, rfl⟩

theorem Abreast.onGate {g g' : Gate σ} (alike : h.Alike h') (gates : g.Alike g')
    (pipe : ∃ f : Pipe → Pipe, g.lock.pipe = f h.gate.lock.pipe ∧ g'.lock.pipe = f h'.gate.lock.pipe) :
    Abreast h (h.onGate g) h' (h'.onGate g') :=
  ⟨⟨gates, alike.config, alike.released⟩, .inl ⟨rfl, rfl⟩, pipe⟩

theorem Abreast.withLock {l l' : SoftLock} (alike : h.Alike h')
    (pipe : ∃ f : Pipe → Pipe, l.pipe = f h.gate.lock.pipe ∧ l'.pipe = f h'.gate.lock.pipe) :
    Abreast h (h.withLock l) h' (h'.withLock l') :=
  .onGate alike (alike.gate.withLock l l') pipe

theorem start_alike (refusal : Option SystemError) (who : Party) (alike : h.Alike h')
    (running : h.listener.isRunning = h'.listener.isRunning) :
    (h.start refusal who).1 = (h'.start refusal who).1 ∧
      Abreast h (h.start refusal who).2 h' (h'.start refusal who).2 := by
  unfold start
  rw [← running, ← alike.config]
  split
  · exact ⟨rfl, .stay alike⟩
  · split
    · exact ⟨rfl, .stay alike⟩
    · cases refusal with
      | some e => exact ⟨rfl, .stay alike⟩
      | none => exact ⟨rfl, ⟨(alike.gate.note _ _).note _ _, rfl, alike.released⟩, .inr ⟨rfl, rfl⟩, id, rfl, rfl⟩

theorem enter_alike {call : Call} (alike : h.Alike h') (running : h.listener.isRunning = h'.listener.isRunning)
    (kept : call.isExchange = false) :
    (h.enter n c call).1 = (h'.enter n c call).1 ∧ Abreast h (h.enter n c call).2 h' (h'.enter n c call).2 := by
  cases call with
  | request | write => cases kept
  | lockEvents =>
    simp only [enter, ← running]
    split <;> exact ⟨rfl, .stay alike⟩
  | unlock =>
    simp only [enter]
    split
    · exact ⟨rfl, .stay alike⟩
    · refine ⟨rfl, ?_⟩
      dsimp only
      split
      · exact .withLock alike ⟨id, rfl, rfl⟩
      · exact .stay alike
  | read =>
    simp only [enter]
    split <;> exact ⟨rfl, .stay alike⟩
  | propagate report =>
    obtain ⟨same, gates⟩ := alike.gate.propagateReport (.client n) report
    refine ⟨congrArg c.finish same, .onGate alike gates ⟨id, ?_, ?_⟩⟩
    · exact congrArg SoftLock.pipe (Gate.propagateReport_lock ..)
    · exact congrArg SoftLock.pipe (Gate.propagateReport_lock ..)
  | register handler => exact ⟨rfl, .onGate alike (alike.gate.register handler) ⟨id, rfl, rfl⟩⟩
  | start refusal =>
    obtain ⟨same, abreast⟩ := start_alike refusal (.client n) alike running
    exact ⟨congrArg c.finish same, abreast⟩
  | stop =>
    simp only [enter, ← running]
    split <;> exact ⟨rfl, .stay alike⟩
  | close => exact ⟨by simp only [enter, running], .stay alike⟩

theorem step?_alike (hs : h.step? n c = some (d, k)) (alike : h.Alike h')
    (running : h.listener.isRunning = h'.listener.isRunning) (kept : c.activity.isExchange = false)
    (steady : c.activity.halt? = none)
    (reader : ∀ errand, c.activity = .steal .take errand → h'.gate.lock.reader = none)
    (grabber : ∀ errand, c.activity = .steal .grab errand → h'.gate.lock.grabber = none)
    (pipe : ∀ buffer propagate, c.activity = .read .poll buffer propagate →
      h'.gate.lock.pipe.isEmpty = h.gate.lock.pipe.isEmpty) :
    ∃ k', h'.step? n c = some (d, k') ∧ Abreast h k h' k' := by
  cases ha : c.activity with
  | idle => simp [step?, ha] at hs
  | exchange | leave => rw [ha] at kept; cases kept
  | halt => rw [ha] at steady; cases steady
  | enter call =>
    rw [ha] at kept
    obtain ⟨same, abreast⟩ := enter_alike (n := n) (c := c) alike running kept
    simp only [step?, ha, Option.some.injEq] at hs ⊢
    rw [hs] at same abreast
    exact ⟨(h'.enter n c call).2, Prod.ext same.symm rfl, abreast⟩
  | release =>
    simp only [step?, ha] at hs ⊢
    cases hs
    exact ⟨_, rfl, ⟨alike.gate, alike.config, congrArg (· + 1) alike.released⟩, .inl ⟨rfl, rfl⟩, id, rfl, rfl⟩
  | read st buffer propagate =>
    simp only [step?, ha, Option.map_eq_some_iff] at hs
    obtain ⟨⟨next, g⟩, step, hs⟩ := hs
    cases hs
    have step := ReadStage.readStep step
    obtain ⟨g', step', gates⟩ := step.alike alike.gate fun poll => pipe buffer propagate (by rw [ha, poll])
    refine ⟨h'.onGate g', by simp only [step?, ha, step'.step?, Option.map_some], .onGate alike gates ?_⟩
    -- a read touches the pipe only to drain it, and then does so on both handles
    rcases step.lock with ⟨other, hl⟩ | ⟨rfl, -, hl⟩
    · rcases step'.lock with ⟨-, hl'⟩ | ⟨drain, -⟩
      · exact ⟨id, congrArg SoftLock.pipe hl, congrArg SoftLock.pipe hl'⟩
      · exact absurd drain other
    · rcases step'.lock with ⟨other, -⟩ | ⟨-, -, hl'⟩
      · exact absurd rfl other
      · exact ⟨fun p => p.drain.2, congrArg SoftLock.pipe hl, congrArg SoftLock.pipe hl'⟩
  | steal st errand =>
    rw [ha] at kept
    cases errand with
    | request => cases kept
    | permit =>
      cases st with
      | grab =>
        simp only [step?, ha, Option.map_eq_some_iff, Steal.step?, SoftLock.grab?_eq_some] at hs
        obtain ⟨_, ⟨l, ⟨-, rfl⟩, rfl⟩, hs⟩ := hs
        cases hs
        refine ⟨h'.withLock { h'.gate.lock with grabber := some (.client n) }, ?_, .withLock alike ⟨id, rfl, rfl⟩⟩
        simp [step?, ha, Steal.step?, SoftLock.grab?, grabber _ ha]
      | take =>
        simp only [step?, ha, Option.map_eq_some_iff, Steal.step?, SoftLock.acquire?_eq_some] at hs
        obtain ⟨_, ⟨l, ⟨-, rfl⟩, rfl⟩, hs⟩ := hs
        cases hs
        refine ⟨h'.withLock { h'.gate.lock with reader := some (.client n) }, ?_, .withLock alike ⟨id, rfl, rfl⟩⟩
        simp [step?, ha, Steal.step?, SoftLock.acquire?, reader _ ha]
      | announce =>
        simp only [step?, ha] at hs ⊢
        cases hs
        exact ⟨_, rfl, .withLock alike ⟨Pipe.notify, rfl, rfl⟩⟩
      | clear =>
        simp only [step?, ha] at hs ⊢
        cases hs
        exact ⟨_, rfl, .withLock alike ⟨fun p => p.drain.2, rfl, rfl⟩⟩
      | ungrab =>
        simp only [step?, ha] at hs ⊢
        cases hs
        exact ⟨_, rfl, .withLock alike ⟨id, rfl, rfl⟩⟩

omit [Surroundings σ] [Separate σ] in
theorem reader_of_take {errand : Errand} (hs : h.step? n c = some (d, k)) (ha : c.activity = .steal .take errand) :
    h.gate.lock.reader = none := by
  simp only [step?, ha, Option.map_eq_some_iff, Steal.step?, SoftLock.acquire?_eq_some] at hs
  obtain ⟨_, ⟨_, ⟨free, -⟩, -⟩, -⟩ := hs
  exact free

omit [Surroundings σ] [Separate σ] in
theorem grabber_of_grab {errand : Errand} (hs : h.step? n c = some (d, k)) (ha : c.activity = .steal .grab errand) :
    h.gate.lock.grabber = none := by
  simp only [step?, ha, Option.map_eq_some_iff, Steal.step?, SoftLock.grab?_eq_some] at hs
  obtain ⟨_, ⟨_, ⟨free, -⟩, -⟩, -⟩ := hs
  exact free

theorem step?_alike_of_isExchange (hs : h.step? n c = some (d, k)) (exchange : c.activity.isExchange = true) :
    h.Alike k ∧ k.listener = h.listener ∧ d.permits = c.permits ∧
      (d.activity = .idle ∨ d.activity.isExchange = true) := by
  have same : h.Alike h := ⟨.refl _, rfl, rfl⟩
  have withLock (l : SoftLock) : h.Alike (h.withLock l) := ⟨h.gate.alike_withLock l, rfl, rfl⟩
  cases ha : c.activity with
  | enter call =>
    rw [ha] at exchange
    simp only [step?, ha, Option.some.injEq] at hs
    cases call with
    | request kind r =>
      simp only [enter] at hs
      split at hs
      · cases hs; exact ⟨same, rfl, rfl, .inl rfl⟩
      · split at hs <;> (cases hs; exact ⟨same, rfl, rfl, .inr rfl⟩)
    | write report =>
      simp only [enter] at hs
      split at hs
      · cases hs; exact ⟨same, rfl, rfl, .inl rfl⟩
      · cases hs; exact ⟨⟨h.gate.alike_writeReport _ _, rfl, rfl⟩, rfl, rfl, .inl rfl⟩
    | _ => cases exchange
  | steal st errand =>
    rw [ha] at exchange
    cases errand with
    | permit => cases exchange
    | request r =>
      simp only [step?, ha, Option.map_eq_some_iff] at hs
      obtain ⟨⟨l, next⟩, -, hs⟩ := hs
      cases next <;> (cases hs; exact ⟨withLock l, rfl, rfl, .inr rfl⟩)
  | exchange r exclusive =>
    simp only [step?, ha] at hs
    cases hs
    exact ⟨⟨h.gate.alike_perform _ _, rfl, rfl⟩, rfl, rfl, .inr rfl⟩
  | leave exclusive reply =>
    simp only [step?, ha] at hs
    cases hs
    cases exclusive with
    | true => exact ⟨withLock _, rfl, rfl, .inl rfl⟩
    | false => exact ⟨same, rfl, rfl, .inl rfl⟩
  | _ => rw [ha] at exchange; cases exchange

end Handle

end HidGate
