import HidGate.Proofs.Queue

/-!
# Exclusive access

While the listener is started, whoever polls and reads the endpoint or asks it for a feature report has the read
path, and has it alone. So nothing is taken between a poll that saw an item and the read that follows.
-/

namespace HidGate

def Activity.isExchanging : Activity → Bool
  | .exchange .. => true
  | _ => false

def Listener.isPausing : Listener → Bool
  | .running _ (.working .pause) => true
  | _ => false

namespace System

variable {σ : Type} {s : System σ}

def isUsing (s : System σ) : Party → Bool
  | .listener => (s.stage? .listener).isSome
  | .client n => (s.stage? (.client n)).isSome || s.clients[n]?.any (·.activity.isExchanging)

theorem Sound.reader_of_using (hs : Sound s) (hl : s.isListening = true) {p : Party} (hp : s.isUsing p = true) :
    s.lock.reader = some p := by
  have of_stage : (s.stage? p).isSome = true → s.lock.reader = some p := by
    intro h
    obtain ⟨st, hst⟩ := Option.isSome_iff_exists.mp h
    exact hs.reader_of_stage hl hst
  cases p with
  | listener => exact of_stage hp
  | client n =>
    rw [isUsing, Bool.or_eq_true] at hp
    rcases hp with hp | hp
    · exact of_stage hp
    · obtain ⟨c, hc, hx⟩ := (Option.any_eq_true ..).mp hp
      apply hs.reader_of_client_holds hc
      rw [Client.holds]
      have hf := (hs.fits n c hc).activity
      cases ha : c.activity with
      | exchange r exclusive =>
        rw [ha] at hf
        -- without the listener there would be no lock to hold
        have : exclusive = true := hf.trans hl
        rw [this]
        exact Nat.succ_pos _
      | _ => rw [ha] at hx; cases hx

theorem Sound.listener_apart (hs : Sound s) :
    ¬(s.lock.reader = some .listener ∧ s.lock.grabber = some .listener) := by
  rintro ⟨hr, hg⟩
  have hk := hs.reader .listener
  have hj := hs.grabber .listener
  rw [if_pos hr] at hk
  rw [if_pos hg] at hj
  cases hl : s.handle.listener with
  | stopped => rw [holds, hl] at hk; cases hk
  | running wanted w =>
    rw [holds, hl] at hk
    rw [grabs, hl] at hj
    cases w with
    | working d =>
      cases d with
      | read | leave => cases hj
      | _ => cases hk
    | _ => cases hk

theorem Sound.listener_pausing (hs : Sound s) (hp : s.handle.listener.isPausing = true) :
    s.lock.reader ≠ some .listener ∧ s.lock.grabber ≠ some .listener := by
  have hd : ∃ wanted, s.handle.listener = .running wanted (.working .pause) := by
    unfold Listener.isPausing at hp
    split at hp
    · rename_i wanted hl; exact ⟨wanted, hl⟩
    · cases hp
  obtain ⟨wanted, hl⟩ := hd
  constructor
  · intro hr
    have := hs.reader .listener
    rw [if_pos hr, holds, hl] at this
    cases this
  · intro hg
    have := hs.grabber .listener
    rw [if_pos hg, grabs, hl] at this
    cases this

/-! ## Between a poll and the read that follows -/

section
variable {s t : System Bench} {p : Party}

theorem Sound.moved_of_fetching {tr : Trace Bench} (hs : Sound s) (hl : s.isListening = true)
    (hp : s.stage? p = some .fetch) (h : Follows s tr) (hw : ∀ x ∈ tr, x.2.stage? p = some .fetch) :
    Bench.Moved [] (produced tr) s.endpoint (final s tr).endpoint := by
  induction tr generalizing s with
  | nil => exact .refl _
  | cons x tr ih =>
    obtain ⟨e, t⟩ := x
    obtain ⟨st, h⟩ := h
    have hp' := hw (e, t) List.mem_cons_self
    have first := hs.moved_of_still hl st hp hp' rfl
    have rest := ih (hs.step st.cause) (hs.isListening_of_stage st hl hp) hp' h
      fun x hx => hw x (List.mem_cons_of_mem _ hx)
    exact first.trans rest

/-- A poll that leads on to a read has seen the item at the front of the queue. -/
theorem front_of_poll {e : Event Bench} (h : Step s e t) (hp : s.stage? p = some .poll)
    (hp' : t.stage? p = some .fetch) :
    ∃ x rest answer, s.endpoint.queue = x :: rest ∧ x.answer? = some answer ∧ t.endpoint = s.endpoint := by
  rcases h.of_leaves hp (by rw [hp']; simp) with ⟨next, g, -, step, endpoint, -, goes, -⟩ | ⟨-, -, -, goes⟩
  · rw [hp'] at goes
    cases step with
    | ready _ _ ready =>
      obtain ⟨x, rest, answer, hq, hx⟩ := Bench.front_of_ready ready
      exact ⟨x, rest, answer, hq, hx, endpoint⟩
    | _ => cases goes
  · rw [hp'] at goes; cases goes

theorem take_of_front {x : Bench.Item} {rest : List Bench.Item} {answer : Except SystemError Reading}
    (hp : s.stage? p = some .fetch) (hq : s.endpoint.queue = x :: rest) (hx : x.answer? = some answer) :
    ∃ u, Step s (.move (.run p)) u ∧ u.endpoint = s.endpoint.advance x rest := by
  have hf : Endpoint.fetch? s.handle.gate.endpoint = some (answer, s.endpoint.advance x rest) :=
    Bench.fetch?_eq_some.mpr ⟨x, rest, hq, hx, rfl⟩
  have hg : ∃ next g, s.handle.gate.fetch? p (s.propagates p) = some (next, g) ∧
      g.endpoint = s.endpoint.advance x rest := by
    simp only [Gate.fetch?, hf, Option.map_some, Option.some.injEq]
    cases answer with
    | error e => exact ⟨_, _, rfl, rfl⟩
    | ok r =>
      dsimp only
      split
      · exact ⟨_, _, rfl, rfl⟩
      · split
        · exact ⟨_, _, rfl, rfl⟩
        · split <;> exact ⟨_, _, rfl, rfl⟩
  obtain ⟨next, g, hg, endpoint⟩ := hg
  obtain ⟨u, hu, same⟩ := step_of_stage hp hg
  exact ⟨u, hu, same.trans endpoint⟩

/-- At most one party uses the endpoint, and it has the read path. The listener never has both locks, and none
while it pauses. What a poll saw at the front of the queue is there until the same party's read takes it,
whatever else happens in between. -/
theorem exclusive_access (hs : Reachable s) (hl : s.isListening = true) :
    (∀ p, s.isUsing p = true → s.lock.reader = some p ∧ ∀ q, s.isUsing q = true → q = p) ∧
      ¬(s.lock.reader = some .listener ∧ s.lock.grabber = some .listener) ∧
      (s.handle.listener.isPausing = true → s.lock.reader ≠ some .listener ∧ s.lock.grabber ≠ some .listener) ∧
      ∀ (p : Party) (e : Event Bench) (t : System Bench) (tr : Trace Bench),
        Step s e t → s.stage? p = some .poll → t.stage? p = some .fetch →
        Follows t tr → (∀ x ∈ tr, x.2.stage? p = some .fetch) →
        ∃ x rest answer u, s.endpoint.queue = x :: rest ∧ x.answer? = some answer ∧
          (final t tr).endpoint.queue = x :: (rest ++ produced tr) ∧
          Step (final t tr) (.move (.run p)) u ∧
          u.endpoint = (final t tr).endpoint.advance x (rest ++ produced tr) := by
  have sound := hs.sound
  refine ⟨fun p hp => ?_, sound.listener_apart, sound.listener_pausing, ?_⟩
  · have hr := sound.reader_of_using hl hp
    refine ⟨hr, fun q hq => ?_⟩
    have := (sound.reader_of_using hl hq).symm.trans hr
    exact Option.some.inj this
  · intro p e t tr st hp hp' h hw
    obtain ⟨x, rest, answer, hq, hx, same⟩ := front_of_poll st hp hp'
    have moved := (sound.step st.cause).moved_of_fetching (sound.isListening_of_stage st hl hp) hp' h hw
    have queue : (final t tr).endpoint.queue = x :: (rest ++ produced tr) := by
      have := moved.queue
      rw [List.nil_append, same, hq, List.cons_append] at this
      exact this
    obtain ⟨u, hu, taken⟩ := take_of_front (final_of_forall (P := fun u => u.stage? p = some .fetch) hp' hw) queue hx
    exact ⟨x, rest, answer, u, hq, hx, queue, hu, taken⟩

/-- A client has stolen the read path from the polling listener and reads. Between its poll and its read the
listener comes to its gate, another client announces itself, and a fault arrives behind the report. -/
theorem exclusive_access_of_stealer :
    let s := after (start (.fresh Bench.fresh .standard) 2) [.move (.ask 0 .start), .move (.run (.client 0)),
      .move (.run .listener), .move (.run .listener), .move (.ask 0 .lockEvents), .move (.run (.client 0)),
      .move (.run (.client 0)), .move (.run (.client 0)), .move (.run .listener), .move (.run .listener),
      .move (.run .listener), .move (.run (.client 0)), .move (.run (.client 0)), .move (.run (.client 0)),
      .incident (.arrive [.report (.whole [1, 2])]), .move (.ask 0 (.read ⟨0, true⟩ [0, 0] true)),
      .move (.run (.client 0))]
    let t := after s [.move (.run (.client 0))]
    let tr := play t [.move (.ask 1 .lockEvents), .move (.run (.client 1)), .move (.run (.client 1)),
      .move (.run (.client 1)), .incident (.arrive [.readFault 5])]
    s.lock.reader = some (.client 0) ∧ tr.length = 5 ∧
      ∃ x rest answer u, s.endpoint.queue = x :: rest ∧ Bench.Item.answer? x = some answer ∧
        (final t tr).endpoint.queue = x :: (rest ++ produced tr) ∧
        Step (final t tr) (.move (.run (.client 0))) u ∧
        u.endpoint = (final t tr).endpoint.advance x (rest ++ produced tr) := by
  intro s t tr
  have use := exclusive_access ((Reachable.start Bench.fresh .standard 2).after _ : Reachable s) (by decide +kernel)
  refine ⟨(use.1 (.client 0) (by decide +kernel)).1, by decide +kernel, ?_⟩
  exact use.2.2.2 (.client 0) (.move (.run (.client 0))) t tr (step_after (by decide +kernel)) (by decide +kernel)
    (by decide +kernel) (follows_play _ _) (by decide +kernel)

end

end System

end HidGate
