import HidGate.Proofs.Separate

/-!
# What keeps a read going

While the listener is started, a read that a poll has sent on finds an item: nobody else takes one, and what
arrives goes to the end of the queue. So a read never waits for good: it goes on, or its poll runs out of time.
-/

namespace HidGate

theorem Gate.isIdle_of_poll? {σ : Type} [Endpoint σ] {g : Gate σ} (h : g.poll? = none) : g.isIdle = true := by
  unfold poll? at h
  split at h
  · cases h
  · rename_i fault
    split at h
    · cases h
    · rename_i byte
      split at h
      · cases h
      · rename_i ready
        simp only [isIdle, fault, Option.isNone_none, Bool.true_and, Bool.and_eq_true, Bool.not_eq_true']
        exact ⟨by simpa using byte, by simpa using ready⟩

namespace System

section
variable {σ : Type} [Endpoint σ] [Surroundings σ] {s t : System σ} {e : Event σ}

theorem Sound.isListening_of_isListening (hs : Sound s) (h : Step s e t) {p : Party} {st : ReadStage}
    (hp : t.stage? p = some st) (hl : t.isListening = true) : s.isListening = true := by
  cases h.cause with
  | ask => exact hl
  | listener on_duty => rw [isListening, on_duty]; rfl
  | listenerLate on_duty => rw [isListening, on_duty]; rfl
  | clientLate hc late =>
    obtain ⟨_, _, -, -, rfl⟩ := Handle.expire?_eq_some late
    exact hl
  | incident => exact hl
  | @client n client client' h' hc step =>
    cases Handle.step?_steering step with
    | keep same => rwa [isListening, turn, same] at hl
    | clear _ _ _ _ before => rw [isListening, before]; rfl
    | join _ _ _ _ before => rw [isListening, before]; rfl
    | start doing before after =>
      -- the starting client is alone, and done
      exfalso
      cases p with
      | listener => rw [stage?, turn, after] at hp; cases hp
      | client m =>
        by_cases hm : m = n
        · subst hm
          rw [stage?_turn_self hc] at hp
          simp only [Handle.step?, doing, Handle.enter, Option.some.injEq] at step
          cases step; cases hp
        · have others := stage?_turn_of_ne (s := s) (n := n) (client', h')
            (Handle.step?_steering step).stage? (q := .client m) (by simpa using hm)
          rw [others] at hp
          obtain ⟨d, _, _, hd, ha⟩ := stage?_client_iff.mp hp
          have aside := (hs.alone n client hc (by rw [doing]; rfl)).2 m d hd hm
          rw [(Client.isAside_iff.mp aside).1] at ha; cases ha

theorem late_of_idle {p : Party} (hp : s.stage? p = some .poll) (hi : s.handle.gate.isIdle = true) :
    ∃ u, Step s (.move (.expire p)) u ∧ u.stage? p = none := by
  have late : ReadStage.poll.expire? s.handle.gate = some (.ended (.error .timeout)) := by
    simp only [ReadStage.expire?, hi, if_true]
  have hu : ∃ u, Step s (.move (.expire p)) u := by
    cases p with
    | listener =>
      obtain ⟨wanted, hl⟩ := stage?_listener_iff.mp hp
      refine ⟨s.work wanted (Duty.ofRead (.ended (.error .timeout), s.handle.gate)), rfl, ?_⟩
      simp only [happen?, System.next, expire?, hl, Duty.expire?, late, Option.map_some]
    | client n =>
      obtain ⟨c, buffer, propagate, hc, ha⟩ := stage?_client_iff.mp hp
      refine ⟨s.turn n (Handle.afterRead c buffer propagate (.ended (.error .timeout)), s.handle), rfl, ?_⟩
      simp only [happen?, System.next, expire?, hc, Option.bind_some, Handle.expire?, ha, late, Option.map_some]
  obtain ⟨u, hu⟩ := hu
  cases hu.motion with
  | late _ _ _ goes => exact ⟨u, hu, goes⟩
  | aside at_p => rw [Move.party, hp] at at_p; cases at_p

end

variable {σ : Type} [Endpoint σ] [Surroundings σ] [Separate σ] {s t : System σ} {e : Event σ}

/-- Who is about to read finds an item, while the listener is started. -/
def Supplied (s : System σ) : Prop :=
  s.isListening = true → ∀ p, s.stage? p = some .fetch → Endpoint.ready s.endpoint = true

theorem Sound.supplied_step (hs : Sound s) (h : Step s e t) (hr : Supplied s) : Supplied t := by
  intro hl p hp
  have hl' := hs.isListening_of_isListening h hp hl
  have of_input (same : s.stage? p = some .fetch) (input : Separate.input t.endpoint = Separate.input s.endpoint) :
      Endpoint.ready t.endpoint = true := (ready_congr input).trans (hr hl' p same)
  cases h.motion with
  | @read q st next g at_q step endpoint _ _ goes _ others =>
    by_cases hq : p = q
    · subst hq
      rw [hp] at goes
      cases step with
      | ready _ _ ready => rw [endpoint]; exact ready
      | report => cases hpr : s.propagates p <;> rw [hpr] at goes <;> cases goes
      | _ => cases goes
    · exact absurd (hs.stage_unique hl' ((others p hq).symm.trans hp) at_q) hq
  | @late q _ endpoint _ goes _ others =>
    by_cases hq : p = q
    · rw [hq, goes] at hp; cases hp
    · exact of_input ((others p hq).symm.trans hp) (by rw [endpoint])
  | propagate _ _ endpoint stages => exact of_input ((stages p).symm.trans hp) (by rw [endpoint])
  | @aside m _ gate goes others =>
    by_cases hq : p = m.party
    · rw [hq] at hp
      rcases goes with goes | goes <;> rw [goes] at hp <;> cases hp
    · exact of_input ((others p hq).symm.trans hp) gate.endpoint.input_eq
  | incident i endpoint _ stages =>
    rw [endpoint]
    exact Separate.ready_of_befall i (hr hl' p ((stages p).symm.trans hp))

theorem Reachable.supplied (h : Reachable s) : Supplied s := by
  induction h with
  | start endpoint config n => intro hl; cases hl
  | step hs st ih => exact hs.sound.supplied_step st ih

theorem Reachable.read_goes_on (hs : Reachable s) (hl : s.isListening = true) {p : Party} {st : ReadStage}
    (hp : s.stage? p = some st) :
    (∃ t, Step s (.move (.run p)) t) ∨ ∃ t, Step s (.move (.expire p)) t := by
  have of_step {u : ReadNext × Gate σ} (h : st.step? p (s.propagates p) s.handle.gate = some u) :
      ∃ t, Step s (.move (.run p)) t := by
    obtain ⟨t, ht, -⟩ := step_of_stage hp h
    exact ⟨t, ht⟩
  cases st with
  | poll =>
    cases hr : s.handle.gate.poll? with
    | some u => exact .inl (of_step hr)
    | none =>
      obtain ⟨t, ht, -⟩ := late_of_idle hp (Gate.isIdle_of_poll? hr)
      exact .inr ⟨t, ht⟩
  | drain => exact .inl (of_step rfl)
  | fetch =>
    have ready : (ReadStage.fetch.step? p (s.propagates p) s.handle.gate).isSome = true := by
      rw [ReadStage.step?, Gate.fetch?, Option.isSome_map]
      exact hs.supplied hl p hp
    obtain ⟨u, hu⟩ := Option.isSome_iff_exists.mp ready
    exact .inl (of_step hu)
  | hand report => exact .inl (of_step rfl)

end System

end HidGate
