import HidGate.Gate.Read

/-!
# One step of a read

All that a step of a read can do, each case with what brings it about.
-/

namespace HidGate

variable {σ : Type} [Endpoint σ]

inductive ReadStep (who : Party) (propagate : Bool) (g : Gate σ) : ReadStage → ReadNext → Gate σ → Prop
  | pollFault {n : Int} {endpoint : σ} (fault : Endpoint.pollFault? g.endpoint = some (n, endpoint)) :
      ReadStep who propagate g .poll (.ended (.error (.ofPoll n))) { g with endpoint }
  | wake (fault : Endpoint.pollFault? g.endpoint = none) (byte : g.lock.pipe.isEmpty = false) :
      ReadStep who propagate g .poll (.stage .drain) g
  | ready (fault : Endpoint.pollFault? g.endpoint = none) (byte : g.lock.pipe.isEmpty = true)
      (ready : Endpoint.ready g.endpoint = true) : ReadStep who propagate g .poll (.stage .fetch) g
  | drain : ReadStep who propagate g .drain (.ended (.error .interrupted)) { g with lock := g.lock.drained }
  | fault {e : SystemError} {endpoint : σ} (fetch : Endpoint.fetch? g.endpoint = some (.error e, endpoint)) :
      ReadStep who propagate g .fetch (.ended (.error (.io e))) { g with endpoint }
  | empty {r : Reading} {endpoint : σ} (fetch : Endpoint.fetch? g.endpoint = some (.ok r, endpoint))
      (claim : r.claimed = 0) :
      ReadStep who propagate g .fetch (.ended (.error (.io (.code Errno.inputOutput)))) { g with endpoint }
  | overlong {r : Reading} {endpoint : σ} (fetch : Endpoint.fetch? g.endpoint = some (.ok r, endpoint))
      (claim : maxRead < r.claimed) : ReadStep who propagate g .fetch .crashed { g with endpoint }
  | report {r : Reading} {endpoint : σ} (fetch : Endpoint.fetch? g.endpoint = some (.ok r, endpoint))
      (positive : 0 < r.claimed) (fits : r.claimed ≤ maxRead) :
      ReadStep who propagate g .fetch (if propagate then .stage (.hand r.report) else .ended (.ok r.report))
        ({ g with endpoint }.note who (.received r.report))
  | accepted {report : Bytes} (verdict : (g.hand who report).1 = .accept) :
      ReadStep who propagate g (.hand report) (.ended (.ok report)) (g.hand who report).2
  | rejected {report : Bytes} {why : Fault} (verdict : (g.hand who report).1 = .reject why) :
      ReadStep who propagate g (.hand report) (.ended (.ok report)) ((g.hand who report).2.note who (.rejected why))
  | crashed {report : Bytes} (verdict : (g.hand who report).1 = .crash) :
      ReadStep who propagate g (.hand report) .crashed (g.hand who report).2

variable {who : Party} {propagate : Bool} {st : ReadStage} {g g' : Gate σ} {next : ReadNext}

theorem ReadStage.readStep (h : st.step? who propagate g = some (next, g')) :
    ReadStep who propagate g st next g' := by
  cases st with
  | poll =>
    simp only [ReadStage.step?, Gate.poll?] at h
    split at h
    · rename_i hf; cases h; exact .pollFault hf
    · rename_i hf
      split at h
      · rename_i hb; cases h; exact .wake hf (by simpa using hb)
      · rename_i hb
        split at h
        · rename_i hr; cases h; exact .ready hf (by simpa using hb) hr
        · cases h
  | drain => cases h; exact .drain
  | fetch =>
    simp only [ReadStage.step?, Gate.fetch?, Option.map_eq_some_iff] at h
    obtain ⟨⟨answer, endpoint⟩, hf, h⟩ := h
    cases answer with
    | error e => cases h; exact .fault hf
    | ok r =>
      simp only at h
      split at h
      · rename_i h0; cases h; exact .empty hf h0
      · rename_i h0
        split at h
        · rename_i hm; cases h; exact .overlong hf hm
        · rename_i hm
          have : ReadStep who propagate g .fetch _ _ := .report hf (Nat.pos_of_ne_zero h0)
            (Nat.le_of_not_lt hm)
          cases propagate <;> (cases h; exact this)
  | hand report =>
    simp only [ReadStage.step?, Gate.handRead, Option.some.injEq] at h
    split at h
    · rename_i heq; cases h
      have : ReadStep who propagate g (.hand report) _ _ := .accepted (by rw [heq])
      rwa [heq] at this
    · rename_i heq; cases h
      have : ReadStep who propagate g (.hand report) _ _ := .rejected (by rw [heq])
      rwa [heq] at this
    · rename_i heq; cases h
      have : ReadStep who propagate g (.hand report) _ _ := .crashed (by rw [heq])
      rwa [heq] at this

theorem ReadStep.step? (h : ReadStep who propagate g st next g') : st.step? who propagate g = some (next, g') := by
  cases h with
  | pollFault fault => simp only [ReadStage.step?, Gate.poll?, fault]
  | wake fault byte => simp [ReadStage.step?, Gate.poll?, fault, byte]
  | ready fault byte ready => simp [ReadStage.step?, Gate.poll?, fault, byte, ready]
  | drain => rfl
  | fault fetch => simp only [ReadStage.step?, Gate.fetch?, fetch, Option.map_some]
  | empty fetch claim => simp only [ReadStage.step?, Gate.fetch?, fetch, Option.map_some, claim, if_true]
  | overlong fetch claim =>
    simp only [ReadStage.step?, Gate.fetch?, fetch, Option.map_some, if_neg (Nat.ne_of_gt (Nat.zero_lt_of_lt claim)),
      if_pos claim]
  | report fetch positive fits =>
    simp only [ReadStage.step?, Gate.fetch?, fetch, Option.map_some, if_neg (Nat.ne_of_gt positive),
      if_neg (Nat.not_lt_of_le fits)]
    cases propagate <;> rfl
  | @accepted report verdict | @rejected report why verdict | @crashed report verdict =>
    simp only [ReadStage.step?, Gate.handRead]
    generalize g.hand who report = handed at verdict ⊢
    obtain ⟨v, g₁⟩ := handed
    cases verdict
    rfl

theorem ReadStage.expire?_eq_some (h : st.expire? g = some next) : st = .poll ∧ next = .ended (.error .timeout) := by
  cases st with
  | poll =>
    simp only [ReadStage.expire?] at h
    split at h
    · cases h; exact ⟨rfl, rfl⟩
    · cases h
  | _ => cases h

theorem ReadStep.lock (h : ReadStep who propagate g st next g') :
    (st ≠ .drain ∧ g'.lock = g.lock) ∨
      (st = .drain ∧ next = .ended (.error .interrupted) ∧ g'.lock = g.lock.drained) := by
  cases h with
  | drain => exact .inr ⟨rfl, rfl, rfl⟩
  | accepted | crashed => exact .inl ⟨by simp, Gate.hand_lock ..⟩
  | rejected => exact .inl ⟨by simp, (Gate.note_lock ..).trans (Gate.hand_lock ..)⟩
  | _ => exact .inl ⟨by simp, rfl⟩

/-- A report is handed over in the same way where the gate differs in something that no handler sees. -/
theorem ReadStep.of_hand {f : Gate σ → Gate σ} {report : Bytes} (h : ReadStep who propagate g (.hand report) next g')
    (hands : (f g).hand who report = ((g.hand who report).1, f (g.hand who report).2))
    (notes : ∀ (n : Notice) (k : Gate σ), f (k.note who n) = (f k).note who n) :
    ReadStep who propagate (f g) (.hand report) next (f g') := by
  cases h with
  | accepted verdict =>
    have step : ReadStep who propagate (f g) (.hand report) _ _ := .accepted (by rw [hands]; exact verdict)
    rwa [hands] at step
  | rejected verdict =>
    have step : ReadStep who propagate (f g) (.hand report) _ _ := .rejected (by rw [hands]; exact verdict)
    rw [hands] at step
    rwa [notes]
  | crashed verdict =>
    have step : ReadStep who propagate (f g) (.hand report) _ _ := .crashed (by rw [hands]; exact verdict)
    rwa [hands] at step

end HidGate
