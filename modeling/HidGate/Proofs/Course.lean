import HidGate.Proofs.Cycle

/-!
# The course of a read

A client's call is a sequence of steps of its own, and between two of them the others may make anything of the handle.
So a call is described by its own steps alone: what the client did in each, and the handle before and after it. A read
has four steps at most, and each of them is one case of `ReadStep`.
-/

namespace HidGate

structure OwnStep (σ : Type) where
  doing : Activity
  before : Handle σ
  after : Handle σ

theorem Gate.poll?_of_isIdle {σ : Type} [Endpoint σ] {g : Gate σ} (idle : g.isIdle = true) : g.poll? = none := by
  simp only [isIdle, Bool.and_eq_true, Bool.not_eq_true', Option.isNone_iff_eq_none] at idle
  simp [poll?, idle]

namespace Handle

section
variable {σ : Type} [Endpoint σ] {n : Nat} {c d : Client} {own : List (OwnStep σ)}

/-- The client comes from one state to the other by these steps of its own, the last of which may be the end of its
poll's time. Nothing is said of the handle between two of them. -/
inductive Course (n : Nat) : Client → List (OwnStep σ) → Client → Prop
  | refl (c : Client) : Course n c [] c
  | step {c c' d : Client} {h h' : Handle σ} {own : List (OwnStep σ)} (goes : h.step? n c = some (c', h'))
      (rest : Course n c' own d) : Course n c (⟨c.activity, h, h'⟩ :: own) d
  | late {c c' d : Client} {h h' : Handle σ} {own : List (OwnStep σ)} (late : h.expire? c = some (c', h'))
      (rest : Course n c' own d) : Course n c (⟨c.activity, h, h'⟩ :: own) d

theorem Course.of_idle (course : Course n c own d) (idle : c.activity = .idle) : own = [] ∧ d = c := by
  cases course with
  | refl => exact ⟨rfl, rfl⟩
  | step goes => simp [step?, idle] at goes
  | late late => simp [expire?, idle] at late

theorem Course.of_enter {permit : Permit} {buffer : Bytes} {propagate : Bool} (course : Course n c own d)
    (doing : c.activity = .enter (.read permit buffer propagate)) : own = [] ∧ d = c ∨
      ∃ h own', own = ⟨.enter (.read permit buffer propagate), h, h⟩ :: own' ∧
        ((∃ f, readRefusal? permit buffer = some f ∧ own' = [] ∧ d = c.answer ⟨.fault f, buffer⟩) ∨
          readRefusal? permit buffer = none ∧ Course n (c.goOn (.read .poll buffer propagate)) own' d) := by
  cases course with
  | refl => exact .inl ⟨rfl, rfl⟩
  | late late => simp [expire?, doing] at late
  | @step _ c' _ h h' own' goes rest =>
    right
    rw [← doing]
    simp only [step?, doing, Option.some.injEq, enter] at goes
    cases refusal : readRefusal? permit buffer with
    | some f =>
      simp only [refusal] at goes
      cases goes
      obtain ⟨rfl, rfl⟩ := rest.of_idle rfl
      exact ⟨h, [], rfl, .inl ⟨f, rfl, rfl, rfl⟩⟩
    | none =>
      simp only [refusal] at goes
      cases goes
      exact ⟨h, own', rfl, .inr ⟨rfl, rest⟩⟩

theorem Course.of_reading {st : ReadStage} {buffer : Bytes} {propagate : Bool} (course : Course n c own d)
    (doing : c.activity = .read st buffer propagate) : own = [] ∧ d = c ∨
      (∃ h next g own', own = ⟨.read st buffer propagate, h, h.onGate g⟩ :: own' ∧
        ReadStep (.client n) propagate h.gate st next g ∧ Course n (afterRead c buffer propagate next) own' d) ∨
      ∃ h, st = .poll ∧ h.gate.isIdle = true ∧ own = [⟨.read st buffer propagate, h, h⟩] ∧
        d = c.answer ⟨.fault .timeout, buffer⟩ := by
  cases course with
  | refl => exact .inl ⟨rfl, rfl⟩
  | @step _ c' _ h h' own' goes rest =>
    right; left
    rw [← doing]
    simp only [step?, doing, Option.map_eq_some_iff] at goes
    obtain ⟨⟨next, g⟩, step, goes⟩ := goes
    cases goes
    exact ⟨h, next, g, own', rfl, ReadStage.readStep step, rest⟩
  | @late _ c' _ h h' own' late rest =>
    right; right
    rw [← doing]
    obtain ⟨_, _, polls, rfl, rfl⟩ := expire?_eq_some late
    cases doing.symm.trans polls
    obtain ⟨rfl, rfl⟩ := rest.of_idle rfl
    have idle : h'.gate.isIdle = true := by
      simp only [expire?, doing, Option.map_eq_some_iff] at late
      obtain ⟨next, waited, -⟩ := late
      exact System.isIdle_of_expire? waited
    exact ⟨h', rfl, idle, rfl, rfl⟩

theorem Course.enter {permit : Permit} {buffer : Bytes} {propagate : Bool} {h : Handle σ}
    (doing : c.activity = .enter (.read permit buffer propagate)) (fine : readRefusal? permit buffer = none)
    (rest : Course n (c.goOn (.read .poll buffer propagate)) own d) :
    Course n c (⟨.enter (.read permit buffer propagate), h, h⟩ :: own) d := by
  rw [← doing]
  refine .step ?_ rest
  simp only [step?, doing, Handle.enter, fine]

theorem Course.refuse {permit : Permit} {buffer : Bytes} {propagate : Bool} {h : Handle σ} {f : Fault}
    (doing : c.activity = .enter (.read permit buffer propagate)) (refusal : readRefusal? permit buffer = some f) :
    Course n c [⟨.enter (.read permit buffer propagate), h, h⟩] (c.answer ⟨.fault f, buffer⟩) := by
  rw [← doing]
  refine .step ?_ (.refl _)
  simp only [step?, doing, Handle.enter, refusal]

theorem Course.read {st : ReadStage} {buffer : Bytes} {propagate : Bool} {h : Handle σ} {next : ReadNext} {g : Gate σ}
    (doing : c.activity = .read st buffer propagate) (step : ReadStep (.client n) propagate h.gate st next g)
    (rest : Course n (afterRead c buffer propagate next) own d) :
    Course n c (⟨.read st buffer propagate, h, h.onGate g⟩ :: own) d := by
  rw [← doing]
  refine .step ?_ rest
  simp only [step?, doing, step.step?, Option.map_some]

theorem Course.expire {buffer : Bytes} {propagate : Bool} {h : Handle σ}
    (doing : c.activity = .read .poll buffer propagate) (idle : h.gate.isIdle = true) :
    Course n c [⟨.read .poll buffer propagate, h, h⟩] (c.answer ⟨.fault .timeout, buffer⟩) := by
  rw [← doing]
  refine .late ?_ (.refl _)
  simp only [expire?, doing, ReadStage.expire?, idle, if_true, Option.map_some, afterRead]

/-- Where the steps are taken says what they come to. -/
theorem Course.unique {d' : Client} (course : Course n c own d) (course' : Course n c own d') : d' = d := by
  -- a poll that can go on has something to tell of, and then its time is not up
  have apart {c c' c'' : Client} {h h' : Handle σ} (goes : h.step? n c = some (c', h'))
      (late : h.expire? c = some (c'', h')) : False := by
    obtain ⟨buffer, propagate, doing, -, rfl⟩ := expire?_eq_some late
    simp only [expire?, doing, Option.map_eq_some_iff] at late
    obtain ⟨next, waited, -⟩ := late
    have nothing := Gate.poll?_of_isIdle (System.isIdle_of_expire? waited)
    simp [step?, doing, ReadStage.step?, nothing] at goes
  induction course with
  | refl => cases course'; rfl
  | step goes rest ih =>
    cases course' with
    | step goes' rest' =>
      cases goes.symm.trans goes'
      exact ih rest'
    | late late => exact (apart goes late).elim
  | late late rest ih =>
    cases course' with
    | step goes => exact (apart goes late).elim
    | late late' rest' =>
      cases late.symm.trans late'
      exact ih rest'

end

end Handle

/-! ## Own steps in a trace -/

def Event.isOwn {σ : Type} [Surroundings σ] (n : Nat) : Event σ → Bool
  | .move (.run p) | .move (.expire p) => p == .client n
  | _ => false

@[simp] theorem Event.isOwn_run {σ : Type} [Surroundings σ] (n : Nat) :
    (Event.move (.run (.client n)) : Event σ).isOwn n = true := by
  simp [isOwn]

@[simp] theorem Event.isOwn_expire {σ : Type} [Surroundings σ] (n : Nat) :
    (Event.move (.expire (.client n)) : Event σ).isOwn n = true := by
  simp [isOwn]

namespace System

section
variable {σ : Type} [Endpoint σ] [Surroundings σ] {s t : System σ} {e : Event σ} {n : Nat} {c : Client}

def ownSteps (n : Nat) : System σ → Trace σ → List (OwnStep σ)
  | _, [] => []
  | s, (e, t) :: tr =>
    if e.isOwn n then ⟨((s.clients[n]?).map (·.activity)).getD .idle, s.handle, t.handle⟩ :: ownSteps n t tr
    else ownSteps n t tr

/-- Until it makes another call a client is moved by its own steps only. -/
theorem Step.own (st : Step s e t) (hc : s.clients[n]? = some c) (unasked : e.call? n = none) :
    if e.isOwn n then
      ∃ c', t.clients[n]? = some c' ∧
        (s.handle.step? n c = some (c', t.handle) ∨ s.handle.expire? c = some (c', t.handle))
    else t.clients[n]? = some c := by
  have of_turn {m : Nat} {d : Client} (hd : s.clients[m]? = some d) (u : Turn σ) (other : m ≠ n) :
      (s.turn m u).clients[n]? = some c := (List.getElem?_set_ne other).trans hc
  cases st.cause with
  | @ask m call d hd =>
    have other : m ≠ n := by
      rintro rfl
      simp [Event.call?] at unasked
    exact of_turn hd (_, s.handle) other
  | listener | listenerLate | incident => exact hc
  | @client m d d' h' hd goes =>
    by_cases other : m = n
    · subst other
      cases hd.symm.trans hc
      simp only [Event.isOwn, beq_self_eq_true, if_true]
      exact ⟨d', getElem?_set_at hc d', .inl goes⟩
    · simpa [Event.isOwn, other] using of_turn hd (d', h') other
  | @clientLate m d d' h' hd late =>
    by_cases other : m = n
    · subst other
      cases hd.symm.trans hc
      simp only [Event.isOwn, beq_self_eq_true, if_true]
      exact ⟨d', getElem?_set_at hc d', .inr late⟩
    · simpa [Event.isOwn, other] using of_turn hd (d', h') other

theorem course {tr : Trace σ} (hc : s.clients[n]? = some c) (hf : Follows s tr) (unasked : asked n tr = []) :
    ∃ d, (final s tr).clients[n]? = some d ∧ Handle.Course n c (ownSteps n s tr) d := by
  induction tr generalizing s c with
  | nil => exact ⟨c, hc, .refl c⟩
  | cons x tr ih =>
    obtain ⟨e, t⟩ := x
    rw [asked_cons, List.append_eq_nil_iff, Option.toList_eq_nil_iff] at unasked
    have own := hf.1.own hc unasked.1
    cases turn : e.isOwn n with
    | false =>
      -- whatever the others do, the client is where it was
      rw [turn] at own
      obtain ⟨d, hd, course⟩ := ih own hf.2 unasked.2
      refine ⟨d, hd, ?_⟩
      rw [ownSteps, turn]
      exact course
    | true =>
      rw [turn] at own
      obtain ⟨c', hc', goes⟩ := own
      obtain ⟨d, hd, course⟩ := ih hc' hf.2 unasked.2
      refine ⟨d, hd, ?_⟩
      have doing : ((s.clients[n]?).map (·.activity)).getD .idle = c.activity := by rw [hc]; rfl
      rw [ownSteps, turn, if_pos rfl, doing]
      rcases goes with goes | late
      · exact .step goes course
      · exact .late late course

end

end System

end HidGate
