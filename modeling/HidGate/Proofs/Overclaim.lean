import HidGate.Proofs.FeatureRequest

/-!
# Counts that are too large

The count that an endpoint claims need not be that of any bytes. A request takes no more of it than its buffer holds. A
read cuts its report out by it, and crashes if that goes beyond the room there is; where the listener reads, its thread
ends so. A write compares it with what was to be written, and a larger count makes a short write of it all the same.
-/

namespace HidGate

/-! ## What crashes a read -/

section
variable {σ : Type} [Endpoint σ]

def Gate.Breaks (g : Gate σ) : ReadStage → Prop
  | .poll | .drain => False
  | .fetch => ∃ r, Endpoint.reading? g.endpoint = some r ∧ maxRead < r.claimed
  | .hand report => g.verdict report = .crash

theorem ReadStep.crashed_iff {who : Party} {propagate : Bool} {g g' : Gate σ} {st : ReadStage} {next : ReadNext}
    (step : ReadStep who propagate g st next g') : next = .crashed ↔ g.Breaks st := by
  cases step with
  | pollFault | wake | ready | drain => simp [Gate.Breaks]
  | fault fetch => simp [Gate.Breaks, Endpoint.reading?, fetch]
  | empty fetch claim => simp [Gate.Breaks, Endpoint.reading?, fetch, claim]
  | overlong fetch claim => simp [Gate.Breaks, Endpoint.reading?, fetch, claim]
  | report fetch some fits =>
    have room : ¬ ∃ r, Endpoint.reading? g.endpoint = Option.some r ∧ maxRead < r.claimed := by
      simp [Endpoint.reading?, fetch, fits]
    refine iff_of_false ?_ room
    cases propagate <;> simp
  | accepted verdict | rejected verdict | crashed verdict =>
    rw [Gate.hand_verdict] at verdict
    simp [Gate.Breaks, verdict]

def OwnStep.Breaks (x : OwnStep σ) : Prop := ∃ st, x.doing.stage? = some st ∧ x.before.gate.Breaks st

@[simp] theorem OwnStep.breaks_enter (call : Call) (h k : Handle σ) : ¬ (mk (.enter call) h k).Breaks := by
  rintro ⟨st, at_st, -⟩
  cases at_st

@[simp] theorem OwnStep.breaks_read (st : ReadStage) (buffer : Bytes) (propagate : Bool) (h k : Handle σ) :
    (mk (.read st buffer propagate) h k).Breaks ↔ h.gate.Breaks st := by
  simp [Breaks, Activity.stage?]

variable {n : Nat} {c d : Client} {own : List (OwnStep σ)} {permit : Permit} {buffer : Bytes} {propagate : Bool}

theorem ReadFails.unbroken {exit : ReadExit} {f : Fault} (fails : ReadFails permit buffer propagate exit own f) :
    ¬ ∃ x ∈ own, x.Breaks := by
  cases fails with
  | read fits finds fetch => simp [OwnStep.still, Gate.Breaks, Endpoint.reading?, fetch]
  | empty fits finds fetch claim => simp [OwnStep.still, Gate.Breaks, Endpoint.reading?, fetch, claim]
  | _ => simp [OwnStep.still, Gate.Breaks]

/-- A read that has returned has crashed if one of its steps broke, and only then. -/
theorem ReadCourse.crashed_iff (course : ReadCourse n c permit buffer propagate own d) (begun : c.activity ≠ .idle)
    (ended : d.activity = .idle) :
    ∃ reply, d.reply = some reply ∧ ((∃ m, reply.outcome = .crash m) ↔ ∃ x ∈ own, x.Breaks) := by
  cases course with
  | called => exact absurd ended begun
  | polling | woken | found => cases ended
  | failed fails => exact ⟨_, rfl, iff_of_false (by simp) fails.unbroken⟩
  | overlong fits finds fetch claim =>
    exact ⟨_, rfl, by simp [OwnStep.still, Gate.Breaks, Endpoint.reading?, fetch, claim]⟩
  | fetched fits finds fetch any room =>
    cases propagate with
    | true => cases ended
    | false => exact ⟨_, rfl, by simp [OwnStep.still, Gate.Breaks, Endpoint.reading?, fetch, room]⟩
  | @handed _ _ _ _ _ _ next _ fits finds fetch any room asked hands =>
    have replied : ∃ reply, (Handle.afterRead c buffer propagate next).reply = some reply ∧
        ((∃ m, reply.outcome = .crash m) ↔ next = .crashed) := by
      cases hands <;> exact ⟨_, rfl, by simp⟩
    obtain ⟨reply, now, crashed⟩ := replied
    refine ⟨reply, now, crashed.trans ?_⟩
    simp [OwnStep.still, Gate.Breaks, Endpoint.reading?, fetch, Nat.not_lt.mpr room, hands.crashed_iff]

end

/-! ## What a write makes of a count -/

section
variable {σ : Type} [Endpoint σ]

inductive WriteEnd (report : Bytes) (x : σ) : Outcome → Prop
  | refused (outside : report.length < 1 ∨ maxBuffer < report.length) :
      WriteEnd report x (.fault (.invalidArgument (.length report.length maxBuffer)))
  | failed {e : SystemError} {y : σ} (room : 1 ≤ report.length ∧ report.length ≤ maxBuffer)
      (answer : Endpoint.write report x = (.error e, y)) : WriteEnd report x (.fault (.io e))
  | whole {y : σ} (room : 1 ≤ report.length ∧ report.length ≤ maxBuffer)
      (answer : Endpoint.write report x = (.ok report.length, y)) : WriteEnd report x .done
  | miscounted {k : Nat} {y : σ} (room : 1 ≤ report.length ∧ report.length ≤ maxBuffer)
      (answer : Endpoint.write report x = (.ok k, y)) (other : k ≠ report.length) :
      WriteEnd report x (.fault (.shortWrite k report.length))

def Endpoint.Overshoots (report : Bytes) (x : σ) : Prop :=
  (1 ≤ report.length ∧ report.length ≤ maxBuffer) ∧ ∃ k y, Endpoint.write report x = (.ok k, y) ∧ report.length < k

namespace WriteEnd

variable {report : Bytes} {x : σ} {o : Outcome}

theorem ne_crash (ends : WriteEnd report x o) (message : Option String) : o ≠ .crash message := by
  cases ends <;> simp

theorem whole_of_done (ends : WriteEnd report x o) (done : o = .done) :
    ∃ y, Endpoint.write report x = (.ok report.length, y) := by
  cases ends with
  | whole room answer => exact ⟨_, answer⟩
  | refused | failed | miscounted => cases done

theorem of_short {k e : Nat} (ends : WriteEnd report x o) (short : o = .fault (.shortWrite k e)) :
    e = report.length ∧ k ≠ e ∧ ∃ y, Endpoint.write report x = (.ok k, y) := by
  cases ends with
  | refused | failed | whole => cases short
  | miscounted room answer other => cases short; exact ⟨rfl, other, _, answer⟩

/-- A short write tells of fewer bytes than were to be written, unless the count is too large. -/
theorem short_iff (ends : WriteEnd report x o) :
    (∀ k e, o = .fault (.shortWrite k e) → k < e) ↔ ¬ Endpoint.Overshoots report x := by
  cases ends with
  | refused outside =>
    refine iff_of_true (by simp) ?_
    rintro ⟨room, -⟩
    omega
  | failed _ answer | whole _ answer => exact iff_of_true (by simp) (by simp [Endpoint.Overshoots, answer])
  | @miscounted k y room answer other =>
    simp only [Endpoint.Overshoots, room, answer, Outcome.fault.injEq, Fault.shortWrite.injEq, Prod.mk.injEq,
      Except.ok.injEq]
    constructor
    · rintro fewer ⟨-, _, _, ⟨rfl, -⟩, more⟩
      exact absurd (fewer k report.length ⟨rfl, rfl⟩) (Nat.lt_asymm more)
    · rintro modest _ _ ⟨rfl, rfl⟩
      have most : ¬ report.length < k := fun more => modest ⟨⟨trivial, trivial⟩, k, y, ⟨rfl, rfl⟩, more⟩
      omega

end WriteEnd

theorem Gate.writeReport_end {report : Bytes} (who : Party) (room : 1 ≤ report.length ∧ report.length ≤ maxBuffer)
    (g : Gate σ) : WriteEnd report g.endpoint (g.writeReport who report).1 := by
  unfold Gate.writeReport
  split
  · rename_i answer
    exact .failed room answer
  · rename_i k y answer
    dsimp only
    split
    · rename_i whole
      subst whole
      exact .whole room answer
    · rename_i other
      exact .miscounted room answer other

theorem Handle.Course.of_write {n : Nat} {c d : Client} {own : List (OwnStep σ)} {report : Bytes}
    (course : Course n c own d) (doing : c.activity = .enter (.write report)) :
    own = [] ∧ d = c ∨ ∃ x o, own = [x] ∧ d = c.finish o ∧ WriteEnd report x.before.gate.endpoint o := by
  cases course with
  | refl => exact .inl ⟨rfl, rfl⟩
  | late late => simp [expire?, doing] at late
  | @step _ c' _ h h' own' goes rest =>
    right
    simp only [step?, doing, Option.some.injEq, Handle.enter] at goes
    by_cases room : 1 ≤ report.length ∧ report.length ≤ maxBuffer
    · simp only [Fault.checkLength_eq_none.mpr room] at goes
      cases goes
      obtain ⟨rfl, rfl⟩ := rest.of_idle rfl
      exact ⟨_, _, rfl, rfl, Gate.writeReport_end (.client n) room h.gate⟩
    · have outside : report.length < 1 ∨ maxBuffer < report.length := by omega
      simp only [Fault.checkLength_of_outside outside] at goes
      cases goes
      obtain ⟨rfl, rfl⟩ := rest.of_idle rfl
      exact ⟨_, _, rfl, rfl, .refused outside⟩

end

/-! ## What ends the listener's thread -/

namespace System

section
variable {σ : Type} [Endpoint σ] [Surroundings σ] {s t : System σ} {e : Event σ}

def HasDied (s : System σ) : Prop := ∃ wanted, s.handle.listener = .running wanted .crashed

def Breaks (s : System σ) : Prop := ∃ st, s.stage? .listener = some st ∧ s.handle.gate.Breaks st

theorem Step.died_iff (st : Step s (.move (.run .listener)) t) : t.HasDied ↔ s.Breaks := by
  cases st.cause with
  | @listener wanted d w g on_duty goes =>
    have worker : (s.work wanted (w, g)).HasDied ↔ w = .crashed := by simp [HasDied, work]
    rw [worker]
    cases Duty.dutyStep goes with
    | @reads stage next g' step =>
      have at_st : s.stage? .listener = some stage := stage?_listener_iff.mpr ⟨wanted, on_duty⟩
      have crashed : (Duty.ofRead (next, g')).1 = .crashed ↔ next = .crashed := by cases next <;> simp [Duty.ofRead]
      rw [crashed, step.crashed_iff]
      simp [Breaks, at_st]
    | _ =>
      refine iff_of_false (by simp) ?_
      rintro ⟨st, at_st, -⟩
      obtain ⟨_, reads⟩ := stage?_listener_iff.mp at_st
      cases on_duty.symm.trans reads

theorem Step.died_before (st : Step s e t) (other : e ≠ .move (.run .listener)) (died : t.HasDied) : s.HasDied := by
  obtain ⟨wanted, died⟩ := died
  cases st.cause with
  | ask | incident => exact ⟨wanted, died⟩
  | listener => exact absurd rfl other
  | listenerLate on_duty late =>
    obtain ⟨-, rfl, -⟩ := Duty.expire?_eq_some late
    cases died
  | clientLate at_n late =>
    obtain ⟨_, _, -, -, rfl⟩ := Handle.expire?_eq_some late
    exact ⟨wanted, died⟩
  | client at_n goes =>
    simp only [turn] at died
    -- of the steps that touch the listener only `clear` leaves its thread as it was
    cases Handle.step?_steering goes with
    | keep same => exact ⟨wanted, same.symm.trans died⟩
    | start _ _ after => cases after.symm.trans died
    | clear _ wanted' _ _ before after => cases after.symm.trans died; exact ⟨wanted', before⟩
    | join _ _ _ _ _ _ after => cases after.symm.trans died

theorem died_along {tr : Trace σ} (hf : Follows s tr) (alive : ¬ s.HasDied) :
    (∃ x ∈ tr, x.2.HasDied) ↔
      ∃ tr₁ t tr₂, tr = tr₁ ++ (.move (.run .listener), t) :: tr₂ ∧ (final s tr₁).Breaks := by
  constructor
  · rintro ⟨x, hx, died⟩
    -- at the first state in which the thread has died, the step before was its own
    induction tr generalizing s with
    | nil => cases hx
    | cons y tr ih =>
      obtain ⟨e, t⟩ := y
      by_cases now : t.HasDied
      · by_cases own : e = .move (.run .listener)
        · subst own
          exact ⟨[], t, tr, rfl, hf.1.died_iff.mp now⟩
        · exact absurd (hf.1.died_before own now) alive
      · have later : x ∈ tr := (List.mem_cons.mp hx).resolve_left (by rintro rfl; exact now died)
        obtain ⟨tr₁, t', tr₂, rfl, breaks⟩ := ih hf.2 now later
        exact ⟨(e, t) :: tr₁, t', tr₂, rfl, breaks⟩
  · rintro ⟨tr₁, t, tr₂, rfl, breaks⟩
    exact ⟨(.move (.run .listener), t), by simp, (follows_append.mp hf).2.1.died_iff.mpr breaks⟩

/-! ## The whole -/

variable {n : Nat} {c d : Client} {own : List (OwnStep σ)}

/-- The call of client `n` has not returned. The client has a step, unless others keep it waiting: with one of the
locks, or since they took what its poll had found. -/
def GoesOn (s : System σ) (n : Nat) : Prop :=
  (∃ e t, e.isOwn n = true ∧ Step s e t) ∨ s.isBlocked (.client n) = true ∨
    s.stage? (.client n) = some .fetch ∧ Endpoint.ready s.endpoint = false

theorem goesOn_of_enter {call : Call} (hd : s.clients[n]? = some d) (doing : d.activity = .enter call) :
    s.GoesOn n := by
  have enters : s.handle.step? n d = some (s.handle.enter n d call) := by simp only [Handle.step?, doing]
  exact .inl ⟨_, _, Event.isOwn_run n, step_of_turn hd enters⟩

theorem goesOn_of_read {permit : Permit} {buffer : Bytes} {propagate : Bool} (hd : s.clients[n]? = some d)
    (course : ReadCourse n c permit buffer propagate own d)
    (doing : c.activity = .enter (.read permit buffer propagate)) (busy : d.activity ≠ .idle) : s.GoesOn n := by
  rcases course.activity with rfl | idle | ⟨st, reading⟩
  · exact goesOn_of_enter hd doing
  · exact absurd idle busy
  · rcases reads_on hd reading with goes | ⟨rfl, unready⟩
    · exact .inl goes
    · exact .inr (.inr ⟨stage?_client_iff.mpr ⟨d, buffer, propagate, hd, reading⟩, unready⟩)

theorem goesOn_of_request {kind : ReportKind} {r : Request} (hd : s.clients[n]? = some d)
    (course : RequestCourse c kind r own d) (doing : c.activity = .enter (.request kind r))
    (busy : d.activity ≠ .idle) : s.GoesOn n := by
  rcases requests_on hd course doing with idle | ⟨t, step⟩ | blocked
  · exact absurd idle busy
  · exact .inl ⟨_, t, Event.isOwn_run n, step⟩
  · exact .inr (.inl ((isBlocked_at hd).trans blocked))

/-- Whatever the endpoint answers and claims, whoever else uses the handle, and in whatever order they step: a read
returns within four steps, a request within eight and a write with its first, unless others keep it waiting. A request
never crashes. A read crashes if and only if a count goes beyond 4096 or the handler crashes in one of its steps, and
the listener's thread ends in a crash if and only if one of these befalls a step of the thread. A write never crashes
and is done only if the count is that of its bytes. It makes a short write of any other count, and all its short writes
are of fewer bytes than there were if and only if the count is not too large. -/
theorem exchange_kept_iff {tr : Trace σ} (hf : Follows s tr) :
    let u := final s tr
    (∀ n c permit buffer propagate, s.clients[n]? = some c → c.activity = .enter (.read permit buffer propagate) →
      asked n tr = [] → ∃ d, u.clients[n]? = some d ∧ (ownSteps n s tr).length ≤ 4 ∧
        (d.activity ≠ .idle → u.GoesOn n) ∧
        (d.activity = .idle → ∃ reply, d.reply = some reply ∧
          ((∃ m, reply.outcome = .crash m) ↔ ∃ x ∈ ownSteps n s tr, x.Breaks))) ∧
    (∀ n c kind r, s.clients[n]? = some c → c.activity = .enter (.request kind r) → asked n tr = [] →
      ∃ d, u.clients[n]? = some d ∧ (ownSteps n s tr).length ≤ 8 ∧ (d.activity ≠ .idle → u.GoesOn n) ∧
        (d.activity = .idle → ∃ reply, d.reply = some reply ∧ ∀ m, reply.outcome ≠ .crash m)) ∧
    (∀ n c report, s.clients[n]? = some c → c.activity = .enter (.write report) → asked n tr = [] →
      ownSteps n s tr = [] ∧ u.clients[n]? = some c ∧ u.GoesOn n ∨
        ∃ x o, ownSteps n s tr = [x] ∧ u.clients[n]? = some (c.finish o) ∧ (∀ m, o ≠ .crash m) ∧
          (o = .done → ∃ y, Endpoint.write report x.before.gate.endpoint = (.ok report.length, y)) ∧
          (∀ k e, o = .fault (.shortWrite k e) →
            e = report.length ∧ k ≠ e ∧ ∃ y, Endpoint.write report x.before.gate.endpoint = (.ok k, y)) ∧
          ((∀ k e, o = .fault (.shortWrite k e) → k < e) ↔ ¬ Endpoint.Overshoots report x.before.gate.endpoint)) ∧
    (¬ s.HasDied → ((∃ x ∈ tr, x.2.HasDied) ↔
      ∃ tr₁ t tr₂, tr = tr₁ ++ (.move (.run .listener), t) :: tr₂ ∧ (final s tr₁).Breaks)) := by
  intro u
  refine ⟨?_, ?_, ?_, died_along hf⟩
  · intro n c permit buffer propagate hc doing unasked
    obtain ⟨d, hd, course⟩ := System.course hc hf unasked
    have far := course.readCourse doing
    exact ⟨d, hd, far.length_le, goesOn_of_read hd far doing, far.crashed_iff (by simp [doing])⟩
  · intro n c kind r hc doing unasked
    obtain ⟨d, hd, course⟩ := System.course hc hf unasked
    have far := course.requestCourse doing
    refine ⟨d, hd, by have := far.length_le doing; omega, goesOn_of_request hd far doing, fun ended => ?_⟩
    obtain ⟨reply, replied, ends⟩ := far.ends (by simp [doing]) ended
    exact ⟨reply, replied, ends.ne_crash⟩
  · intro n c report hc doing unasked
    obtain ⟨d, hd, course⟩ := System.course hc hf unasked
    rcases course.of_write doing with ⟨none, rfl⟩ | ⟨x, o, own, rfl, ends⟩
    · exact .inl ⟨none, hd, goesOn_of_enter hd doing⟩
    · exact .inr ⟨x, o, own, hd, ends.ne_crash, ends.whole_of_done, fun k e => ends.of_short, ends.short_iff⟩

/-- Two bytes are stored and five claimed. The client has room for three, and the handler is not asked. -/
theorem exchange_kept_of_modest_count :
    let s := after (start (.fresh (Bench.fresh.arrive [.report ⟨[1, 2], 5⟩]) .standard) 1)
      [.move (.ask 0 .lockEvents), .move (.run (.client 0)), .move (.ask 0 (.read ⟨0, false⟩ [7, 7, 7] false))]
    let tr := play s (List.replicate 3 (.move (.run (.client 0))))
    Follows s tr ∧ ∃ d reply, (final s tr).clients[0]? = some d ∧ d.activity = .idle ∧ d.reply = some reply ∧
      ∀ m, reply.outcome ≠ .crash m := by
  intro s tr
  have calls : s.clients[0]?.map (·.activity) = some (.enter (.read ⟨0, false⟩ [7, 7, 7] false)) := rfl
  have follows : Follows s tr := @follows_play Bench _ _ s _
  have unasked : asked 0 tr = [] := (asked_play (by decide +kernel) 0).trans rfl
  have idle : (final s tr).clients[0]?.any Client.isIdle = true := by decide +kernel
  have modest : ∀ x ∈ ownSteps 0 s tr, ∀ r ∈ x.reading?, r.claimed ≤ maxRead := by decide +kernel
  have unhanded : ∀ x ∈ ownSteps 0 s tr, x.doing.stage?.bind ReadStage.report? = none := by decide +kernel
  clear_value s tr
  obtain ⟨c, hc, doing⟩ := Option.map_eq_some_iff.mp calls
  obtain ⟨d, hd, -, -, returns⟩ := (exchange_kept_iff follows).1 0 c _ _ _ hc doing unasked
  rw [hd] at idle
  obtain ⟨reply, replied, crashes⟩ := returns (Client.isIdle_iff.mp idle)
  refine ⟨follows, d, reply, hd, Client.isIdle_iff.mp idle, replied, fun m crashed => ?_⟩
  obtain ⟨x, hx, st, at_st, breaks⟩ := crashes.mp ⟨m, crashed⟩
  cases st with
  | poll | drain => exact breaks
  | fetch =>
    obtain ⟨r, reading, claim⟩ := breaks
    have room := modest x hx r (by simp [OwnStep.reading?, OwnStep.fetches, at_st, reading])
    omega
  | hand report =>
    have none := unhanded x hx
    rw [at_st] at none
    cases none

/-- An endpoint claims 5000 bytes of a read, and nine bytes of a write of four. A client's read crashes, the listener's
thread ends in a crash, and the write is called short though nothing is missing. -/
theorem exchange_lost_to_count :
    let s := start (.fresh { Bench.fresh.arrive [.report ⟨[1, 2], 5000⟩] with
      writeRule := .accept none (some 9) } .standard) 1
    (after s (.move (.ask 0 .lockEvents) :: .move (.run (.client 0)) ::
      .move (.ask 0 (.read ⟨0, false⟩ [7, 7] false)) ::
      List.replicate 3 (.move (.run (.client 0))))).clients[0]?.bind (·.reply) = some ⟨.crash none, [7, 7]⟩ ∧
    (after s (.move (.ask 0 .start) :: .move (.run (.client 0)) ::
      List.replicate 4 (.move (.run .listener)))).HasDied ∧
    (after s [.move (.ask 0 (.write [1, 2, 3, 4])), .move (.run (.client 0))]).clients[0]?.bind (·.reply) =
      some ⟨.fault (.shortWrite 9 4), []⟩ := by
  refine ⟨by decide +kernel, ⟨true, ?_⟩, by decide +kernel⟩
  rfl

end

end System

end HidGate
