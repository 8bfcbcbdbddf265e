import HidGate.Proofs.Course

/-!
# Reads that fail

A call to read makes its checks one after the other and ends with the first that fails. Nothing of the caller's buffer
is touched then and nobody is handed a report. The endpoint is not even read unless the fault is its own, and the pipe
is emptied only if a byte in it was the cause.
-/

namespace HidGate

open Bench (Item)

/-! ## The ends of a read -/

inductive ReadExit
  | foreign
  | length
  | poll
  | time
  | wake
  | read
  | empty
  deriving DecidableEq, Repr

def ReadExit.fetches : ReadExit → Bool
  | .read | .empty => true
  | _ => false

def OwnStep.fetches {σ : Type} (x : OwnStep σ) : Bool := x.doing.stage? == some .fetch

def OwnStep.still {σ : Type} (a : Activity) (h : Handle σ) : OwnStep σ := ⟨a, h, h⟩

section
variable {σ : Type} [Endpoint σ]

/-- A poll goes on to read: it does not fail, the pipe is empty, and there is something. -/
structure Gate.Finds (g : Gate σ) : Prop where
  fault : Endpoint.pollFault? g.endpoint = none
  byte : g.lock.pipe.isEmpty = true
  ready : Endpoint.ready g.endpoint = true

structure Permit.Fits (permit : Permit) (buffer : Bytes) : Prop where
  guards : permit.guards Handle.number = true
  length : 1 ≤ buffer.length ∧ buffer.length ≤ maxRead

/-- How a call to read fails: with these steps, and this fault. Each end comes about only if none of those before it
does. Between two steps others may have changed the handle. -/
inductive ReadFails (permit : Permit) (buffer : Bytes) (propagate : Bool) :
    ReadExit → List (OwnStep σ) → Fault → Prop
  | foreign {h : Handle σ} (foreign : permit.guards Handle.number = false) :
      ReadFails permit buffer propagate .foreign [.still (.enter (.read permit buffer propagate)) h]
        (.invalidArgument .foreignLock)
  | length {h : Handle σ} (guards : permit.guards Handle.number = true)
      (length : buffer.length < 1 ∨ maxRead < buffer.length) :
      ReadFails permit buffer propagate .length [.still (.enter (.read permit buffer propagate)) h]
        (.invalidArgument (.length buffer.length maxRead))
  | poll {h₀ h : Handle σ} {k : Int} {x : σ} (fits : permit.Fits buffer)
      (fault : Endpoint.pollFault? h.gate.endpoint = some (k, x)) :
      ReadFails permit buffer propagate .poll
        [.still (.enter (.read permit buffer propagate)) h₀,
          ⟨.read .poll buffer propagate, h, h.onGate { h.gate with endpoint := x }⟩]
        (if k = Errno.interrupted then .interrupted else .io (.tabled k))
  | time {h₀ h : Handle σ} (fits : permit.Fits buffer) (fault : Endpoint.pollFault? h.gate.endpoint = none)
      (byte : h.gate.lock.pipe.isEmpty = true) (nothing : Endpoint.ready h.gate.endpoint = false) :
      ReadFails permit buffer propagate .time
        [.still (.enter (.read permit buffer propagate)) h₀, .still (.read .poll buffer propagate) h] .timeout
  | wake {h₀ h₁ h : Handle σ} (fits : permit.Fits buffer) (fault : Endpoint.pollFault? h₁.gate.endpoint = none)
      (byte : h₁.gate.lock.pipe.isEmpty = false) :
      ReadFails permit buffer propagate .wake
        [.still (.enter (.read permit buffer propagate)) h₀, .still (.read .poll buffer propagate) h₁,
          ⟨.read .drain buffer propagate, h, h.withLock { h.gate.lock with pipe := .empty }⟩] .interrupted
  | read {h₀ h₁ h : Handle σ} {e : SystemError} {x : σ} (fits : permit.Fits buffer) (finds : h₁.gate.Finds)
      (fetch : Endpoint.fetch? h.gate.endpoint = some (.error e, x)) :
      ReadFails permit buffer propagate .read
        [.still (.enter (.read permit buffer propagate)) h₀, .still (.read .poll buffer propagate) h₁,
          ⟨.read .fetch buffer propagate, h, h.onGate { h.gate with endpoint := x }⟩] (.io e)
  | empty {h₀ h₁ h : Handle σ} {r : Reading} {x : σ} (fits : permit.Fits buffer) (finds : h₁.gate.Finds)
      (fetch : Endpoint.fetch? h.gate.endpoint = some (.ok r, x)) (claim : r.claimed = 0) :
      ReadFails permit buffer propagate .empty
        [.still (.enter (.read permit buffer propagate)) h₀, .still (.read .poll buffer propagate) h₁,
          ⟨.read .fetch buffer propagate, h, h.onGate { h.gate with endpoint := x }⟩]
        (.io (.code Errno.inputOutput))

/-- How far a call to read of client `n` has got, or how it ended. Once the poll has found something and the endpoint
has given a report, the call cannot fail any more. -/
inductive ReadCourse (n : Nat) (c : Client) (permit : Permit) (buffer : Bytes) (propagate : Bool) :
    List (OwnStep σ) → Client → Prop
  | called : ReadCourse n c permit buffer propagate [] c
  | polling {h₀ : Handle σ} (fits : permit.Fits buffer) :
      ReadCourse n c permit buffer propagate [.still (.enter (.read permit buffer propagate)) h₀]
        (c.goOn (.read .poll buffer propagate))
  | woken {h₀ h₁ : Handle σ} (fits : permit.Fits buffer) (fault : Endpoint.pollFault? h₁.gate.endpoint = none)
      (byte : h₁.gate.lock.pipe.isEmpty = false) :
      ReadCourse n c permit buffer propagate
        [.still (.enter (.read permit buffer propagate)) h₀, .still (.read .poll buffer propagate) h₁]
        (c.goOn (.read .drain buffer propagate))
  | found {h₀ h₁ : Handle σ} (fits : permit.Fits buffer) (finds : h₁.gate.Finds) :
      ReadCourse n c permit buffer propagate
        [.still (.enter (.read permit buffer propagate)) h₀, .still (.read .poll buffer propagate) h₁]
        (c.goOn (.read .fetch buffer propagate))
  | failed {exit : ReadExit} {own : List (OwnStep σ)} {f : Fault}
      (fails : ReadFails permit buffer propagate exit own f) :
      ReadCourse n c permit buffer propagate own (c.answer ⟨.fault f, buffer⟩)
  | overlong {h₀ h₁ h : Handle σ} {r : Reading} {x : σ} (fits : permit.Fits buffer) (finds : h₁.gate.Finds)
      (fetch : Endpoint.fetch? h.gate.endpoint = some (.ok r, x)) (claim : maxRead < r.claimed) :
      ReadCourse n c permit buffer propagate
        [.still (.enter (.read permit buffer propagate)) h₀, .still (.read .poll buffer propagate) h₁,
          ⟨.read .fetch buffer propagate, h, h.onGate { h.gate with endpoint := x }⟩] (c.answer ⟨.crash none, buffer⟩)
  | fetched {h₀ h₁ h : Handle σ} {r : Reading} {x : σ} (fits : permit.Fits buffer) (finds : h₁.gate.Finds)
      (fetch : Endpoint.fetch? h.gate.endpoint = some (.ok r, x)) (positive : 0 < r.claimed)
      (room : r.claimed ≤ maxRead) :
      ReadCourse n c permit buffer propagate
        [.still (.enter (.read permit buffer propagate)) h₀, .still (.read .poll buffer propagate) h₁,
          ⟨.read .fetch buffer propagate, h,
            h.onGate ({ h.gate with endpoint := x }.note (.client n) (.received r.report))⟩]
        (Handle.afterRead c buffer propagate (if propagate then .stage (.hand r.report) else .ended (.ok r.report)))
  | handed {h₀ h₁ h k : Handle σ} {r : Reading} {x : σ} {next : ReadNext} {g : Gate σ} (fits : permit.Fits buffer)
      (finds : h₁.gate.Finds) (fetch : Endpoint.fetch? h.gate.endpoint = some (.ok r, x)) (positive : 0 < r.claimed)
      (room : r.claimed ≤ maxRead) (asked : propagate = true)
      (hands : ReadStep (.client n) propagate k.gate (.hand r.report) next g) :
      ReadCourse n c permit buffer propagate
        [.still (.enter (.read permit buffer propagate)) h₀, .still (.read .poll buffer propagate) h₁,
          ⟨.read .fetch buffer propagate, h,
            h.onGate ({ h.gate with endpoint := x }.note (.client n) (.received r.report))⟩,
          ⟨.read (.hand r.report) buffer propagate, k, k.onGate g⟩] (Handle.afterRead c buffer propagate next)

end

theorem SoftLock.drained_eq (l : SoftLock) : l.drained = { l with pipe := .empty } := by
  rw [drained, Pipe.drain_eq]

namespace Handle

section
variable {σ : Type} [Endpoint σ] {n : Nat} {c d : Client} {own : List (OwnStep σ)} {permit : Permit} {buffer : Bytes}
  {propagate : Bool} {f : Fault} {exit : ReadExit}

/-! ### Refusals -/

theorem readRefusal?_of_foreign (foreign : permit.guards number = false) :
    readRefusal? permit buffer = some (.invalidArgument .foreignLock) := by
  simp [readRefusal?, foreign]

theorem readRefusal?_of_length (guards : permit.guards number = true)
    (length : buffer.length < 1 ∨ maxRead < buffer.length) :
    readRefusal? permit buffer = some (.invalidArgument (.length buffer.length maxRead)) := by
  have outside : (buffer.length < 1 || maxRead < buffer.length) = true := by
    simpa only [Bool.or_eq_true, decide_eq_true_eq] using length
  simp only [readRefusal?, guards, Fault.checkLength, outside, if_true]
  rfl

theorem readRefusal?_eq_none_iff : readRefusal? permit buffer = none ↔ permit.Fits buffer := by
  constructor
  · intro fine
    cases guards : permit.guards number with
    | false => rw [readRefusal?_of_foreign guards] at fine; cases fine
    | true =>
      simp only [readRefusal?, guards] at fine
      exact ⟨guards, Fault.checkLength_eq_none.mp fine⟩
  · rintro ⟨guards, length⟩
    simp [readRefusal?, guards, Fault.checkLength_eq_none.mpr length]

theorem readFails_of_refusal (refusal : readRefusal? permit buffer = some f) (h : Handle σ) :
    ∃ exit, ReadFails permit buffer propagate exit [.still (.enter (.read permit buffer propagate)) h] f := by
  cases guards : permit.guards number with
  | false =>
    cases (readRefusal?_of_foreign guards).symm.trans refusal
    exact ⟨_, .foreign guards⟩
  | true =>
    by_cases length : buffer.length < 1 ∨ maxRead < buffer.length
    · cases (readRefusal?_of_length guards length).symm.trans refusal
      exact ⟨_, .length guards length⟩
    · rw [readRefusal?_eq_none_iff.mpr ⟨guards, by omega⟩] at refusal
      cases refusal

/-! ### Every course of a read is one of these -/

theorem Course.of_drain (course : Course n c own d) (doing : c.activity = .read .drain buffer propagate) :
    own = [] ∧ d = c ∨ ∃ h, own = [⟨.read .drain buffer propagate, h, h.withLock { h.gate.lock with pipe := .empty }⟩] ∧
      d = c.answer ⟨.fault .interrupted, buffer⟩ := by
  rcases course.of_reading doing with stays | ⟨h, next, g, own', rfl, step, rest⟩ | ⟨h, polls, -⟩
  · exact .inl stays
  · cases step
    obtain ⟨rfl, rfl⟩ := rest.of_idle rfl
    rw [SoftLock.drained_eq]
    exact .inr ⟨h, rfl, rfl⟩
  · cases polls

theorem Course.of_hand {report : Bytes} (course : Course n c own d)
    (doing : c.activity = .read (.hand report) buffer propagate) :
    own = [] ∧ d = c ∨ ∃ h next g, own = [⟨.read (.hand report) buffer propagate, h, h.onGate g⟩] ∧
      ReadStep (.client n) propagate h.gate (.hand report) next g ∧ d = afterRead c buffer propagate next := by
  rcases course.of_reading doing with stays | ⟨h, next, g, own', rfl, step, rest⟩ | ⟨h, polls, -⟩
  · exact .inl stays
  · have ended : (afterRead c buffer propagate next).activity = .idle := by cases step <;> rfl
    obtain ⟨rfl, rfl⟩ := rest.of_idle ended
    exact .inr ⟨h, next, g, rfl, step, rfl⟩
  · cases polls

theorem Course.of_fetch {h₀ h₁ : Handle σ} (course : Course n (c.goOn (.read .fetch buffer propagate)) own d)
    (fits : permit.Fits buffer) (finds : h₁.gate.Finds) :
    ReadCourse n c permit buffer propagate
      (.still (.enter (.read permit buffer propagate)) h₀ :: .still (.read .poll buffer propagate) h₁ :: own) d := by
  rcases course.of_reading rfl with ⟨rfl, rfl⟩ | ⟨h, next, g, own', rfl, step, rest⟩ | ⟨h, polls, -⟩
  · exact .found fits finds
  · cases step with
    | fault fetch =>
      obtain ⟨rfl, rfl⟩ := rest.of_idle rfl
      exact .failed (.read fits finds fetch)
    | empty fetch claim =>
      obtain ⟨rfl, rfl⟩ := rest.of_idle rfl
      exact .failed (.empty fits finds fetch claim)
    | overlong fetch claim =>
      obtain ⟨rfl, rfl⟩ := rest.of_idle rfl
      exact .overlong fits finds fetch claim
    | report fetch positive room =>
      have taken : ReadCourse n c permit buffer propagate
          (.still (.enter (.read permit buffer propagate)) h₀ :: _) _ := .fetched fits finds fetch positive room
      cases propagate with
      | false =>
        obtain ⟨rfl, rfl⟩ := rest.of_idle rfl
        exact taken
      | true =>
        rcases rest.of_hand rfl with ⟨rfl, rfl⟩ | ⟨k, next, g, rfl, hands, rfl⟩
        · exact taken
        · have handed : ReadCourse n c permit buffer true (.still (.enter (.read permit buffer true)) h₀ :: _) _ :=
            .handed fits finds fetch positive room rfl hands
          cases hands <;> exact handed
  · cases polls

theorem Course.of_poll {h₀ : Handle σ} (course : Course n (c.goOn (.read .poll buffer propagate)) own d)
    (fits : permit.Fits buffer) :
    ReadCourse n c permit buffer propagate (.still (.enter (.read permit buffer propagate)) h₀ :: own) d := by
  rcases course.of_reading rfl with ⟨rfl, rfl⟩ | ⟨h, next, g, own', rfl, step, rest⟩ | ⟨h, -, idle, rfl, rfl⟩
  · exact .polling fits
  · cases step with
    | pollFault fault =>
      obtain ⟨rfl, rfl⟩ := rest.of_idle rfl
      exact .failed (.poll fits fault)
    | wake fault byte =>
      rcases rest.of_drain rfl with ⟨rfl, rfl⟩ | ⟨h', rfl, rfl⟩
      · exact .woken fits fault byte
      · exact .failed (.wake fits fault byte)
    | ready fault byte ready =>
      have rest : Course n (c.goOn (.read .fetch buffer propagate)) own' d := rest
      exact rest.of_fetch fits ⟨fault, byte, ready⟩
  · simp only [Gate.isIdle, Bool.and_eq_true, Bool.not_eq_true', Option.isNone_iff_eq_none] at idle
    exact .failed (.time fits idle.1.1 idle.1.2 idle.2)

theorem Course.readCourse (course : Course n c own d) (doing : c.activity = .enter (.read permit buffer propagate)) :
    ReadCourse n c permit buffer propagate own d := by
  rcases course.of_enter doing with ⟨rfl, rfl⟩ | ⟨h, own', rfl, ⟨f, refusal, rfl, rfl⟩ | ⟨fine, rest⟩⟩
  · exact .called
  · obtain ⟨exit, fails⟩ : ∃ exit, ReadFails permit buffer propagate exit [.still _ h] f :=
      readFails_of_refusal refusal h
    exact .failed fails
  · exact rest.of_poll (readRefusal?_eq_none_iff.mp fine)

theorem course_of_fails (fails : ReadFails permit buffer propagate exit own f)
    (doing : c.activity = .enter (.read permit buffer propagate)) : Course n c own (c.answer ⟨.fault f, buffer⟩) := by
  -- all ends but the first two come after the checks of the call itself
  have goes {h₀ : Handle σ} {own : List (OwnStep σ)} (fits : permit.Fits buffer)
      (rest : Course n (c.goOn (.read .poll buffer propagate)) own (c.answer ⟨.fault f, buffer⟩)) :
      Course n c (.still (.enter (.read permit buffer propagate)) h₀ :: own) (c.answer ⟨.fault f, buffer⟩) :=
    .enter doing (readRefusal?_eq_none_iff.mpr fits) rest
  cases fails with
  | foreign foreign => exact .refuse doing (readRefusal?_of_foreign foreign)
  | length guards length => exact .refuse doing (readRefusal?_of_length guards length)
  | poll fits fault => exact goes fits (.read rfl (.pollFault fault) (.refl _))
  | time fits fault byte nothing =>
    exact goes fits (.expire rfl (by simp [Gate.isIdle, fault, byte, nothing]))
  | @wake h₀ h₁ h fits fault byte =>
    have drains : ReadStep (.client n) propagate h.gate .drain _ _ := .drain
    rw [SoftLock.drained_eq] at drains
    exact goes fits (.read rfl (.wake fault byte) (.read rfl drains (.refl _)))
  | read fits finds fetch =>
    exact goes fits (.read rfl (.ready finds.fault finds.byte finds.ready) (.read rfl (.fault fetch) (.refl _)))
  | empty fits finds fetch claim =>
    exact goes fits (.read rfl (.ready finds.fault finds.byte finds.ready) (.read rfl (.empty fetch claim) (.refl _)))

end

end Handle

/-! ## Where a read can be -/

namespace ReadCourse

section
variable {σ : Type} [Endpoint σ] {n : Nat} {c d : Client} {own : List (OwnStep σ)} {permit : Permit} {buffer : Bytes}
  {propagate : Bool} {f : Fault}

theorem length_le (course : ReadCourse n c permit buffer propagate own d) : own.length ≤ 4 := by
  cases course with
  | failed fails => cases fails <;> simp
  | _ => simp

theorem activity (course : ReadCourse n c permit buffer propagate own d) :
    d = c ∨ d.activity = .idle ∨ ∃ st, d.activity = .read st buffer propagate := by
  cases course with
  | called => exact .inl rfl
  | polling | woken | found => exact .inr (.inr ⟨_, rfl⟩)
  | failed | overlong => exact .inr (.inl rfl)
  | fetched =>
    right
    cases propagate with
    | false => exact .inl rfl
    | true => exact .inr ⟨_, rfl⟩
  | handed _ _ _ _ _ _ hands => cases hands <;> exact .inr (.inl rfl)

theorem fails_of_fault {left : Bytes} (course : ReadCourse n c permit buffer propagate own d)
    (begun : c.activity ≠ .idle) (ended : d.activity = .idle) (reply : d.reply = some ⟨.fault f, left⟩) :
    left = buffer ∧ ∃ exit, ReadFails permit buffer propagate exit own f := by
  cases course with
  | called => exact absurd ended begun
  | polling | woken | found => cases ended
  | failed fails => cases reply; exact ⟨rfl, _, fails⟩
  | overlong => cases reply
  | fetched =>
    cases propagate with
    | false => cases reply
    | true => cases ended
  | handed _ _ _ _ _ _ hands => cases hands <;> cases reply

end

end ReadCourse

/-! ## What a failing read leaves as it was -/

def OwnStep.IsBare {σ : Type} (x : OwnStep σ) : Prop :=
  ∃ endpoint pipe, x.after = x.before.onGate { x.before.gate with endpoint, lock := { x.before.gate.lock with pipe } }

theorem OwnStep.still_isBare {σ : Type} (a : Activity) (h : Handle σ) : (still a h).IsBare :=
  ⟨h.gate.endpoint, h.gate.lock.pipe, rfl⟩

theorem OwnStep.IsBare.journal {σ : Type} {x : OwnStep σ} (bare : x.IsBare) :
    x.after.gate.journal = x.before.gate.journal := by
  obtain ⟨endpoint, pipe, after⟩ := bare
  rw [after]
  rfl

/-- What is left as it was by the steps of a read that fails so. `look` is what can be seen of the endpoint. -/
structure ReadExit.Spares {σ ι : Type} (exit : ReadExit) (look : σ → ι) (f : Fault) (own : List (OwnStep σ)) :
    Prop where
  bare : ∀ x ∈ own, x.IsBare
  journal : ∀ x ∈ own, x.after.gate.journal = x.before.gate.journal
  fetches : own.any OwnStep.fetches = exit.fetches
  endpoint : exit.fetches = false → ∀ x ∈ own, look x.after.gate.endpoint = look x.before.gate.endpoint
  lock : exit ≠ .wake → ∀ x ∈ own, x.after.gate.lock = x.before.gate.lock
  transient : f.isTransient = true → exit.fetches = false

namespace ReadFails

section
variable {σ ι : Type} [Endpoint σ] {own : List (OwnStep σ)} {permit : Permit} {buffer : Bytes} {propagate : Bool}
  {f : Fault} {exit : ReadExit} {look : σ → ι}

theorem bare (fails : ReadFails permit buffer propagate exit own f) : ∀ x ∈ own, x.IsBare := by
  cases fails with
  | foreign | length | time => simp [OwnStep.still_isBare]
  | @poll h₀ h k x | @read h₀ h₁ h e x | @empty h₀ h₁ h r x =>
    simpa [OwnStep.still_isBare] using ⟨x, h.gate.lock.pipe, rfl⟩
  | @wake h₀ h₁ h => simpa [OwnStep.still_isBare] using ⟨h.gate.endpoint, .empty, rfl⟩

theorem fetches (fails : ReadFails permit buffer propagate exit own f) : own.any OwnStep.fetches = exit.fetches := by
  cases fails <;> rfl

/-- Only the poll itself can have changed the endpoint. -/
theorem endpoint (fails : ReadFails permit buffer propagate exit own f)
    (kept : ∀ x k y, Endpoint.pollFault? x = some (k, y) → look y = look x) (unread : exit.fetches = false) :
    ∀ x ∈ own, look x.after.gate.endpoint = look x.before.gate.endpoint := by
  cases fails with
  | foreign | length | time | wake => simp [OwnStep.still, Handle.withLock]
  | poll fits fault => simpa [OwnStep.still, Handle.onGate] using kept _ _ _ fault
  | read | empty => cases unread

theorem lock (fails : ReadFails permit buffer propagate exit own f) (unwoken : exit ≠ .wake) :
    ∀ x ∈ own, x.after.gate.lock = x.before.gate.lock := by
  cases fails with
  | wake => exact absurd rfl unwoken
  | _ => simp [OwnStep.still, Handle.onGate]

/-- A read that may be tried again has not been at the endpoint. -/
theorem transient (fails : ReadFails permit buffer propagate exit own f) (transient : f.isTransient = true) :
    exit.fetches = false := by
  cases fails with
  | read | empty => cases transient
  | _ => rfl

theorem spares (fails : ReadFails permit buffer propagate exit own f)
    (kept : ∀ x k y, Endpoint.pollFault? x = some (k, y) → look y = look x) : exit.Spares look f own :=
  ⟨fails.bare, fun x hx => (fails.bare x hx).journal, fails.fetches, fails.endpoint kept, fails.lock, fails.transient⟩

end

end ReadFails

theorem Bench.look_of_pollFault (b : Bench) (k : Int) (b' : Bench) (fault : Endpoint.pollFault? b = some (k, b')) :
    (b'.queue.filter Item.isRead, b'.reads) = (b.queue.filter Item.isRead, b.reads) := by
  obtain ⟨rest, queue, rfl⟩ := pollFault?_eq_some.mp fault
  simp [reads, advance, queue, Item.isRead]

/-! ## The whole -/

namespace System

section
variable {σ ι : Type} [Endpoint σ] [Surroundings σ] {s : System σ} {n : Nat} {c : Client} {permit : Permit}
  {buffer : Bytes} {propagate : Bool} {look : σ → ι}

/-- A client in a read has a step, or its time is up, unless others took what its poll had found. -/
theorem reads_on {st : ReadStage} (hc : s.clients[n]? = some c) (doing : c.activity = .read st buffer propagate) :
    (∃ e t, e.isOwn n = true ∧ Step s e t) ∨ st = .fetch ∧ Endpoint.ready s.endpoint = false := by
  have reads : s.stage? (.client n) = some st := stage?_client_iff.mpr ⟨c, buffer, propagate, hc, doing⟩
  cases next : st.step? (.client n) (s.propagates (.client n)) s.handle.gate with
  | some u =>
    obtain ⟨t, step, -⟩ := step_of_stage reads next
    exact .inl ⟨_, t, Event.isOwn_run n, step⟩
  | none =>
    cases st with
    | poll =>
      obtain ⟨t, late, -⟩ := late_of_idle reads (Gate.isIdle_of_poll? next)
      exact .inl ⟨_, t, Event.isOwn_expire n, late⟩
    | drain | hand => cases next
    | fetch =>
      simp only [ReadStage.step?, Gate.fetch?, Option.map_eq_none_iff] at next
      exact .inr ⟨rfl, by simp [Endpoint.ready, System.endpoint, next]⟩

/-- Whatever the handle is and whoever else uses it, a call to read that has not failed is past all the checks before
it. It has four steps at most and waits for nobody, but for a report that others took after its poll. It returns a
fault if and only if its steps are those of one of the seven ends, and then the buffer is what it was. Its steps then
reach nothing but the endpoint and the pipe, so nobody is handed a report. Unless the endpoint's own read was at fault
they do not read the endpoint and leave all there that a failing poll leaves, and the lock is touched only if a byte
was in the pipe. If the fault is a transient one, the endpoint has not been read. -/
theorem failed_read {tr : Trace σ} (kept : ∀ x k y, Endpoint.pollFault? x = some (k, y) → look y = look x)
    (hc : s.clients[n]? = some c) (doing : c.activity = .enter (.read permit buffer propagate)) (hf : Follows s tr)
    (unasked : asked n tr = []) :
    let u := final s tr
    let own := ownSteps n s tr
    ∃ d, u.clients[n]? = some d ∧ ReadCourse n c permit buffer propagate own d ∧ own.length ≤ 4 ∧
      (d.activity = .idle ∨ (∃ e t, e.isOwn n = true ∧ Step u e t) ∨
        d.activity = .read .fetch buffer propagate ∧ Endpoint.ready u.endpoint = false) ∧
      (d.activity = .idle → ∀ f left, d.reply = some ⟨.fault f, left⟩ ↔
        left = buffer ∧ ∃ exit, ReadFails permit buffer propagate exit own f) ∧
      ∀ exit f, ReadFails permit buffer propagate exit own f → d.activity = .idle ∧ exit.Spares look f own := by
  intro u own
  obtain ⟨d, hd, course⟩ := System.course hc hf unasked
  have fails_at {exit : ReadExit} {f : Fault} (fails : ReadFails permit buffer propagate exit own f) :
      d = c.answer ⟨.fault f, buffer⟩ :=
    (Handle.course_of_fails fails doing).unique course
  have far := course.readCourse doing
  refine ⟨d, hd, far, far.length_le, ?_, fun ended f left => ⟨fun reply => ?_, ?_⟩, fun exit f fails => ?_⟩
  · rcases far.activity with rfl | idle | ⟨st, reading⟩
    · right; left
      have enters : u.handle.step? n d = some (u.handle.enter n d (.read permit buffer propagate)) := by
        simp only [Handle.step?, doing]
      exact ⟨_, _, Event.isOwn_run n, step_of_turn hd enters⟩
    · exact .inl idle
    · right
      rcases reads_on hd reading with goes | ⟨rfl, unready⟩
      · exact .inl goes
      · exact .inr ⟨reading, unready⟩
  · exact far.fails_of_fault (by simp [doing]) ended reply
  · rintro ⟨rfl, exit, fails⟩
    rw [fails_at fails]
    rfl
  · exact ⟨congrArg Client.activity (fails_at fails), fails.spares kept⟩

/-- The poll of a read is interrupted, with a report there and another to come between its steps. Both stay. -/
theorem failed_read_of_interrupted_poll :
    let s := after (start (.fresh (Bench.fresh.arrive [.pollFault 4, .report (.whole [1, 2])]) .standard) 1)
      [.move (.ask 0 .lockEvents), .move (.run (.client 0)), .move (.ask 0 (.read ⟨0, false⟩ [7, 7, 7] true))]
    let tr := play s [.move (.run (.client 0)), .incident (Bench.Incident.arrive [.report (.whole [3])]),
      .move (.run (.client 0))]
    let u := final s tr
    tr.length = 3 ∧ u.clients[0]?.bind (·.reply) = some ⟨.fault .interrupted, [7, 7, 7]⟩ ∧
      ∃ exit, ReadFails ⟨0, false⟩ [7, 7, 7] true exit (ownSteps 0 s tr) .interrupted ∧ exit.fetches = false ∧
        u.endpoint.queue = [.report (.whole [1, 2]), .report (.whole [3])] := by
  intro s tr u
  obtain ⟨d, hd, -, -, -, replies, spares⟩ := failed_read (s := s) (n := 0) Bench.look_of_pollFault rfl rfl
    (follows_play s _ : Follows s tr) rfl
  have idle : u.clients[0]?.any Client.isIdle = true := by decide +kernel
  have reply : u.clients[0]?.bind (·.reply) = some ⟨.fault .interrupted, [7, 7, 7]⟩ := by decide +kernel
  refine ⟨by decide +kernel, reply, ?_⟩
  rw [hd] at idle reply
  obtain ⟨-, exit, fails⟩ := (replies (Client.isIdle_iff.mp idle) _ _).mp reply
  exact ⟨exit, fails, (spares exit _ fails).2.transient rfl, by decide +kernel⟩

end

end System

end HidGate
