import HidGate.Node
import HidGate.Session
import HidGate.Proofs.ExactRead

/-!
# Feature requests

A request is refused for its length, or else for its kind, before anything is touched. Otherwise the endpoint is asked
once, with the read path stolen for it if a listener runs. It is handed a scratch that has nothing of the buffer but
its length, or sent the buffer with its first byte replaced. What it writes and what it claims reaches the buffer only
as far as the buffer goes. A report that is set is sent from the caller's own buffer, so what the endpoint writes there
stays; nothing else in it changes.
-/

namespace HidGate

/-! ## Refusals -/

theorem Fault.checkLength_of_outside {len max : Nat} (outside : len < 1 ∨ max < len) :
    checkLength len max = some (.invalidArgument (.length len max)) := by
  have checked : (len < 1 || max < len) = true := by simpa only [Bool.or_eq_true, decide_eq_true_eq] using outside
  rw [checkLength, if_pos checked]

inductive Request.Refused (kind : ReportKind) (r : Request) : Fault → Prop
  | length (outside : r.buffer.length < 1 ∨ maxBuffer < r.buffer.length) :
      Refused kind r (.invalidArgument (.length r.buffer.length maxBuffer))
  | kind (room : 1 ≤ r.buffer.length ∧ r.buffer.length ≤ maxBuffer) (other : kind ≠ .feature) :
      Refused kind r (.unsupported kind)

structure Request.Fits (kind : ReportKind) (r : Request) : Prop where
  kind : kind = .feature
  length : 1 ≤ r.buffer.length ∧ r.buffer.length ≤ maxBuffer

namespace Request

variable {kind : ReportKind} {r : Request} {f : Fault}

theorem refusal?_eq_some_iff : r.refusal? kind = some f ↔ r.Refused kind f := by
  unfold refusal?
  by_cases room : 1 ≤ r.buffer.length ∧ r.buffer.length ≤ maxBuffer
  · rw [Fault.checkLength_eq_none.mpr room]
    by_cases feature : kind = .feature
    · simp only [feature, if_true]
      constructor
      · intro h; cases h
      · intro h
        cases h with
        | length outside => omega
        | kind _ other => exact absurd rfl other
    · simp only [feature, if_false]
      constructor
      · intro h; cases h; exact .kind room feature
      · intro h
        cases h with
        | length outside => omega
        | kind => rfl
  · have outside : r.buffer.length < 1 ∨ maxBuffer < r.buffer.length := by omega
    rw [Fault.checkLength_of_outside outside]
    constructor
    · intro h; cases h; exact .length outside
    · intro h
      cases h with
      | length => rfl
      | kind room' => exact absurd room' room

theorem refusal?_eq_none_iff : r.refusal? kind = none ↔ r.Fits kind := by
  unfold refusal?
  constructor
  · intro h
    split at h
    · cases h
    · rename_i checked
      split at h
      · rename_i feature
        exact ⟨feature, Fault.checkLength_eq_none.mp checked⟩
      · cases h
  · rintro ⟨rfl, room⟩
    rw [Fault.checkLength_eq_none.mpr room]
    rfl

theorem Refused.not_fits (refused : r.Refused kind f) : ¬ r.Fits kind := by
  rintro ⟨feature, room⟩
  cases refused with
  | length outside => omega
  | kind _ other => exact other feature

/-! ## Exchanges -/

def blank (r : Request) : Bytes := r.id :: List.replicate (r.buffer.length - 1) 0

def front (r : Request) (claimed : Nat) (data : Bytes) : Bytes :=
  (data.overlay r.blank).take (min claimed r.buffer.length)

theorem scratch_eq (room : 1 ≤ r.buffer.length) : r.scratch = r.blank := by
  obtain ⟨k, length⟩ := Nat.exists_eq_add_of_le' room
  rw [scratch, Bytes.filled, blank, length]
  rfl

theorem length_front (room : 1 ≤ r.buffer.length) (claimed : Nat) (data : Bytes) :
    (r.front claimed data).length = min claimed r.buffer.length := by
  rw [front, List.length_take, Bytes.length_overlay, blank, List.length_cons, List.length_replicate]
  omega

example : front ⟨.get, 5, [7, 7]⟩ 9 [5, 1, 2] = [5, 1] := by decide

theorem report_eq (room : 1 ≤ r.buffer.length) : r.buffer.set 0 r.id = r.id :: r.buffer.tail := by
  cases hb : r.buffer with
  | nil => rw [hb] at room; cases room
  | cons => rfl

section
variable {σ : Type} [Endpoint σ] {x y : σ} {reply : Reply}

/-- What a request gets from an endpoint in state `x`, and the state after it. -/
inductive Answers (r : Request) (x : σ) : Reply → σ → Prop
  | got {claimed : Nat} {data : Bytes} {y : σ} (direction : r.direction = .get)
      (answer : Endpoint.getFeature r.blank x = (.ok (claimed, data), y)) :
      Answers r x ⟨.count (min claimed r.buffer.length),
        r.front claimed data ++ r.buffer.drop (min claimed r.buffer.length)⟩ y
  | missed {e : SystemError} {y : σ} (direction : r.direction = .get)
      (answer : Endpoint.getFeature r.blank x = (.error e, y)) : Answers r x ⟨.fault (.io e), r.buffer⟩ y
  | sent {k : Nat} {data : Bytes} {y : σ} (direction : r.direction = .set)
      (answer : Endpoint.setFeature (r.id :: r.buffer.tail) x = ((.ok k, data), y)) :
      Answers r x ⟨.count k, data.overlay (r.id :: r.buffer.tail)⟩ y
  | unsent {e : SystemError} {data : Bytes} {y : σ} (direction : r.direction = .set)
      (answer : Endpoint.setFeature (r.id :: r.buffer.tail) x = ((.error e, data), y)) :
      Answers r x ⟨.fault (.io e), data.overlay (r.id :: r.buffer.tail)⟩ y

theorem perform_answers (who : Party) (room : 1 ≤ r.buffer.length) (g : Gate σ) :
    r.Answers g.endpoint (r.perform who g).1 (r.perform who g).2.endpoint := by
  unfold perform
  cases direction : r.direction with
  | get =>
    dsimp only
    unfold get
    rw [scratch_eq room]
    split
    · rename_i answer
      exact .missed direction answer
    · rename_i claimed data y answer
      have length := length_front room claimed data
      have got : r.Answers g.endpoint _ y := .got direction answer
      unfold front at got length
      dsimp only
      rw [length, Bytes.overlay, List.take_of_length_le (by omega), length]
      exact got
  | set =>
    dsimp only
    unfold set
    rw [report_eq room]
    dsimp only [Gate.note_endpoint]
    split
    · rename_i answer
      exact .unsent direction answer
    · rename_i answer
      exact .sent direction answer

/-- What a set makes of the buffer when the endpoint has put these bytes to its front: the endpoint changes none behind
them, and the request none but the first. -/
structure Spares (r : Request) (stored : Bytes) (reply : Reply) : Prop where
  length : reply.buffer.length = r.buffer.length
  written : reply.buffer.take stored.length = stored.take r.buffer.length
  rest : ∀ i, 0 < i → stored.length ≤ i → reply.buffer[i]? = r.buffer[i]?
  unwritten : stored = [] → reply.buffer = r.id :: r.buffer.tail

theorem spares_overlay (room : 1 ≤ r.buffer.length) (stored : Bytes) (outcome : Outcome) :
    r.Spares stored ⟨outcome, stored.overlay (r.id :: r.buffer.tail)⟩ := by
  have length : (r.id :: r.buffer.tail).length = r.buffer.length := by
    rw [List.length_cons, List.length_tail]
    omega
  refine ⟨(Bytes.length_overlay ..).trans length, ?_, ?_, ?_⟩
  · exact (Bytes.take_overlay ..).trans (by rw [length])
  · intro i behind beyond
    obtain ⟨j, rfl⟩ := Nat.exists_eq_add_of_le' behind
    refine (Bytes.getElem?_overlay beyond).trans ?_
    rw [List.getElem?_cons_succ, List.getElem?_tail]
  · rintro rfl
    simp [Bytes.overlay]

theorem Answers.of_set (answers : r.Answers x reply y) (room : 1 ≤ r.buffer.length) (set : r.direction = .set) :
    ∃ result stored, Endpoint.setFeature (r.id :: r.buffer.tail) x = ((result, stored), y) ∧
      reply.outcome = (match result with | .ok k => .count k | .error e => .fault (.io e)) ∧ r.Spares stored reply := by
  cases answers with
  | got get | missed get => cases get.symm.trans set
  | @sent k data _ _ answer => exact ⟨.ok k, data, answer, rfl, spares_overlay room data _⟩
  | @unsent e data _ _ answer => exact ⟨.error e, data, answer, rfl, spares_overlay room data _⟩

theorem Answers.ne_crash (answers : r.Answers x reply y) (message : Option String) :
    reply.outcome ≠ .crash message := by
  cases answers <;> simp

/-- What was in the buffer has no part in the answer to a get. -/
theorem Answers.congr {r' : Request} {reply' : Reply} {y' : σ} (answers : r.Answers x reply y)
    (answers' : r'.Answers x reply' y') (room : 1 ≤ r.buffer.length) (get : r.direction = .get)
    (get' : r'.direction = .get) (id : r'.id = r.id) (length : r'.buffer.length = r.buffer.length) :
    reply'.outcome = reply.outcome ∧ y' = y ∧
      ∀ k, reply.outcome = .count k → reply'.buffer.take k = reply.buffer.take k := by
  have blank : r'.blank = r.blank := by rw [Request.blank, Request.blank, id, length]
  cases answers with
  | @got claimed data y _ answer =>
    cases answers' with
    | got _ answer' =>
      rw [blank] at answer'
      cases answer'.symm.trans answer
      have front : r'.front claimed data = r.front claimed data := by rw [Request.front, Request.front, blank, length]
      have long := length_front room claimed data
      refine ⟨by rw [length], rfl, fun k counted => ?_⟩
      cases counted
      rw [front, List.take_left' long, List.take_left' long]
    | missed _ answer' =>
      rw [blank] at answer'
      cases answer'.symm.trans answer
    | sent set | unsent set => cases get'.symm.trans set
  | missed _ answer =>
    cases answers' with
    | got _ answer' =>
      rw [blank] at answer'
      cases answer'.symm.trans answer
    | missed _ answer' =>
      rw [blank] at answer'
      cases answer'.symm.trans answer
      exact ⟨rfl, rfl, fun k counted => by cases counted⟩
    | sent set | unsent set => cases get'.symm.trans set
  | sent set | unsent set => cases get.symm.trans set

end

end Request

/-! ## The course of a request -/

def OwnStep.IsLocking {σ : Type} (x : OwnStep σ) : Prop := ∃ l, x.after = x.before.withLock l

theorem OwnStep.still_isLocking {σ : Type} (a : Activity) (h : Handle σ) : (still a h).IsLocking :=
  ⟨h.gate.lock, rfl⟩

section
variable {σ : Type} [Endpoint σ]

structure Approach (kind : ReportKind) (r : Request) (own : List (OwnStep σ)) (left : Nat) : Prop where
  fits : r.Fits kind
  locking : ∀ x ∈ own, x.IsLocking
  spent : own.length + left ≤ 8

structure Exchanged (r : Request) (h k : Handle σ) (reply : Reply) : Prop where
  answers : r.Answers h.gate.endpoint reply k.gate.endpoint
  reach : ∃ J, k = h.onGate { h.gate with endpoint := k.gate.endpoint, journal := h.gate.journal ++ J } ∧
    ∀ x ∈ J, x.isAside = true

/-- How far a call to request of client `n` has got, or how it ended. -/
inductive RequestCourse (c : Client) (kind : ReportKind) (r : Request) : List (OwnStep σ) → Client → Prop
  | called : RequestCourse c kind r [] c
  | refused {h : Handle σ} {f : Fault} (refused : r.Refused kind f) :
      RequestCourse c kind r [.still (.enter (.request kind r)) h] (c.answer ⟨.fault f, r.buffer⟩)
  | stealing {own : List (OwnStep σ)} {st : Steal}
      (approach : Approach kind r own (Activity.steal st (.request r)).stepsLeft) :
      RequestCourse c kind r own (c.goOn (.steal st (.request r)))
  | entitled {own : List (OwnStep σ)} {exclusive : Bool} (approach : Approach kind r own 2) :
      RequestCourse c kind r own (c.goOn (.exchange r exclusive))
  | exchanged {own : List (OwnStep σ)} {exclusive : Bool} {h k : Handle σ} {reply : Reply}
      (approach : Approach kind r own 2) (exchange : Exchanged r h k reply) :
      RequestCourse c kind r (own ++ [⟨.exchange r exclusive, h, k⟩]) (c.goOn (.leave exclusive reply))
  | answered {own : List (OwnStep σ)} {exclusive : Bool} {h k : Handle σ} {reply : Reply} {x : OwnStep σ}
      (approach : Approach kind r own 2) (exchange : Exchanged r h k reply) (leaves : x.IsLocking) :
      RequestCourse c kind r (own ++ [⟨.exchange r exclusive, h, k⟩, x]) (c.answer reply)

theorem Request.perform_exchanged {r : Request} (who : Party) (room : 1 ≤ r.buffer.length) (h : Handle σ) :
    Exchanged r h (h.onGate (r.perform who h.gate).2) (r.perform who h.gate).1 := by
  obtain ⟨J, journal, aside⟩ := (r.perform_aside who h.gate).journal
  refine ⟨perform_answers who room h.gate, J, ?_, aside⟩
  rw [← journal]
  have rest : (r.perform who h.gate).2 = { h.gate with
      endpoint := (r.perform who h.gate).2.endpoint, journal := (r.perform who h.gate).2.journal } := by
    unfold perform
    split
    · unfold get; split <;> rfl
    · unfold set; dsimp only; split <;> rfl
  exact congrArg h.onGate rest

namespace Handle

variable {n : Nat} {c d : Client} {own : List (OwnStep σ)} {kind : ReportKind} {r : Request} {reply : Reply}
  {exclusive : Bool}

theorem Course.of_leave (course : Course n c own d) (doing : c.activity = .leave exclusive reply) :
    own = [] ∧ d = c ∨ ∃ x, own = [x] ∧ x.IsLocking ∧ d = c.answer reply := by
  cases course with
  | refl => exact .inl ⟨rfl, rfl⟩
  | late late => simp [expire?, doing] at late
  | @step _ c' _ h h' own' goes rest =>
    right
    simp only [step?, doing, Option.some.injEq] at goes
    cases goes
    obtain ⟨rfl, rfl⟩ := rest.of_idle rfl
    refine ⟨_, rfl, ?_, rfl⟩
    by_cases held : exclusive = true
    · exact ⟨h.gate.lock.release, by simp [held]⟩
    · exact ⟨h.gate.lock, by simp [held]; rfl⟩

theorem Course.of_exchange (course : Course n c own d) (doing : c.activity = .exchange r exclusive)
    (room : 1 ≤ r.buffer.length) : own = [] ∧ d = c ∨
      ∃ h k reply own', own = ⟨.exchange r exclusive, h, k⟩ :: own' ∧ Exchanged r h k reply ∧
        Course n (c.goOn (.leave exclusive reply)) own' d := by
  cases course with
  | refl => exact .inl ⟨rfl, rfl⟩
  | late late => simp [expire?, doing] at late
  | @step _ c' _ h h' own' goes rest =>
    right
    simp only [step?, doing, Option.some.injEq] at goes
    cases goes
    rw [doing]
    exact ⟨h, _, _, own', rfl, r.perform_exchanged (.client n) room h, rest⟩

theorem Course.of_steal {st : Steal} (course : Course n c own d) (doing : c.activity = .steal st (.request r)) :
    (∃ st', d = c.goOn (.steal st' (.request r)) ∧ (∀ x ∈ own, x.IsLocking) ∧
      own.length + (Activity.steal st' (.request r)).stepsLeft ≤ (Activity.steal st (.request r)).stepsLeft) ∨
    ∃ own₁ own₂, own = own₁ ++ own₂ ∧ (∀ x ∈ own₁, x.IsLocking) ∧
      own₁.length + 2 ≤ (Activity.steal st (.request r)).stepsLeft ∧
      Course n (c.goOn (.exchange r true)) own₂ d := by
  induction course generalizing st with
  | refl c =>
    refine .inl ⟨st, ?_, by simp, by simp⟩
    rw [Client.goOn, ← doing]
  | late late => simp [expire?, doing] at late
  | @step c c' d h h' own goes rest ih =>
    simp only [step?, doing, Option.map_eq_some_iff] at goes
    obtain ⟨⟨l, next⟩, step, goes⟩ := goes
    have locking : OwnStep.IsLocking ⟨c.activity, h, h.withLock l⟩ := ⟨l, rfl⟩
    cases next with
    | some st₁ =>
      cases goes
      have fewer := Steal.stepsLeft_lt (.request r) step
      rcases ih rfl with ⟨st', rfl, others, few⟩ | ⟨own₁, own₂, rfl, others, few, rest⟩
      · refine .inl ⟨st', rfl, List.forall_mem_cons.mpr ⟨locking, others⟩, ?_⟩
        rw [List.length_cons]
        omega
      · refine .inr ⟨_ :: own₁, own₂, rfl, List.forall_mem_cons.mpr ⟨locking, others⟩, ?_, rest⟩
        rw [List.length_cons]
        omega
    | none =>
      cases goes
      refine .inr ⟨[_], own, rfl, by simpa using locking, ?_, rest⟩
      cases st <;> simp [Activity.stepsLeft]

theorem Course.of_entitled {own₁ : List (OwnStep σ)} (course : Course n (c.goOn (.exchange r exclusive)) own d)
    (approach : Approach kind r own₁ 2) : RequestCourse c kind r (own₁ ++ own) d := by
  rcases course.of_exchange rfl approach.fits.length.1 with ⟨rfl, rfl⟩ | ⟨h, k, reply, own', rfl, exchange, rest⟩
  · rw [List.append_nil]
    exact .entitled approach
  · rcases rest.of_leave rfl with ⟨rfl, rfl⟩ | ⟨x, rfl, leaves, rfl⟩
    · exact .exchanged approach exchange
    · exact .answered approach exchange leaves

theorem Course.requestCourse (course : Course n c own d) (doing : c.activity = .enter (.request kind r)) :
    RequestCourse c kind r own d := by
  cases course with
  | refl => exact .called
  | late late => simp [expire?, doing] at late
  | @step _ c' _ h h' own' goes rest =>
    simp only [step?, doing, Option.some.injEq, Handle.enter] at goes
    cases refusal : r.refusal? kind with
    | some f =>
      simp only [refusal] at goes
      cases goes
      obtain ⟨rfl, rfl⟩ := rest.of_idle rfl
      rw [doing]
      exact .refused (Request.refusal?_eq_some_iff.mp refusal)
    | none =>
      have fits := Request.refusal?_eq_none_iff.mp refusal
      have still : OwnStep.IsLocking ⟨c.activity, h, h⟩ := OwnStep.still_isLocking c.activity h
      simp only [refusal] at goes
      split at goes
      · cases goes
        have begun : (Activity.steal .grab (.request r)).stepsLeft = 7 := rfl
        rcases rest.of_steal rfl with ⟨st', rfl, locking, few⟩ | ⟨own₁, own₂, rfl, locking, few, rest⟩
        · refine .stealing ⟨fits, List.forall_mem_cons.mpr ⟨still, locking⟩, ?_⟩
          rw [List.length_cons]
          omega
        · have approach : Approach kind r (⟨c.activity, h, h⟩ :: own₁) 2 := by
            refine ⟨fits, List.forall_mem_cons.mpr ⟨still, locking⟩, ?_⟩
            rw [List.length_cons]
            omega
          exact Course.of_entitled (c := c) rest approach
      · cases goes
        have approach : Approach kind r [⟨c.activity, h, h⟩] 2 := ⟨fits, by simpa using still, by simp⟩
        exact rest.of_entitled approach

end Handle

/-! ## Where a request can be -/

structure RequestEnd (kind : ReportKind) (r : Request) (own : List (OwnStep σ)) (reply : Reply) : Prop where
  ne_crash : ∀ message, reply.outcome ≠ .crash message
  refused : ∀ f, r.Refused kind f → reply = ⟨.fault f, r.buffer⟩ ∧ ∀ x ∈ own, x.after = x.before
  served : r.Fits kind → ∃ own₁ x own₂, own = own₁ ++ x :: own₂ ∧ Exchanged r x.before x.after reply ∧
    ∀ y ∈ own₁ ++ own₂, y.IsLocking

namespace RequestCourse

variable {n : Nat} {c d : Client} {own : List (OwnStep σ)} {kind : ReportKind} {r : Request}

theorem length_le (course : RequestCourse c kind r own d) (doing : c.activity = .enter (.request kind r)) :
    own.length + d.activity.stepsLeft ≤ 8 := by
  cases course with
  | called => simp [doing, Activity.stepsLeft]
  | refused => simp [Activity.stepsLeft]
  | stealing approach => exact approach.spent
  | entitled approach => exact approach.spent
  | exchanged approach =>
    have spent := approach.spent
    simp only [List.length_append, List.length_singleton, Client.goOn_activity, Activity.stepsLeft]
    omega
  | answered approach =>
    have spent := approach.spent
    simp only [List.length_append, List.length_cons, List.length_nil, Client.answer_activity, Activity.stepsLeft]
    omega

theorem ends (course : RequestCourse c kind r own d) (begun : c.activity ≠ .idle) (ended : d.activity = .idle) :
    ∃ reply, d.reply = some reply ∧ RequestEnd kind r own reply := by
  cases course with
  | called => exact absurd ended begun
  | stealing | entitled | exchanged => cases ended
  | @refused h f refused =>
    refine ⟨_, rfl, by simp, fun f' refused' => ?_, fun fits => absurd fits refused.not_fits⟩
    have same := (Request.refusal?_eq_some_iff.mpr refused).symm.trans (Request.refusal?_eq_some_iff.mpr refused')
    cases same
    exact ⟨rfl, by simp [OwnStep.still]⟩
  | @answered own₁ exclusive h k reply x approach exchange leaves =>
    refine ⟨reply, rfl, exchange.answers.ne_crash, fun f refused => absurd approach.fits refused.not_fits, fun _ => ?_⟩
    refine ⟨own₁, ⟨.exchange r exclusive, h, k⟩, [x], rfl, exchange, ?_⟩
    intro y hy
    rcases List.mem_append.mp hy with hy | hy
    · exact approach.locking y hy
    · rw [List.mem_singleton.mp hy]
      exact leaves

end RequestCourse

end

/-! ## The whole -/

namespace System

section
variable {σ : Type} [Endpoint σ] [Surroundings σ] {s : System σ} {n : Nat} {c d : Client} {kind : ReportKind}
  {r : Request}

theorem steals_on {st : Steal} {errand : Errand} (hd : s.clients[n]? = some d)
    (doing : d.activity = .steal st errand) :
    (∃ t, Step s (.move (.run (.client n))) t) ∨ d.activity.isBlocked s.lock = true := by
  cases next : st.step? (.client n) s.lock with
  | some x =>
    have goes : ∃ u, s.handle.step? n d = some u := by
      simp only [System.lock] at next
      simp only [Handle.step?, doing, next, Option.map_some]
      exact ⟨_, rfl⟩
    obtain ⟨u, goes⟩ := goes
    exact .inl ⟨_, step_of_turn hd goes⟩
  | none =>
    right
    rw [doing]
    cases st with
    | announce | clear | ungrab => cases next
    | grab | take =>
      simp only [Steal.step?, SoftLock.grab?, SoftLock.acquire?, Option.map_eq_none_iff, ite_eq_right_iff] at next
      simpa [Activity.isBlocked, Option.isSome_iff_ne_none] using next

theorem requests_on {own : List (OwnStep σ)} (hd : s.clients[n]? = some d) (course : RequestCourse c kind r own d)
    (doing : c.activity = .enter (.request kind r)) :
    d.activity = .idle ∨ (∃ t, Step s (.move (.run (.client n))) t) ∨ d.activity.isBlocked s.lock = true := by
  have of_turn (goes : (s.handle.step? n d).isSome = true) : ∃ t, Step s (.move (.run (.client n))) t := by
    obtain ⟨u, goes⟩ := Option.isSome_iff_exists.mp goes
    exact ⟨_, step_of_turn hd goes⟩
  cases course with
  | called => exact .inr (.inl (of_turn (by simp [Handle.step?, doing])))
  | refused | answered => exact .inl rfl
  | stealing => exact .inr (steals_on hd rfl)
  | entitled | exchanged => exact .inr (.inl (of_turn rfl))

/-- Whoever else uses the handle, whether a listener runs or not, and whatever the endpoint writes, claims or fails
with: a request takes eight steps at most, and waits for nothing but one of the locks. It never crashes. If it is
refused it leaves the handle as it was. Otherwise one of its steps asks the endpoint, the others reach nothing but the
lock, and the reply is that of the endpoint. What was in the buffer has no part in the answer to a get. A set hands over
the outcome, and changes no byte but the first; any other that is changed the endpoint has written. -/
theorem feature_request {tr : Trace σ} (hc : s.clients[n]? = some c)
    (doing : c.activity = .enter (.request kind r)) (hf : Follows s tr) (unasked : asked n tr = []) :
    let u := final s tr
    let own := ownSteps n s tr
    ((∃ f, r.Refused kind f) ∨ r.Fits kind) ∧
    (∃ d, u.clients[n]? = some d ∧ RequestCourse c kind r own d ∧ own.length + d.activity.stepsLeft ≤ 8 ∧
      (d.activity = .idle ∨ (∃ t, Step u (.move (.run (.client n))) t) ∨ d.activity.isBlocked u.lock = true) ∧
      (d.activity = .idle → ∃ reply, d.reply = some reply ∧ RequestEnd kind r own reply)) ∧
    (∀ (x y y' : σ) reply reply' b, r.Fits kind → r.direction = .get → b.length = r.buffer.length →
      r.Answers x reply y → { r with buffer := b }.Answers x reply' y' →
      reply'.outcome = reply.outcome ∧ y' = y ∧
        ∀ k, reply.outcome = .count k → reply'.buffer.take k = reply.buffer.take k) ∧
    ∀ (x y : σ) reply, r.Fits kind → r.direction = .set → r.Answers x reply y →
      ∃ result stored, Endpoint.setFeature (r.id :: r.buffer.tail) x = ((result, stored), y) ∧
        reply.outcome = (match result with | .ok k => .count k | .error e => .fault (.io e)) ∧
        r.Spares stored reply := by
  intro u own
  obtain ⟨d, hd, course⟩ := System.course hc hf unasked
  have far := course.requestCourse doing
  refine ⟨?_, ⟨d, hd, far, far.length_le doing, requests_on hd far doing, far.ends (by simp [doing])⟩, ?_, ?_⟩
  · cases refusal : r.refusal? kind with
    | some f => exact .inl ⟨f, Request.refusal?_eq_some_iff.mp refusal⟩
    | none => exact .inr (Request.refusal?_eq_none_iff.mp refusal)
  · intro x y y' reply reply' b fits get length answers answers'
    exact answers.congr answers' fits.length.1 get get rfl length
  · intro x y reply fits set answers
    exact answers.of_set fits.length.1 set

/-- A listener runs, so the read path is stolen first. The endpoint writes two bytes of a reply, and claims three. -/
theorem feature_request_of_a_short_answer :
    let s := after (start (.fresh Bench.fresh .standard) 1)
      [.incident (Bench.Incident.answer ⟨[(5, .reply [5, 1] (some 3))], .length⟩), .move (.ask 0 .start),
        .move (.run (.client 0)), .move (.ask 0 (.request .feature ⟨.get, 5, [7, 7, 7, 7]⟩))]
    let tr := play s (List.replicate 8 (.move (.run (.client 0))))
    tr.length = 8 ∧ (final s tr).clients[0]?.bind (·.reply) = some ⟨.count 3, [5, 1, 0, 7]⟩ ∧
      ∃ x ∈ ownSteps 0 s tr, Exchanged ⟨.get, 5, [7, 7, 7, 7]⟩ x.before x.after ⟨.count 3, [5, 1, 0, 7]⟩ := by
  intro s tr
  have calls : s.clients[0]?.map (·.activity) = some (.enter (.request .feature ⟨.get, 5, [7, 7, 7, 7]⟩)) := rfl
  have follows : Follows s tr := @follows_play Bench _ _ s _
  have unasked : asked 0 tr = [] := (asked_play (by decide +kernel) 0).trans rfl
  have idle : (final s tr).clients[0]?.any Client.isIdle = true := by decide +kernel
  have replied : (final s tr).clients[0]?.bind (·.reply) = some ⟨.count 3, [5, 1, 0, 7]⟩ := by decide +kernel
  have all : tr.length = 8 := by decide +kernel
  clear_value s tr
  obtain ⟨c, hc, doing⟩ := Option.map_eq_some_iff.mp calls
  obtain ⟨-, ⟨d, hd, -, -, -, ends⟩, -⟩ := feature_request hc doing follows unasked
  refine ⟨all, replied, ?_⟩
  rw [hd] at idle replied
  obtain ⟨reply, now, ended⟩ := ends (Client.isIdle_iff.mp idle)
  cases now.symm.trans replied
  obtain ⟨own₁, x, own₂, own, exchange, -⟩ := ended.served ⟨rfl, by decide⟩
  exact ⟨x, by rw [own]; simp, exchange⟩

/-- What is sent is the caller's own buffer, so an endpoint can change any byte of it. And of a refusal the caller hears
the number that the table gives, which need not be that of the driver. -/
theorem buffer_changed_by_endpoint :
    let r : Request := ⟨.set, 5, [7, 7, 7, 7]⟩
    let s := start (.fresh { Bench.fresh with features := ⟨[], .stores [9, 8]⟩ } .standard) 1
    let t := after s (.move (.ask 0 (.request .feature r)) :: List.replicate 3 (.move (.run (.client 0))))
    let driver : Node.Driver := ⟨some (.ok ⟨3, 1, 2⟩), ⟨[], .fault 524⟩⟩
    let u := Session.of (.fresh (Node.opened "node" (.pipe []) driver) .standard)
    Reachable t ∧ t.clients.map (·.reply) = [some ⟨.count 4, [9, 8, 7, 7]⟩] ∧
      driver.features.set [5, 7, 7, 7] = (.error 524, []) ∧
      ∃ f, (Session.call? (.request .feature r) u).map Prod.fst = some ⟨.fault f, [5, 7, 7, 7]⟩ ∧
        f.errno? = some 0 := by
  intro r s t driver u
  exact ⟨(Reachable.start _ _ _).after _, by decide +kernel, rfl, .io (.tabled 524), by decide +kernel, by decide⟩

end

end System

end HidGate
