import HidGate.Proofs.FailedRead

/-!
# Reads that succeed

A report is what one read of the endpoint stored, as far as it was claimed, with zeros behind it. It is made of that
read alone: what was read before, who reads, and into which buffer have no part in it. So the listener, who has room
for one byte, hands over the same report as a client with a buffer of full size.
-/

namespace HidGate

/-! ## The report and the buffer -/

theorem Reading.report_eq {r : Reading} (room : r.claimed ≤ maxRead) :
    r.report = r.stored.take r.claimed ++ List.replicate (r.claimed - r.stored.length) 0 := by
  rw [report, Bytes.window, List.take_append, List.take_take, List.take_replicate]
  congr 2
  · omega
  · rw [List.length_take]
    omega

theorem Reading.length_report {r : Reading} (room : r.claimed ≤ maxRead) : r.report.length = r.claimed :=
  Bytes.length_window _ room

theorem Bytes.overlay_eq (report buffer : Bytes) : report.overlay buffer =
    report.take (min report.length buffer.length) ++ buffer.drop (min report.length buffer.length) := by
  rw [overlay]
  rcases Nat.le_total report.length buffer.length with short | long
  · rw [Nat.min_eq_left short, List.take_of_length_le short, List.take_length]
  · rw [Nat.min_eq_right long, List.drop_eq_nil_of_le long, List.drop_length]

/-! ## What own steps hand over -/

namespace OwnStep

variable {σ : Type}

def handed (x : OwnStep σ) : List Handing := x.after.gate.handings.drop x.before.gate.handings.length

def Adds (x : OwnStep σ) : Prop := x.after.gate.handings = x.before.gate.handings ++ x.handed

theorem handed_of_append {x : OwnStep σ} {hs : List Handing}
    (after : x.after.gate.handings = x.before.gate.handings ++ hs) : x.handed = hs ∧ x.Adds := by
  have handed : x.handed = hs := by rw [handed, after, List.drop_left]
  exact ⟨handed, by rw [Adds, handed, after]⟩

@[simp] theorem handed_still (a : Activity) (h : Handle σ) : (still a h).handed = [] :=
  (handed_of_append (List.append_nil _).symm).1

@[simp] theorem adds_still (a : Activity) (h : Handle σ) : (still a h).Adds :=
  (handed_of_append (List.append_nil _).symm).2

theorem handed_fetch (a : Activity) (h : Handle σ) (x : σ) (who : Party) (what : Notice) :
    (mk a h (h.onGate ({ h.gate with endpoint := x }.note who what))).handed = [] ∧
      (mk a h (h.onGate ({ h.gate with endpoint := x }.note who what))).Adds :=
  handed_of_append (by simp [Handle.onGate, Gate.handings, Entry.handing?])

end OwnStep

section
variable {σ : Type} [Endpoint σ] {who : Party} {propagate : Bool} {g g' : Gate σ} {report : Bytes} {next : ReadNext}

theorem ReadStep.handings (hands : ReadStep who propagate g (.hand report) next g') :
    g'.handings = g.handings ++ [⟨who, g.recipient, report⟩] := by
  cases hands <;> simp

/-- Unless it crashes, what the handler makes of a report has no part in the result. -/
theorem ReadStep.ended_of_calm (hands : ReadStep who propagate g (.hand report) next g')
    (calm : g.verdict report ≠ .crash) : next = .ended (.ok report) := by
  cases hands with
  | accepted | rejected => rfl
  | crashed verdict => exact absurd ((g.hand_verdict who report).symm.trans verdict) calm

end

/-! ## What a client gets -/

section
variable {σ : Type} [Endpoint σ]

def Endpoint.reading? (x : σ) : Option Reading :=
  match Endpoint.fetch? x with
  | some (.ok r, _) => some r
  | _ => none

def OwnStep.reading? (x : OwnStep σ) : Option Reading :=
  if x.fetches then Endpoint.reading? x.before.gate.endpoint else none

@[simp] theorem OwnStep.reading?_enter (call : Call) (h k : Handle σ) : (mk (.enter call) h k).reading? = none := rfl

@[simp] theorem OwnStep.reading?_poll (buffer : Bytes) (propagate : Bool) (h k : Handle σ) :
    (mk (.read .poll buffer propagate) h k).reading? = none := rfl

@[simp] theorem OwnStep.reading?_drain (buffer : Bytes) (propagate : Bool) (h k : Handle σ) :
    (mk (.read .drain buffer propagate) h k).reading? = none := rfl

@[simp] theorem OwnStep.reading?_fetch (buffer : Bytes) (propagate : Bool) (h k : Handle σ) :
    (mk (.read .fetch buffer propagate) h k).reading? = Endpoint.reading? h.gate.endpoint := rfl

@[simp] theorem OwnStep.reading?_hand (report buffer : Bytes) (propagate : Bool) (h k : Handle σ) :
    (mk (.read (.hand report) buffer propagate) h k).reading? = none := by
  simp [reading?, fetches, Activity.stage?]

theorem Endpoint.reading?_eq_some {x : σ} {r : Reading} :
    Endpoint.reading? x = some r ↔ ∃ y, Endpoint.fetch? x = some (.ok r, y) := by
  unfold Endpoint.reading?
  split <;> simp_all

/-- The call has returned the count that was claimed and the report in front of what is left of the buffer. The report
was handed over once if that was asked, and else not. -/
structure Gets (n : Nat) (r : Reading) (buffer : Bytes) (propagate : Bool) (own : List (OwnStep σ)) (d : Client) :
    Prop where
  activity : d.activity = .idle
  reply : d.reply = some ⟨.count r.claimed, r.report.take (min r.claimed buffer.length) ++
    buffer.drop (min r.claimed buffer.length)⟩
  handed : propagate = true → ∃ x ∈ own, x.handed = [⟨.client n, x.before.gate.recipient, r.report⟩] ∧
    own.flatMap OwnStep.handed = x.handed
  silent : propagate = false → own.flatMap OwnStep.handed = []
  adds : ∀ x ∈ own, x.Adds

structure HasInHand (r : Reading) (buffer : Bytes) (propagate : Bool) (own : List (OwnStep σ)) (d : Client) : Prop where
  asked : propagate = true
  activity : d.activity = .read (.hand r.report) buffer propagate
  silent : own.flatMap OwnStep.handed = []
  adds : ∀ x ∈ own, x.Adds

variable {n : Nat} {c d : Client} {permit : Permit} {buffer : Bytes} {propagate : Bool} {own : List (OwnStep σ)}
  {r : Reading}

theorem reply_of_report (room : r.claimed ≤ maxRead) (c : Client) (buffer : Bytes) (propagate : Bool) :
    (Handle.afterRead c buffer propagate (.ended (.ok r.report))).reply = some ⟨.count r.claimed,
      r.report.take (min r.claimed buffer.length) ++ buffer.drop (min r.claimed buffer.length)⟩ := by
  simp only [Handle.afterRead, Client.answer, Bytes.overlay_eq, Reading.length_report room]

theorem OwnStep.handed_hand {a : Activity} {h : Handle σ} {g : Gate σ} {report : Bytes} {next : ReadNext}
    (hands : ReadStep (.client n) propagate h.gate (.hand report) next g) :
    (mk a h (h.onGate g)).handed = [⟨.client n, h.gate.recipient, report⟩] ∧ (mk a h (h.onGate g)).Adds :=
  handed_of_append hands.handings

theorem ReadFails.takes_nothing {exit : ReadExit} {f : Fault} (fails : ReadFails permit buffer propagate exit own f)
    (any : 1 ≤ r.claimed) : ¬ ∃ x ∈ own, x.reading? = some r := by
  cases fails with
  | @empty _ _ _ r' _ fits finds fetch claim =>
    intro takes
    obtain rfl : r' = r := by simpa [OwnStep.still, Endpoint.reading?, fetch] using takes
    omega
  | read fits finds fetch => simp [OwnStep.still, Endpoint.reading?, fetch]
  | _ => simp [OwnStep.still]

theorem ReadCourse.gets (course : ReadCourse n c permit buffer propagate own d) (takes : ∃ x ∈ own, x.reading? = some r)
    (any : 1 ≤ r.claimed) (room : r.claimed ≤ maxRead) (calm : ∀ x ∈ own, x.before.gate.verdict r.report ≠ .crash) :
    Gets n r buffer propagate own d ∨ HasInHand r buffer propagate own d := by
  cases course with
  | called | polling | woken | found => simp [OwnStep.still] at takes
  | failed fails => exact absurd takes (fails.takes_nothing any)
  | @overlong _ _ _ r' _ fits finds fetch claim =>
    obtain rfl : r' = r := by simpa [OwnStep.still, Endpoint.reading?, fetch] using takes
    omega
  | @fetched _ _ h r' x fits finds fetch =>
    obtain rfl : r' = r := by simpa [OwnStep.still, Endpoint.reading?, fetch] using takes
    obtain ⟨nothing, adds⟩ := OwnStep.handed_fetch (.read .fetch buffer propagate) h x (.client n) (.received r'.report)
    cases propagate with
    | false =>
      exact .inl ⟨rfl, reply_of_report room c buffer false, by simp, fun _ => by simp [nothing], by simp [adds]⟩
    | true => exact .inr ⟨rfl, rfl, by simp [nothing], by simp [adds]⟩
  | @handed _ _ h k r' x next g fits finds fetch _ _ asked hands =>
    obtain rfl : r' = r := by simpa [OwnStep.still, Endpoint.reading?, fetch] using takes
    obtain ⟨nothing, adds⟩ := OwnStep.handed_fetch (.read .fetch buffer propagate) h x (.client n) (.received r'.report)
    obtain ⟨handed, adds'⟩ := OwnStep.handed_hand (a := .read (.hand r'.report) buffer propagate) hands
    -- the handler does not crash, so that the read ends here
    obtain rfl := hands.ended_of_calm (calm ⟨.read (.hand r'.report) buffer propagate, k, k.onGate g⟩ (by simp))
    left
    refine ⟨rfl, reply_of_report room c buffer propagate, fun _ => ?_, fun unasked => ?_, by simp [adds, adds']⟩
    · exact ⟨⟨.read (.hand r'.report) buffer propagate, k, k.onGate g⟩, by simp, handed, by simp [nothing]⟩
    · cases asked.symm.trans unasked

end

/-! ## What the listener gets -/

namespace System

section
variable {σ : Type} [Endpoint σ] [Surroundings σ] {s t : System σ} {r : Reading}

theorem Step.listener_waits {e : Event σ} {report : Bytes} (st : Step s e t) (others : e ≠ .move (.run .listener))
    (holds : s.stage? .listener = some (.hand report)) : t.stage? .listener = some (.hand report) := by
  by_cases same : t.stage? .listener = some (.hand report)
  · exact same
  · rcases st.of_leaves holds same with ⟨_, _, rfl, -⟩ | ⟨polls, -⟩
    · exact absurd rfl others
    · cases polls

theorem listener_waits {tr : Trace σ} {report : Bytes} (hf : Follows s tr)
    (others : ∀ x ∈ tr, x.1 ≠ .move (.run .listener)) (holds : s.stage? .listener = some (.hand report)) :
    (final s tr).stage? .listener = some (.hand report) := by
  induction tr generalizing s with
  | nil => exact holds
  | cons x tr ih =>
    have next := Step.listener_waits hf.1 (others x List.mem_cons_self) holds
    exact ih hf.2 (fun y hy => others y (List.mem_cons_of_mem _ hy)) next

theorem Step.listener_fetches {y : σ} (st : Step s (.move (.run .listener)) t)
    (reads : s.stage? .listener = some .fetch) (fetch : Endpoint.fetch? s.endpoint = some (.ok r, y))
    (any : 1 ≤ r.claimed) (room : r.claimed ≤ maxRead) :
    t.stage? .listener = some (.hand r.report) ∧ t.handle.gate.handings = s.handle.gate.handings := by
  cases st.motion with
  | read at_p step endpoint journal pipe goes =>
    cases reads.symm.trans at_p
    cases step with
    | report fetch' =>
      cases fetch.symm.trans fetch'
      exact ⟨goes, (congrArg (List.filterMap Entry.handing?) journal).trans (Gate.handings_note ..)⟩
    | fault fetch' => cases fetch.symm.trans fetch'
    | empty fetch' claim | overlong fetch' claim =>
      cases fetch.symm.trans fetch'
      omega
  | aside at_p => cases reads.symm.trans at_p

theorem listener_hands {report : Bytes} (holds : s.stage? .listener = some (.hand report)) :
    ∃ t, Step s (.move (.run .listener)) t ∧
      t.handle.gate.handings = s.handle.gate.handings ++ [⟨.listener, s.handle.gate.recipient, report⟩] ∧
      (s.handle.gate.verdict report ≠ .crash →
        ∃ wanted, t.handle.listener = .running wanted (.working (.leave (.ok report.length)))) := by
  obtain ⟨wanted, on_duty⟩ := stage?_listener_iff.mp holds
  obtain ⟨next, g, hands⟩ : ∃ next g, ReadStep .listener true s.handle.gate (.hand report) next g :=
    ⟨_, _, ReadStage.readStep rfl⟩
  obtain ⟨-, -, -, journal, -⟩ := Duty.ofRead_stage wanted next g
  refine ⟨_, step_of_duty on_duty (.reads hands), ?_, fun calm => ?_⟩
  · exact (congrArg (List.filterMap Entry.handing?) journal).trans hands.handings
  · rw [hands.ended_of_calm calm]
    exact ⟨wanted, rfl⟩

/-! ## The whole -/

/-- Whatever has been read before, whoever reads, and whatever buffer there is for it: the report that a reading makes
is what was stored, as far as it was claimed, with zeros behind it. A client that takes the reading hands just this
report over, once and only if asked, and returns the count that was claimed and as much of the report as fits, in front
of the rest of its buffer. A listener that takes it hands over the same report with its next step, and ends its read
with the same count. It has no part in this whether the handler refuses the report. -/
theorem exact_read {r : Reading} (any : 1 ≤ r.claimed) (room : r.claimed ≤ maxRead) :
    r.report = r.stored.take r.claimed ++ List.replicate (r.claimed - r.stored.length) 0 ∧
      (∀ (s : System σ) (tr : Trace σ) n c permit buffer propagate, s.clients[n]? = some c →
        c.activity = .enter (.read permit buffer propagate) → Follows s tr → asked n tr = [] →
        let own := ownSteps n s tr
        let u := final s tr
        (∃ x ∈ own, x.reading? = some r) → (∀ x ∈ own, x.before.gate.verdict r.report ≠ .crash) →
        ∃ d, u.clients[n]? = some d ∧ (Gets n r buffer propagate own d ∨
          HasInHand r buffer propagate own d ∧ ∃ e t, e.isOwn n = true ∧ Step u e t)) ∧
      ∀ (s t : System σ) (tr : Trace σ), s.stage? .listener = some .fetch → Endpoint.reading? s.endpoint = some r →
        Step s (.move (.run .listener)) t → Follows t tr → (∀ x ∈ tr, x.1 ≠ .move (.run .listener)) →
        let u := final t tr
        t.handle.gate.handings = s.handle.gate.handings ∧ ∃ v, Step u (.move (.run .listener)) v ∧
          v.handle.gate.handings = u.handle.gate.handings ++ [⟨.listener, u.handle.gate.recipient, r.report⟩] ∧
          (u.handle.gate.verdict r.report ≠ .crash →
            ∃ wanted, v.handle.listener = .running wanted (.working (.leave (.ok r.claimed)))) := by
  refine ⟨Reading.report_eq room, ?_, ?_⟩
  · intro s tr n c permit buffer propagate hc doing hf unasked own u takes calm
    obtain ⟨d, hd, course⟩ := System.course hc hf unasked
    refine ⟨d, hd, ?_⟩
    rcases (course.readCourse doing).gets takes any room calm with gets | has
    · exact .inl gets
    · rcases reads_on hd has.activity with goes | ⟨fetches, -⟩
      · exact .inr ⟨has, goes⟩
      · cases fetches
  · intro s t tr reads reading st hf others u
    obtain ⟨y, fetch⟩ := Endpoint.reading?_eq_some.mp reading
    obtain ⟨holds, quiet⟩ := st.listener_fetches reads fetch any room
    obtain ⟨v, hands, handed, ends⟩ := listener_hands (listener_waits hf others holds)
    rw [Reading.length_report room] at ends
    exact ⟨quiet, v, hands, handed, ends⟩

/-- Three bytes are stored and five claimed, after a longer report has been read. A client with seven bytes of room and
a listener get the same report, and the handler refuses it. -/
theorem exact_read_of_a_short_store :
    let queue : List Bench.Item := [.report (.whole [8, 8, 8, 8, 8, 8, 8, 8]), .report ⟨[1, 2, 3], 5⟩]
    let refuse : Handler := .observer fun _ => .reject .timeout
    let s := after (start (.fresh (Bench.fresh.arrive queue) .standard) 1) [.move (.ask 0 (.register (some refuse))),
      .move (.run (.client 0)), .move (.ask 0 .lockEvents), .move (.run (.client 0)),
      .move (.ask 0 (.read ⟨0, false⟩ [9] true)), .move (.run (.client 0)), .move (.run (.client 0)),
      .move (.run (.client 0)), .move (.run (.client 0)),
      .move (.ask 0 (.read ⟨0, false⟩ [7, 7, 7, 7, 7, 7, 7] true))]
    let tr := play s (List.replicate 4 (.move (.run (.client 0))))
    let s' := after (start (.fresh (Bench.fresh.arrive queue) .standard) 1) (.move (.ask 0 (.register (some refuse))) ::
      .move (.run (.client 0)) :: .move (.ask 0 .start) :: .move (.run (.client 0)) ::
      List.replicate 11 (.move (.run .listener)))
    let t' := after s' [.move (.run .listener)]
    (∃ d, (final s tr).clients[0]? = some d ∧ d.reply = some ⟨.count 5, [1, 2, 3, 0, 0, 7, 7]⟩) ∧
      (∃ recipient, (ownSteps 0 s tr).flatMap OwnStep.handed = [⟨.client 0, recipient, [1, 2, 3, 0, 0]⟩]) ∧
      ∃ v recipient, Step t' (.move (.run .listener)) v ∧
        v.handle.gate.handings = t'.handle.gate.handings ++ [⟨.listener, recipient, [1, 2, 3, 0, 0]⟩] := by
  intro queue refuse s tr s' t'
  obtain ⟨report, client, listener⟩ := exact_read (σ := Bench) (r := ⟨[1, 2, 3], 5⟩) (by decide) (by decide)
  have report : (⟨[1, 2, 3], 5⟩ : Reading).report = [1, 2, 3, 0, 0] := report
  rw [report] at client listener
  have calls : s.clients[0]?.map (·.activity) = some (.enter (.read ⟨0, false⟩ [7, 7, 7, 7, 7, 7, 7] true)) := rfl
  have follows : Follows s tr := @follows_play Bench _ _ s _
  have unasked : asked 0 tr = [] := (asked_play (by decide +kernel) 0).trans rfl
  have takes : ∃ x ∈ ownSteps 0 s tr, x.reading? = some ⟨[1, 2, 3], 5⟩ := by decide +kernel
  have calm : ∀ x ∈ ownSteps 0 s tr, x.before.gate.verdict [1, 2, 3, 0, 0] ≠ .crash := by decide +kernel
  have idle : (final s tr).clients[0]?.any Client.isIdle = true := by decide +kernel
  have reads : s'.stage? .listener = some .fetch := by decide +kernel
  have reading : Endpoint.reading? s'.endpoint = some ⟨[1, 2, 3], 5⟩ := by decide +kernel
  have fetches : Step s' (.move (.run .listener)) t' := step_after (by decide +kernel)
  -- what the states are has no part in the rest
  clear_value s tr s' t'
  obtain ⟨c, hc, doing⟩ := Option.map_eq_some_iff.mp calls
  obtain ⟨d, hd, got⟩ := client s tr 0 c _ _ _ hc doing follows unasked takes calm
  obtain ⟨-, v, hands, handed, -⟩ := listener s' t' [] reads reading fetches trivial (List.forall_mem_nil _)
  rw [hd] at idle
  rcases got with gets | ⟨has, -⟩
  · obtain ⟨x, -, once, all⟩ := gets.handed rfl
    have reply := gets.reply
    rw [report] at reply once
    exact ⟨⟨d, hd, reply⟩, ⟨_, all.trans once⟩, v, _, hands, handed⟩
  · have busy := has.activity
    rw [Client.isIdle_iff.mp idle] at busy
    cases busy

end

end System

end HidGate
