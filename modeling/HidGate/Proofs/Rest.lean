import HidGate.Proofs.Granting

/-!
# At rest nothing is left behind

Between calls, when no client holds a permit, the locks are free but for the listener on its way through its cycle,
and the pipe is empty. This holds however the calls before ended and whatever became of the listener's thread, for
it is where the clients are that says what they hold. So whoever calls next is granted what it asks for, and its
reads are not disturbed.
-/

namespace HidGate

def Event.leaves {σ : Type} [Endpoint σ] [Surroundings σ] [Separate σ] (c : Call) : Event σ → Bool
  | .move (.ask ..) => false
  | .move _ => true
  | .incident i => !(c.isExchange && Separate.isSetting i)

namespace System

section
variable {σ : Type} [Endpoint σ] [Surroundings σ] {s t : System σ} {e : Event σ} {n : Nat}

/-! ## In every state -/

theorem Reachable.owned (h : Reachable s) : ∃ ns, Owned s ns := by
  induction h with
  | start => exact ⟨[], .nobody rfl⟩
  | step hs st ih =>
    obtain ⟨ns, owned⟩ := ih
    exact ⟨_, owned.step hs.sound st⟩

theorem Reachable.woken (h : Reachable s) : Woken s := by
  induction h with
  | start endpoint config k =>
    intro m hm
    obtain ⟨c, _, _, hc, reading⟩ := stage?_client_iff.mp hm
    rw [List.eq_of_mem_replicate (List.mem_of_getElem? hc)] at reading
    cases reading
  | step hs st ih =>
    obtain ⟨ns, owned⟩ := hs.owned
    exact ih.step hs.sound owned st

theorem Reachable.stopping (h : Reachable s) {w : Worker} (told : s.handle.listener = .running false w) :
    ∃ n, Stopping n s := by
  induction h generalizing w with
  | start => cases told
  | @step s t e hs st ih =>
    have of_before {w : Worker} (before : s.handle.listener = .running false w) : ∃ n, Stopping n t := by
      obtain ⟨n, stops⟩ := ih before
      rcases stops.step hs.sound st with goes_on | ⟨-, returned⟩
      · exact ⟨n, goes_on⟩
      · rw [returned.stopped] at told; cases told
    cases st.cause with
    | ask => exact of_before told
    | listener on_duty => cases told; exact of_before on_duty
    | listenerLate on_duty => cases told; exact of_before on_duty
    | incident => exact of_before told
    | clientLate hc late =>
      obtain ⟨_, _, -, -, rfl⟩ := Handle.expire?_eq_some late
      exact of_before told
    | @client n c d k hc goes =>
      cases Handle.step?_steering goes with
      | keep same => exact of_before (same.symm.trans told)
      | start _ _ started => cases started.symm.trans told
      | clear closing _ _ doing =>
        have clear : s.halt? n = some .clear := halt?_iff.mpr ⟨c, closing, hc, doing⟩
        exact ⟨n, (hs.sound.stopping_of_clear clear st).1⟩
      | join _ _ _ _ _ _ stopped => cases stopped.symm.trans told

/-! ## At rest -/

omit [Endpoint σ] [Surroundings σ] in
theorem isAside_of_isQuiet (quiet : s.isQuiet = true) {c : Client} (hc : s.clients[n]? = some c) :
    c.isAside = true := List.all_eq_true.mp quiet c (List.mem_of_getElem? hc)

theorem Reachable.pipe_of_idle (hs : Reachable s) (idle : ∀ c ∈ s.clients, c.isIdle = true) :
    s.lock.pipe = .empty := by
  obtain ⟨ns, owned⟩ := hs.owned
  have nobody : ns = [] := by
    apply List.eq_nil_iff_forall_not_mem.mpr
    intro n hn
    obtain ⟨c, hc, called⟩ := (Option.any_eq_true ..).mp (owned.called n hn)
    rw [Client.isIdle_iff.mp (idle c (List.mem_of_getElem? hc))] at called
    cases called
  apply Pipe.ext
  rw [owned.bytes, nobody]
  rfl

omit [Endpoint σ] [Surroundings σ] in
theorem isIdle_of_isQuiet (quiet : s.isQuiet = true) : ∀ c ∈ s.clients, c.isIdle = true := by
  intro c hc
  have aside := List.all_eq_true.mp quiet c hc
  rw [Bool.and_eq_true] at aside
  exact aside.1

theorem Reachable.pipe_of_isQuiet (hs : Reachable s) (quiet : s.isQuiet = true) : s.lock.pipe = .empty :=
  hs.pipe_of_idle (isIdle_of_isQuiet quiet)

theorem Reachable.listener_of_isQuiet (hs : Reachable s) (quiet : s.isQuiet = true)
    (busy : 0 < s.handle.listener.holds + s.handle.listener.grabs) :
    ∃ d, s.handle.listener = .running true (.working d) := by
  cases hl : s.handle.listener with
  | stopped => rw [hl] at busy; cases busy
  | running wanted w =>
    cases w with
    | finished | crashed => rw [hl] at busy; cases busy
    | working d =>
      cases wanted with
      | true => exact ⟨d, rfl⟩
      | false =>
        obtain ⟨n, stops⟩ := hs.stopping hl
        obtain ⟨st, halts⟩ := stops.halts
        obtain ⟨c, closing, hc, doing⟩ := halt?_iff.mp halts
        rw [(Client.isAside_iff.mp (isAside_of_isQuiet quiet hc)).1] at doing
        cases doing

theorem Reachable.reader_of_isQuiet (hs : Reachable s) (quiet : s.isQuiet = true) :
    s.lock.reader = none ∨ s.lock.reader = some .listener ∧
      ∃ d, s.handle.listener = .running true (.working d) ∧ 0 < (Worker.working d).holds := by
  cases hr : s.lock.reader with
  | none => exact .inl rfl
  | some p =>
    have count := hs.sound.reader p
    rw [if_pos hr] at count
    cases p with
    | client n => rw [(counts_of_isAside fun d => isAside_of_isQuiet quiet).1] at count; cases count
    | listener =>
      have holds : s.handle.listener.holds = 1 := count
      obtain ⟨d, on_duty⟩ := hs.listener_of_isQuiet quiet (by omega)
      rw [on_duty] at holds
      exact .inr ⟨rfl, d, on_duty, by rw [show (Worker.working d).holds = 1 from holds]; exact Nat.one_pos⟩

/-- The listener has the right to announce only for a moment, and nothing keeps it from giving it back. -/
theorem Reachable.grabber_of_isQuiet (hs : Reachable s) (quiet : s.isQuiet = true) :
    s.lock.grabber = none ∨ s.handle.listener = .running true (.working .pass) ∧
      ∃ t, Step s (.move (.run .listener)) t ∧ t.lock.grabber = none := by
  cases hg : s.lock.grabber with
  | none => exact .inl rfl
  | some p =>
    have count := hs.sound.grabber p
    rw [if_pos hg] at count
    cases p with
    | client n => rw [(counts_of_isAside fun d => isAside_of_isQuiet quiet).2] at count; cases count
    | listener =>
      have grabs : s.handle.listener.grabs = 1 := count
      obtain ⟨d, on_duty⟩ := hs.listener_of_isQuiet quiet (by omega)
      rw [on_duty] at grabs
      cases d with
      | pass => exact .inr ⟨on_duty, _, step_of_duty on_duty .passes, rfl⟩
      | _ => cases grabs

theorem Reachable.lock_of_isQuiet (hs : Reachable s) (quiet : s.isQuiet = true)
    (listener : s.handle.listener.holds = 0 ∧ s.handle.listener.grabs = 0) : s.lock = .free := by
  have pipe := hs.pipe_of_isQuiet quiet
  have reader : s.lock.reader = none := by
    rcases hs.reader_of_isQuiet quiet with free | ⟨-, d, on_duty, holds⟩
    · exact free
    · rw [on_duty] at listener
      rw [show (Worker.working d).holds = 0 from listener.1] at holds
      cases holds
  have grabber : s.lock.grabber = none := by
    rcases hs.grabber_of_isQuiet quiet with free | ⟨on_duty, -⟩
    · exact free
    · rw [on_duty] at listener
      cases listener.2
  generalize s.lock = l at pipe reader grabber ⊢
  cases l
  simp_all [SoftLock.free]

/-! ## One caller among those at rest -/

theorem idle_of_step (idle : ∀ (m : Nat) (d : Client), s.clients[m]? = some d → m ≠ n → d.activity = .idle)
    (h : Step s e t) (asks : ∀ m call, e = .move (.ask m call) → m = n) :
    ∀ (m : Nat) (d : Client), t.clients[m]? = some d → m ≠ n → d.activity = .idle := by
  have of_turn {k : Nat} {c : Client} (u : Turn σ) (hc : s.clients[k]? = some c) (his : k = n) :
      ∀ (m : Nat) (d : Client), (s.turn k u).clients[m]? = some d → m ≠ n → d.activity = .idle := by
    intro m d hd other
    rcases at_turn hc hd with ⟨rfl, -⟩ | ⟨-, hd⟩
    · exact absurd his other
    · exact idle m d hd other
  have only_n {m : Nat} {d : Client} (hd : s.clients[m]? = some d) (busy : d.activity ≠ .idle) : m = n := by
    by_cases hm : m = n
    · exact hm
    · exact absurd (idle m d hd hm) busy
  cases h.cause with
  | @ask m call client hc =>
    exact of_turn ({ client with activity := .enter call, reply := none }, s.handle) hc (asks m call rfl)
  | listener | listenerLate | incident => exact idle
  | client hc goes => exact of_turn _ hc (only_n hc fun at_rest => by simp [Handle.step?, at_rest] at goes)
  | clientLate hc late =>
    obtain ⟨_, _, doing, -, -⟩ := Handle.expire?_eq_some late
    exact of_turn _ hc (only_n hc (by rw [doing]; simp))

theorem idle_along {tr : Trace σ}
    (idle : ∀ (m : Nat) (d : Client), s.clients[m]? = some d → m ≠ n → d.activity = .idle) (h : Follows s tr)
    (asks : ∀ x ∈ tr, ∀ m call, x.1 = .move (.ask m call) → m = n) :
    ∀ (m : Nat) (d : Client), (final s tr).clients[m]? = some d → m ≠ n → d.activity = .idle := by
  induction tr generalizing s with
  | nil => exact idle
  | cons x tr ih =>
    obtain ⟨e, t⟩ := x
    exact ih (idle_of_step idle h.1 (asks (e, t) List.mem_cons_self)) h.2
      fun x hx => asks x (List.mem_cons_of_mem _ hx)

/-- The reads of a lone caller are interrupted by their own polls only. -/
theorem Reachable.interrupted_by_poll {tr : Trace σ} (hs : Reachable s)
    (idle : ∀ (m : Nat) (d : Client), s.clients[m]? = some d → m ≠ n → d.activity = .idle) (h : Follows s tr)
    (asks : ∀ x ∈ tr, ∀ m call, x.1 = .move (.ask m call) → m = n) {st : ReadStage}
    (last : Step (final s tr) e t) (reading : (final s tr).stage? (.client n) = some st)
    (interrupted : t.fault? (.client n) = some .interrupted) :
    ∃ endpoint, Endpoint.pollFault? (final s tr).endpoint = some (Errno.interrupted, endpoint) := by
  have reachable := hs.follows h
  rcases reachable.woken.of_interrupted reachable.sound last reading interrupted with failed | ⟨m, other, awaiting⟩
  · exact failed
  · exfalso
    -- then that client was in a call before
    have at_rest := idle_along idle h asks
    have before : (final s tr).isAwaiting m = false := by
      cases waits : (final s tr).isAwaiting m with
      | false => rfl
      | true =>
        obtain ⟨d, errand, hd, doing⟩ := isAwaiting_iff.mp waits
        rw [at_rest m d hd other] at doing
        cases doing
    obtain ⟨-, bids⟩ := last.announces before awaiting
    obtain ⟨d, errand, hd, doing⟩ := isBidding_iff.mp bids
    rw [at_rest m d hd other] at doing
    rcases doing with doing | doing <;> cases doing

end

/-! ## The next call -/

section
variable {σ : Type} [Endpoint σ] [Surroundings σ] [Separate σ] {s : System σ} {n : Nat}

/-- Client `n` can make the call. It may then end with this reply and these permits and in no other way: whatever the
listener does and whatever arrives meanwhile, it can still end so, and the others are left as they were. -/
def Granted (n : Nat) (s : System σ) (call : Call) (x : Reply × List Permit) : Prop :=
  ∃ t, Step s (.move (.ask n call)) t ∧
    ∀ tr, Follows t tr → (∀ y ∈ tr, y.1.leaves call = true) → ∃ u d, Comes (final t tr) u ∧ Concluded n s u d x

theorem Reachable.granted {c : Client} {call : Call} {x : Reply × List Permit} (hs : Reachable s)
    (quiet : s.isQuiet = true) (unclosed : s.handle.released = 0) (hc : s.clients[n]? = some c)
    (shared : call.isExclusive = false) (honored : s.honors (.move (.ask n call)) = true)
    (outlook : Client.outlook? ⟨.enter call, [], none⟩ s.isListening s.endpoint = some x) : Granted n s call x := by
  obtain ⟨idle, none_held⟩ := Client.isAside_iff.mp (isAside_of_isQuiet quiet hc)
  have nobody_excludes : s.clients.any (·.activity.isExclusive) = false := by
    apply List.any_eq_false.mpr
    intro d hd
    rw [(Client.isAside_iff.mp (List.all_eq_true.mp quiet d hd)).1]
    simp [Activity.isExclusive]
  have admitted : s.admits call = true := by simp [admits, unclosed, nobody_excludes, shared]
  have asks : Step s (.move (.ask n call))
      (s.turn n ({ c with activity := .enter call, reply := none }, s.handle)) := by
    refine ⟨honored, ?_⟩
    simp [happen?, next, ask?, hc, Client.isIdle_iff.mpr idle, admitted, turn]
  have solo : Solo n s c := ⟨hc, fun m d hd _ => isAside_of_isQuiet quiet hd⟩
  have awaits : Awaits n (s.turn n ({ c with activity := .enter call, reply := none }, s.handle))
      { c with activity := .enter call, reply := none } x := by
    refine ⟨solo.turn (_, s.handle), ?_, fun _ => none_held⟩
    rw [← outlook, none_held]
    rfl
  refine ⟨_, asks, fun tr h leaves => ?_⟩
  obtain ⟨d, awaits', clients, listening, released⟩ := awaits.follows h
    (fun y hy m call' asked => by
      have := leaves y hy
      rw [asked] at this
      cases this)
    fun y hy setting => by
      obtain ⟨e, t⟩ := y
      have settled := leaves (e, t) hy
      cases e with
      | move => cases setting
      | incident i =>
        have setting : Separate.isSetting i = true := setting
        simp only [Event.leaves, setting, Bool.and_true, Bool.not_eq_true'] at settled
        exact settled
  obtain ⟨u, d', comes, done⟩ := awaits'.concludes ((hs.step asks).follows h)
  refine ⟨u, d', comes, ?_, done.idle, done.reply, done.permits, done.listening.trans listening,
    done.released.trans released⟩
  rw [done.clients, clients, turn, List.set_set, List.set_set]

/-- Let all clients be between calls and hold no permit, whatever was called before, however it ended, and whatever
became of the listener. Then the pipe is empty, the read path is free or had by a listener that lives, and so is the
right to announce, which such a listener gives back at once. The next call for a permit or for features gets what it
asks for, and while one client calls its reads are interrupted by their own polls only. -/
theorem nothing_left_behind (hs : Reachable s) (quiet : s.isQuiet = true) :
    s.lock.pipe = .empty ∧
      (s.lock.reader = none ∨ s.lock.reader = some .listener ∧
        ∃ d, s.handle.listener = .running true (.working d) ∧ 0 < (Worker.working d).holds) ∧
      (s.lock.grabber = none ∨ s.handle.listener = .running true (.working .pass) ∧
        ∃ t, Step s (.move (.run .listener)) t ∧ t.lock.grabber = none) ∧
      (s.handle.released = 0 → ∀ n < s.clients.length,
        Granted n s .lockEvents (⟨.done, []⟩, [⟨Handle.number, s.isListening⟩]) ∧
          ∀ kind r, Granted n s (.request kind r) (((Call.request kind r).serve s.endpoint).1, [])) ∧
      ∀ (n : Nat) (tr : Trace σ), Follows s tr → (∀ x ∈ tr, ∀ m call, x.1 = .move (.ask m call) → m = n) →
        ∀ (st : ReadStage) (e : Event σ) (t : System σ), Step (final s tr) e t →
          (final s tr).stage? (.client n) = some st → t.fault? (.client n) = some .interrupted →
          ∃ endpoint, Endpoint.pollFault? (final s tr).endpoint = some (Errno.interrupted, endpoint) := by
  refine ⟨hs.pipe_of_isQuiet quiet, hs.reader_of_isQuiet quiet, hs.grabber_of_isQuiet quiet, ?_, ?_⟩
  · intro unclosed n hn
    have hc := List.getElem?_eq_getElem hn
    exact ⟨hs.granted quiet unclosed hc rfl rfl rfl, fun kind r => hs.granted quiet unclosed hc rfl rfl rfl⟩
  · intro n tr h asks st e t last reading interrupted
    have idle (m : Nat) (d : Client) (hd : s.clients[m]? = some d) (_ : m ≠ n) : d.activity = .idle :=
      (Client.isAside_iff.mp (isAside_of_isQuiet quiet hd)).1
    exact hs.interrupted_by_poll idle h asks last reading interrupted

/-- The listener has died of a report that was too long, a second start has crashed, and a request has failed. The
locks are free, and the next permit is granted. -/
theorem nothing_left_behind_by_dead_listener :
    let s := after (start (.fresh Bench.fresh .standard) 2) [.move (.ask 0 .start), .move (.run (.client 0)),
      .incident (Bench.Incident.arrive [.report ⟨[1], 5000⟩, .pollFault 4]), .move (.run .listener),
      .move (.run .listener), .move (.run .listener), .move (.run .listener), .move (.ask 1 .start),
      .move (.run (.client 1)), .move (.ask 0 (.request .feature ⟨.get, 7, [0, 0]⟩)), .move (.run (.client 0)),
      .move (.run (.client 0)), .move (.run (.client 0)), .move (.run (.client 0)), .move (.run (.client 0)),
      .move (.run (.client 0)), .move (.run (.client 0)), .move (.run (.client 0))]
    s.handle.listener = .running true .crashed ∧
      s.clients.map (·.reply) = [some ⟨.fault (.io (.code Errno.brokenPipe)), [0, 0]⟩,
        some ⟨.crash (some Handle.startedTwice), []⟩] ∧
      s.lock = .free ∧ Granted 0 s .lockEvents (⟨.done, []⟩, [⟨Handle.number, true⟩]) := by
  intro s
  have dead : s.handle.listener = .running true .crashed := rfl
  have reachable : Reachable s := (Reachable.start _ _ _).after _
  have quiet : s.isQuiet = true := by decide +kernel
  obtain ⟨-, -, -, granted, -⟩ := nothing_left_behind reachable quiet
  refine ⟨dead, by decide +kernel, reachable.lock_of_isQuiet quiet ?_, (granted rfl 0 (by decide +kernel)).1⟩
  rw [dead]
  exact ⟨rfl, rfl⟩

/-- What rest does not give. The listener passes through the right to announce, which so is not free although nobody
calls and nobody has a permit. And the first read under the next permit is interrupted though its poll does not fail,
since another client asks for features meanwhile. -/
theorem gate_taken_at_rest :
    let s := after (start (.fresh Bench.fresh .standard) 2) [.move (.ask 0 .start), .move (.run (.client 0)),
      .move (.run .listener), .move (.run .listener)]
    let t := after s [.move (.expire .listener), .move (.run .listener), .move (.run .listener)]
    let v := after s [.move (.ask 0 .lockEvents), .move (.run (.client 0)), .move (.run (.client 0)),
      .move (.run (.client 0)), .move (.run .listener), .move (.run .listener), .move (.run .listener),
      .move (.run (.client 0)), .move (.run (.client 0)), .move (.run (.client 0)),
      .move (.ask 1 (.request .feature ⟨.get, 1, [0, 0]⟩)), .move (.run (.client 1)), .move (.run (.client 1)),
      .move (.run (.client 1)), .move (.ask 0 (.read ⟨0, true⟩ [0, 0] true)), .move (.run (.client 0))]
    let u := after v [.move (.run (.client 0)), .move (.run (.client 0))]
    (Reachable t ∧ t.isQuiet = true ∧ t.isListening = true ∧ t.lock.grabber = some .listener) ∧
      Reachable s ∧ s.isQuiet = true ∧ s.lock.grabber = none ∧ v.clients.map (·.permits) = [[⟨0, true⟩], []] ∧
      v.stage? (.client 0) = some .poll ∧ Endpoint.pollFault? v.endpoint = none ∧
      u.clients.map (·.reply) = [some ⟨.fault .interrupted, [0, 0]⟩, none] := by
  intro s t v u
  have reachable : Reachable s := (Reachable.start Bench.fresh .standard 2).after _
  exact ⟨⟨reachable.after _, by decide +kernel, by decide +kernel, by decide +kernel⟩, reachable, by decide +kernel,
    by decide +kernel, by decide +kernel, by decide +kernel, rfl, by decide +kernel⟩

end

end System

end HidGate
