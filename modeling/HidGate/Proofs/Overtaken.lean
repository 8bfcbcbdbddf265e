import HidGate.Proofs.Halting

/-!
# Overtaken reads

A poll and the read that follows are two steps. While the listener is stopped nothing keeps a second reader out in
between: it can take what the first one's poll saw, and then the first one waits in its read, where no time runs out.
-/

namespace HidGate

open Bench (Item Moved)

/-! ## What a step takes -/

namespace Bench

variable {b b' : Bench} {T T' A : List Item}

theorem Item.isRead_of_answer {x : Item} {answer : Except SystemError Reading} (h : x.answer? = some answer) :
    x.isRead = true := by
  cases x with
  | pollFault => cases h
  | _ => rfl

theorem ready_iff_isRead : Endpoint.ready b = true ↔ ∃ x rest, b.queue = x :: rest ∧ x.isRead = true := by
  rw [ready_iff]
  constructor
  · rintro ⟨x, rest, answer, hq, hx⟩
    exact ⟨x, rest, hq, Item.isRead_of_answer hx⟩
  · rintro ⟨x, rest, hq, hx⟩
    cases x with
    | report r => exact ⟨_, rest, _, hq, rfl⟩
    | readFault n => exact ⟨_, rest, _, hq, rfl⟩
    | pollFault => cases hx

theorem Moved.unique (h : Moved T A b b') (h' : Moved T' A b b') : T = T' := by
  apply List.append_cancel_left
  rw [← h.taken, ← h'.taken]

/-- What is to be read stands at the front, so nothing leaves the queue before it does. -/
theorem Moved.of_nothing_read (h : Moved T A b b') (ready : Endpoint.ready b = true)
    (unread : T.countP Item.isRead = 0) : T = [] := by
  obtain ⟨x, rest, hq, hx⟩ := ready_iff_isRead.mp ready
  cases T with
  | nil => rfl
  | cons y T =>
    have front := h.queue
    rw [hq, List.cons_append, List.cons_append] at front
    obtain ⟨rfl, -⟩ := List.cons.inj front
    rw [List.countP_cons_of_pos hx] at unread
    cases unread

theorem Moved.ready_iff (h : Moved T A b b') :
    Endpoint.ready b' = true ↔ ∃ x rest, b.queue ++ A = T ++ x :: rest ∧ x.isRead = true := by
  rw [ready_iff_isRead, ← h.queue]
  simp only [List.append_cancel_left_eq]

theorem Moved.ready_iff_lt (h : Moved T A b b') (reads : ∀ x ∈ b.queue ++ A, x.isRead = true) :
    Endpoint.ready b' = true ↔ T.countP Item.isRead < (b.queue ++ A).length := by
  rw [← h.queue] at reads ⊢
  have all : T.countP Item.isRead = T.length :=
    List.countP_eq_length.mpr fun x hx => reads x (List.mem_append_left _ hx)
  rw [all, List.length_append, ready_iff_isRead]
  cases hq : b'.queue with
  | nil => simp
  | cons x rest =>
    have hx : x.isRead = true := reads x (by rw [hq]; simp)
    simp [hx]

end Bench

theorem ReadStep.moved {who : Party} {propagate : Bool} {g g' : Gate Bench} {st : ReadStage} {next : ReadNext}
    (h : ReadStep who propagate g st next g') :
    ∃ T, Moved T [] g.endpoint g'.endpoint ∧ T.countP Item.isRead = if st = .fetch then 1 else 0 := by
  have of_fetch {answer : Except SystemError Reading} {b : Bench}
      (fetch : Endpoint.fetch? g.endpoint = some (answer, b)) :
      ∃ T, Moved T [] g.endpoint b ∧ T.countP Item.isRead = 1 := by
    obtain ⟨x, rest, hq, hx, rfl⟩ := Bench.fetch?_eq_some.mp fetch
    exact ⟨[x], .advance hq, by simp [Item.isRead_of_answer hx]⟩
  have of_hand (report : Bytes) :
      ∃ T, Moved T [] g.endpoint (g.hand who report).2.endpoint ∧ T.countP Item.isRead = 0 := by
    rw [Gate.hand_endpoint]
    exact ⟨[], .refl _, rfl⟩
  cases h with
  | pollFault fault =>
    obtain ⟨rest, hq, rfl⟩ := Bench.pollFault?_eq_some.mp fault
    exact ⟨[.pollFault _], .advance hq, rfl⟩
  | wake | ready | drain => exact ⟨[], .refl _, rfl⟩
  | fault fetch | empty fetch | overlong fetch | report fetch => exact of_fetch fetch
  | accepted | rejected | crashed => exact of_hand _

namespace System

/-! ## What a run takes -/

section
variable {s t u : System Bench} {e : Event Bench} {p : Party}

theorem Step.moved (h : Step s e t) :
    ∃ T, Moved T e.items s.endpoint t.endpoint ∧ T.countP Item.isRead = if fetches s e t then 1 else 0 := by
  cases h.motion with
  | @read p st next g at_p step endpoint =>
    obtain ⟨T, moved, reads⟩ := step.moved
    refine ⟨T, by rw [endpoint]; exact moved, ?_⟩
    rw [reads, fetches, at_p]
    simp
  | late _ endpoint => exact ⟨[], by rw [endpoint]; exact .refl _, rfl⟩
  | @propagate n c report at_n doing endpoint =>
    have outside : s.stage? (.client n) = none := by
      simp [stage?, at_n, doing, Activity.stage?]
    refine ⟨[], by rw [endpoint]; exact .refl _, ?_⟩
    rw [fetches, outside]
    rfl
  | @aside m at_p gate =>
    refine ⟨[], gate.endpoint.moved, ?_⟩
    cases m with
    | run p =>
      rw [Move.party] at at_p
      rw [fetches, at_p]
      rfl
    | _ => rfl
  | incident i endpoint => exact ⟨[], by rw [endpoint]; exact .befall i _, rfl⟩

theorem moved_along {tr : Trace Bench} (h : Follows s tr) :
    ∃ T, Moved T (produced tr) s.endpoint (final s tr).endpoint ∧ T.countP Item.isRead = count fetches s tr := by
  induction tr generalizing s with
  | nil => exact ⟨[], .refl _, rfl⟩
  | cons x tr ih =>
    obtain ⟨e, t⟩ := x
    obtain ⟨T, first, reads⟩ := h.1.moved
    obtain ⟨T', rest, reads'⟩ := ih h.2
    refine ⟨T ++ T', first.trans rest, ?_⟩
    rw [List.countP_append, reads, reads', count]

/-! ## Waiting in a read -/

theorem Step.still_fetching (h : Step s e t) (hp : s.stage? p = some .fetch)
    (nothing : Endpoint.ready s.endpoint = false) : t.stage? p = some .fetch := by
  apply Classical.byContradiction
  intro goes
  rcases h.of_leaves hp goes with ⟨next, g, -, step, -⟩ | ⟨poll, -⟩
  · have taken : ∃ answer b, Endpoint.fetch? s.endpoint = some (answer, b) := by
      cases step with
      | fault fetch | empty fetch | overlong fetch | report fetch => exact ⟨_, _, fetch⟩
    obtain ⟨answer, b, fetch⟩ := taken
    rw [Endpoint.ready, fetch] at nothing
    cases nothing
  · cases poll

theorem still_fetching_along {tr : Trace Bench} (h : Follows s tr) (hp : s.stage? p = some .fetch)
    (empty : s.endpoint.queue = []) (nothing : produced tr = []) : (final s tr).stage? p = some .fetch := by
  induction tr generalizing s with
  | nil => exact hp
  | cons x tr ih =>
    obtain ⟨e, t⟩ := x
    have unread : Endpoint.ready s.endpoint = false := by
      apply Bool.eq_false_iff.mpr
      intro ready
      obtain ⟨x, rest, hq, -⟩ := Bench.ready_iff_isRead.mp ready
      rw [empty] at hq
      cases hq
    have parts : e.items ++ produced tr = [] := nothing
    obtain ⟨now, later⟩ := List.append_eq_nil_iff.mp parts
    obtain ⟨T, moved, -⟩ := h.1.moved
    have queue := moved.queue
    rw [empty, now] at queue
    exact ih h.2 (h.1.still_fetching hp unread) (List.append_eq_nil_iff.mp queue).2 later

theorem fetch_ends (hp : s.stage? p = some .fetch) (ready : Endpoint.ready s.endpoint = true) :
    ∃ v, Step s (.move (.run p)) v ∧ v.stage? p ≠ some .fetch := by
  obtain ⟨x, rest, answer, hq, hx⟩ := Bench.front_of_ready ready
  obtain ⟨v, hv, -⟩ := take_of_front hp hq hx
  refine ⟨v, hv, ?_⟩
  obtain ⟨next, g, step, goes, -⟩ := hv.reads hp
  rw [goes]
  cases step with
  | report => cases s.propagates p <;> simp [ReadNext.stage?]
  | _ => simp [ReadNext.stage?]

/-! ## Between a poll and its read -/

/-- The poll of `p` sees in the step from `s` to `t` that there is something to be read, and along `tr` the read that
follows has not been made. -/
structure Between (p : Party) (s t : System Bench) (tr : Trace Bench) : Prop where
  reachable : Reachable s
  polls : s.stage? p = some .poll
  sees : Step s (.move (.run p)) t
  found : t.stage? p = some .fetch
  follows : Follows t tr
  still : ∀ x ∈ tr, x.2.stage? p = some .fetch

theorem Between.waits {tr : Trace Bench} (h : Between p s t tr) : (final t tr).stage? p = some .fetch :=
  final_of_forall (P := fun u => u.stage? p = some .fetch) h.found h.still

theorem Between.ready {tr : Trace Bench} (h : Between p s t tr) : Endpoint.ready t.endpoint = true := by
  obtain ⟨x, rest, answer, hq, hx, same⟩ := front_of_poll h.sees h.polls h.found
  rw [same]
  exact Bench.ready_iff.mpr ⟨x, rest, answer, hq, hx⟩

/-- Let a poll have seen something to be read, and let others take the items `T` before the read is made: by reads of
theirs, and by polls that fail. The read finds something iff an item to be read comes after these. That is so if no
read was made in between, and none is while the listener is started; if no poll is to fail, it is so iff fewer reads
were made than there were items. A read that finds something goes on. A read that does not is ended by nothing that
can happen, neither by its own step nor by time, before something arrives. -/
theorem read_kept_iff {tr : Trace Bench} (h : Between p s t tr) (hu : u = final t tr) :
    ∃ T, Moved T (produced tr) t.endpoint u.endpoint ∧ T.countP Item.isRead = count fetches t tr ∧
      (Endpoint.ready u.endpoint = true ↔
        ∃ x rest, t.endpoint.queue ++ produced tr = T ++ x :: rest ∧ x.isRead = true) ∧
      (count fetches t tr = 0 → Endpoint.ready u.endpoint = true) ∧
      (s.isListening = true → count fetches t tr = 0) ∧
      ((∀ x ∈ t.endpoint.queue ++ produced tr, x.isRead = true) →
        (Endpoint.ready u.endpoint = true ↔ count fetches t tr < (t.endpoint.queue ++ produced tr).length)) ∧
      (Endpoint.ready u.endpoint = true → ∃ v, Step u (.move (.run p)) v ∧ v.stage? p ≠ some .fetch) ∧
      (Endpoint.ready u.endpoint = false → ∀ e v, Step u e v → v.stage? p = some .fetch) ∧
      (u.endpoint.queue = [] → ∀ tr', Follows u tr' → produced tr' = [] → (final u tr').stage? p = some .fetch) := by
  subst hu
  obtain ⟨T, moved, reads⟩ := moved_along h.follows
  have alone (listening : s.isListening = true) : T = [] := by
    have sound := h.reachable.sound
    have listening' := sound.isListening_of_stage h.sees listening h.polls
    have untouched := (sound.step h.sees.cause).moved_of_fetching listening' h.found h.follows h.still
    exact moved.unique untouched
  refine ⟨T, moved, reads, moved.ready_iff, fun unread => ?_, fun listening => ?_, fun all => ?_, fetch_ends h.waits,
    fun nothing e v st => st.still_fetching h.waits nothing,
    fun empty tr' h' nothing => still_fetching_along h' h.waits empty nothing⟩
  · have untouched := moved.of_nothing_read h.ready (reads.trans unread)
    subst untouched
    exact moved.ready h.ready
  · rw [← reads, alone listening]
    rfl
  · rw [moved.ready_iff_lt all, reads]

/-- Two clients poll while the listener is stopped, and both see two reports. The first takes one of them, and the
second still finds the other. -/
theorem read_kept_of_second_report :
    let s := after (start (.fresh Bench.fresh .standard) 2) [.move (.ask 0 .lockEvents), .move (.run (.client 0)),
      .move (.ask 1 .lockEvents), .move (.run (.client 1)),
      .incident (.arrive [.report (.whole [1]), .report (.whole [2])]),
      .move (.ask 0 (.read ⟨0, false⟩ [0] true)), .move (.run (.client 0)), .move (.run (.client 0)),
      .move (.ask 1 (.read ⟨0, false⟩ [0] true)), .move (.run (.client 1))]
    let t := after s [.move (.run (.client 1))]
    let tr := play t [.move (.run (.client 0)), .move (.run (.client 0))]
    let u := final t tr
    s.isListening = false ∧ count fetches t tr = 1 ∧ Endpoint.ready u.endpoint = true ∧
      ∃ v, Step u (.move (.run (.client 1))) v ∧ v.stage? (.client 1) ≠ some .fetch := by
  intro s t tr u
  have between : Between (.client 1) s t tr :=
    ⟨(Reachable.start Bench.fresh .standard 2).after _, by decide +kernel, step_after (by decide +kernel),
      by decide +kernel, follows_play _ _, by decide +kernel⟩
  obtain ⟨T, -, -, -, -, -, kept, ends, -⟩ := read_kept_iff between (rfl : u = final t tr)
  have ready : Endpoint.ready u.endpoint = true := (kept (by decide +kernel)).mpr (by decide +kernel)
  exact ⟨by decide +kernel, by decide +kernel, ready, ends ready⟩

/-- A read can be overtaken. Two clients have the permit to read while the listener is stopped, both poll, and both see
the one report. Client 0 takes it. Client 1 reads an empty queue: it has no step, its time does not run out, and until
something arrives it stays there. -/
theorem read_lost_to_rival :
    let s := after (start (.fresh Bench.fresh .standard) 2) [.move (.ask 0 .lockEvents), .move (.run (.client 0)),
      .move (.ask 1 .lockEvents), .move (.run (.client 1)), .incident (.arrive [.report (.whole [1])]),
      .move (.ask 0 (.read ⟨0, false⟩ [0] true)), .move (.run (.client 0)), .move (.run (.client 0)),
      .move (.ask 1 (.read ⟨0, false⟩ [0] true)), .move (.run (.client 1))]
    let t := after s [.move (.run (.client 1))]
    let u := after t [.move (.run (.client 0))]
    Reachable s ∧ s.isListening = false ∧ s.clients.map (·.permits) = [[⟨0, false⟩], [⟨0, false⟩]] ∧
      s.stage? (.client 1) = some .poll ∧ Endpoint.ready s.endpoint = true ∧ Step s (.move (.run (.client 1))) t ∧
      Step t (.move (.run (.client 0))) u ∧ u.stage? (.client 1) = some .fetch ∧ u.endpoint.queue = [] ∧
      (u.run? (.client 1)).isNone = true ∧ (u.expire? (.client 1)).isNone = true ∧
      ∀ tr, Follows u tr → produced tr = [] → (final u tr).stage? (.client 1) = some .fetch := by
  intro s t u
  have waits : u.stage? (.client 1) = some .fetch := by decide +kernel
  have empty : u.endpoint.queue = [] := by decide +kernel
  exact ⟨(Reachable.start Bench.fresh .standard 2).after _, by decide +kernel, by decide +kernel, by decide +kernel,
    by decide +kernel, step_after (by decide +kernel), step_after (by decide +kernel), waits, empty,
    by decide +kernel, by decide +kernel, fun tr h nothing => still_fetching_along h waits empty nothing⟩

end

end System

end HidGate
