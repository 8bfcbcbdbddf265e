import HidGate.Proofs.Delivery
import HidGate.Proofs.Granting

/-!
# A cycle of the listener

Undisturbed, the listener spends one cycle on each item of the queue. A report is handed over and anything else goes
on record; then the listener is back at its check with both locks given back, unless the item was its end. So it
takes the items in order, up to one that ends it.
-/

namespace HidGate

open Bench (Item)

/-! ## What becomes of an item -/

/-- What the registered handler makes of a report once it has heard these more. -/
def Gate.verdictAfter {σ : Type} (g : Gate σ) (more : List Bytes) (report : Bytes) : Verdict :=
  match g.handler with
  | some ⟨_, .hearer judge⟩ => judge (g.heard ++ more) report
  | _ => .accept

def Gate.verdict {σ : Type} (g : Gate σ) : Bytes → Verdict := g.verdictAfter []

/-- The item is the end of a listener that takes it: it claims too much, or its report crashes the handler. -/
def Bench.Item.kills (judge : Bytes → Verdict) : Item → Bool
  | .report r => decide (maxRead < r.claimed) || (decide (0 < r.claimed) && judge r.report == .crash)
  | _ => false

/-- The verdicts of a handler that has heard what there is to hear of this item. -/
def Bench.Item.behind (x : Item) (judge : List Bytes → Bytes → Verdict) : List Bytes → Bytes → Verdict :=
  fun more => judge (x.report?.toList ++ more)

def Bench.consumed (judge : List Bytes → Bytes → Verdict) : List Item → List Item
  | [] => []
  | x :: xs => if x.kills (judge []) then [x] else x :: consumed (x.behind judge) xs

def Bench.spared (judge : List Bytes → Bytes → Verdict) : List Item → List Item
  | [] => []
  | x :: xs => if x.kills (judge []) then xs else spared (x.behind judge) xs

def Bench.isFatal (judge : List Bytes → Bytes → Verdict) : List Item → Bool
  | [] => false
  | x :: xs => x.kills (judge []) || isFatal (x.behind judge) xs

example : Bench.consumed (fun heard _ => if heard.length < 1 then .accept else .crash)
    [.report (.whole [1]), .pollFault 4, .report (.whole [2]), .report (.whole [3])] =
      [.report (.whole [1]), .pollFault 4, .report (.whole [2])] := by decide

namespace Gate

variable {σ : Type}

def handings (g : Gate σ) : List Handing := g.journal.filterMap Entry.handing?

@[simp] theorem handings_note (who : Party) (n : Notice) (g : Gate σ) : (g.note who n).handings = g.handings := by
  simp [handings, Entry.handing?]

@[simp] theorem handings_hand (who : Party) (report : Bytes) (g : Gate σ) :
    (g.hand who report).2.handings = g.handings ++ [⟨who, g.recipient, report⟩] := by
  obtain ⟨J, hJ, -, handed⟩ := g.hand_journal who report
  rw [handings, hJ, List.filterMap_append, handed]
  rfl

theorem hand_verdict (who : Party) (report : Bytes) (g : Gate σ) : (g.hand who report).1 = g.verdict report := by
  unfold hand verdict verdictAfter
  split <;> simp_all

theorem verdictAfter_congr {g k : Gate σ} {heard heard' : List Bytes} (handler : k.handler = g.handler)
    (same : k.heard ++ heard = g.heard ++ heard') : k.verdictAfter heard = g.verdictAfter heard' := by
  funext report
  unfold verdictAfter
  rw [handler, same]

end Gate

/-! ## Steps of the thread -/

inductive Goes {σ : Type} [Endpoint σ] (wanted : Bool) : Worker → Gate σ → Worker → Gate σ → Prop
  | stay {w : Worker} {g : Gate σ} : Goes wanted w g w g
  | step {d : Duty} {w w' : Worker} {g k k' : Gate σ} (duty : DutyStep wanted g d w k) (rest : Goes wanted w k w' k') :
      Goes wanted (.working d) g w' k'

section
variable {σ : Type} [Endpoint σ] {wanted : Bool} {w w' w'' : Worker} {g k k' : Gate σ}

theorem Goes.trans (h : Goes wanted w g w' k) (h' : Goes wanted w' k w'' k') : Goes wanted w g w'' k' := by
  induction h with
  | stay => exact h'
  | step duty _ ih => exact .step duty (ih h')

theorem Goes.comes [Surroundings σ] {s : System σ} (h : Goes wanted w g w' k)
    (on_duty : s.handle.listener = .running wanted w) (gate : s.handle.gate = g) :
    ∃ t, System.Comes s t ∧ t.clients = s.clients ∧ t.handle.listener = .running wanted w' ∧ t.handle.gate = k ∧
      t.handle.released = s.handle.released := by
  induction h generalizing s with
  | stay => exact ⟨s, .refl s, rfl, on_duty, gate, rfl⟩
  | @step d w w' g k k' duty _ ih =>
    subst gate
    obtain ⟨t, comes, clients, listener, gate, released⟩ := ih (s := s.work wanted (w, k)) rfl rfl
    exact ⟨t, (System.Comes.step (System.step_of_duty on_duty duty) rfl).trans comes, clients, listener, gate, released⟩

theorem Goes.of_gate (free : g.lock.grabber = none) : Goes wanted (.working .gate) g (.working .check) g := by
  have passed : { g with lock := SoftLock.ungrab { g.lock with grabber := some .listener } } = g := by
    obtain ⟨_, ⟨_, _, _⟩, _, _, _, _, _⟩ := g
    cases free
    rfl
  have passes : Goes wanted (.working .pass) { g with lock := { g.lock with grabber := some .listener } }
      (.working .check) { g with lock := SoftLock.ungrab { g.lock with grabber := some .listener } } :=
    .step .passes .stay
  rw [passed] at passes
  exact .step (.grabs free) passes

theorem Goes.of_leave (result : Except Fault Nat) (lock : g.lock = ⟨some .listener, none, .empty⟩) :
    ∃ k, Goes wanted (.working (.leave result)) g (.working .check) k ∧ k.lock = .free ∧ k.endpoint = g.endpoint ∧
      k.handler = g.handler ∧ k.heard = g.heard ∧ k.handings = g.handings := by
  have released : g.lock.release = .free := by
    rw [lock]
    rfl
  have unannounced : g.lock.release.grabber = none := by
    rw [released]
    rfl
  cases result with
  | ok n =>
    refine ⟨_, .step .drained (.of_gate unannounced), released, rfl, rfl, rfl, ?_⟩
    simp [Gate.handings, Entry.handing?]
  | error f =>
    cases transient : f.isTransient with
    | true => exact ⟨_, .step (.bears transient) (.of_gate unannounced), released, rfl, rfl, rfl, rfl⟩
    | false =>
      refine ⟨_, .step (.fails transient) (.step .resumes (.of_gate unannounced)), released, rfl, rfl, rfl, ?_⟩
      simp [Gate.handings, Entry.handing?]

end

/-! ## One item -/

/-- From `g` to `k` the item was taken, and its report handed over if it has one. Both locks are free. -/
structure Gate.Takes (x : Item) (g k : Gate Bench) : Prop where
  lock : k.lock = .free
  endpoint : ∃ rest, g.endpoint.queue = x :: rest ∧ k.endpoint = g.endpoint.advance x rest
  handler : k.handler = g.handler
  heard : k.heard = g.heard ++ x.report?.toList
  handings : k.handings = g.handings ++ (x.report?.map (⟨.listener, g.recipient, ·⟩)).toList

section
variable {wanted : Bool} {g : Gate Bench} {x : Item} {rest : List Item}

theorem Goes.to_poll (free : g.lock = .free) :
    Goes true (.working .check) g (.working (.read .poll)) { g with lock := ⟨some .listener, none, .empty⟩ } := by
  have acquires : DutyStep true g .acquire (.working (.read .poll))
      { g with lock := ⟨some .listener, none, .empty⟩ } := by
    have goes : DutyStep true g .acquire _ _ := .acquires (by rw [free]; rfl)
    rwa [free] at goes
  exact .step (.goesOn rfl) (.step acquires .stay)

theorem Goes.of_pollFault {n : Int} (free : g.lock = .free) (queue : g.endpoint.queue = .pollFault n :: rest) :
    ∃ k, Goes true (.working .check) g (.working .check) k ∧ g.Takes (.pollFault n) k := by
  have fault : Endpoint.pollFault? g.endpoint = some (n, g.endpoint.advance (.pollFault n) rest) :=
    Bench.pollFault?_eq_some.mpr ⟨rest, queue, rfl⟩
  have fails : DutyStep true { g with lock := ⟨some .listener, none, .empty⟩ } (.read .poll) _ _ :=
    .reads (.pollFault fault)
  obtain ⟨k, leaves, lock, endpoint, handler, heard, handings⟩ := Goes.of_leave (.error (.ofPoll n))
    (g := { g with lock := ⟨some .listener, none, .empty⟩, endpoint := g.endpoint.advance (.pollFault n) rest }) rfl
  refine ⟨k, (Goes.to_poll free).trans (.step fails leaves), lock, ⟨rest, queue, endpoint⟩, handler, ?_, ?_⟩
  · rw [heard]
    exact (List.append_nil _).symm
  · rw [handings]
    exact (List.append_nil _).symm

theorem Goes.to_fetch (answer : Except SystemError Reading) (free : g.lock = .free)
    (queue : g.endpoint.queue = x :: rest) (hx : x.answer? = some answer) :
    Goes true (.working .check) g (.working (.read .fetch)) { g with lock := ⟨some .listener, none, .empty⟩ } ∧
      Endpoint.fetch? g.endpoint = some (answer, g.endpoint.advance x rest) := by
  have fetch : Endpoint.fetch? g.endpoint = some (answer, g.endpoint.advance x rest) :=
    Bench.fetch?_eq_some.mpr ⟨x, rest, queue, hx, rfl⟩
  have sound : Endpoint.pollFault? g.endpoint = none := by
    cases hp : Endpoint.pollFault? g.endpoint with
    | none => rfl
    | some p =>
      obtain ⟨_, faulty, -⟩ := Bench.pollFault?_eq_some.mp hp
      rw [queue] at faulty
      cases faulty
      cases hx
  have ready : Endpoint.ready g.endpoint = true := by
    unfold Endpoint.ready
    rw [fetch]
    rfl
  have polls : DutyStep true { g with lock := ⟨some .listener, none, .empty⟩ } (.read .poll) _ _ :=
    .reads (.ready sound rfl ready)
  exact ⟨(Goes.to_poll free).trans (.step polls .stay), fetch⟩

theorem Goes.of_fault {answer : Except SystemError Reading} {f : Fault} (free : g.lock = .free)
    (queue : g.endpoint.queue = x :: rest) (hx : x.answer? = some answer) (none_there : x.report? = none)
    (step : ∀ k : Gate Bench, Endpoint.fetch? k.endpoint = some (answer, g.endpoint.advance x rest) →
      ReadStep .listener true k .fetch (.ended (.error f)) { k with endpoint := g.endpoint.advance x rest }) :
    ∃ k, Goes true (.working .check) g (.working .check) k ∧ g.Takes x k := by
  obtain ⟨comes, fetch⟩ := Goes.to_fetch answer free queue hx
  have fails : DutyStep true { g with lock := ⟨some .listener, none, .empty⟩ } (.read .fetch) _ _ :=
    .reads (step { g with lock := ⟨some .listener, none, .empty⟩ } fetch)
  obtain ⟨k, leaves, lock, endpoint, handler, heard, handings⟩ := Goes.of_leave (.error f)
    (g := { g with lock := ⟨some .listener, none, .empty⟩, endpoint := g.endpoint.advance x rest }) rfl
  refine ⟨k, comes.trans (.step fails leaves), lock, ⟨rest, queue, endpoint⟩, handler, ?_, ?_⟩
  · rw [heard, none_there]
    exact (List.append_nil _).symm
  · rw [handings, none_there]
    exact (List.append_nil _).symm

theorem Goes.of_report {r : Reading} (free : g.lock = .free) (queue : g.endpoint.queue = .report r :: rest)
    (claims : 0 < r.claimed) (fits : r.claimed ≤ maxRead) :
    ∃ w k, Goes true (.working .check) g w k ∧ g.Takes (.report r) k ∧
      w = if g.verdict r.report = .crash then .crashed else .working .check := by
  obtain ⟨comes, fetch⟩ := Goes.to_fetch (.ok r) free queue rfl
  have takes : DutyStep true { g with lock := ⟨some .listener, none, .empty⟩ } (.read .fetch) _ _ :=
    .reads (.report fetch claims fits)
  have report : (Item.report r).report? = some r.report := by simp [Item.report?, claims, fits]
  -- the gate with the report in hand
  generalize held : Gate.note .listener (.received r.report)
    { g with lock := ⟨some .listener, none, .empty⟩, endpoint := g.endpoint.advance (.report r) rest } = g' at takes
  have lock' : g'.lock = ⟨some .listener, none, .empty⟩ := by rw [← held]; rfl
  have endpoint' : g'.endpoint = g.endpoint.advance (.report r) rest := by rw [← held]; rfl
  have handler' : g'.handler = g.handler := by rw [← held]; rfl
  have heard' : g'.heard = g.heard := by rw [← held]; rfl
  have recipient' : g'.recipient = g.recipient := by rw [← held]; rfl
  have handings' : g'.handings = g.handings := by
    rw [← held, Gate.handings_note]
    rfl
  have handed : (g'.hand .listener r.report).2.handings = g.handings ++ [⟨.listener, g.recipient, r.report⟩] := by
    rw [Gate.handings_hand, handings', recipient']
  have verdict' : (g'.hand .listener r.report).1 = g.verdict r.report := by
    rw [Gate.hand_verdict, Gate.verdict, Gate.verdictAfter_congr handler' (congrArg (· ++ []) heard')]
    rfl
  have heard_now : (g'.hand .listener r.report).2.heard = g.heard ++ (Item.report r).report?.toList := by
    rw [Gate.hand_heard, heard', report]
    rfl
  have of_accepted {k : Gate Bench} (step : ReadStep .listener true g' (.hand r.report) (.ended (.ok r.report)) k)
      (lock : k.lock = g'.lock) (endpoint : k.endpoint = g'.endpoint) (handler : k.handler = g'.handler)
      (heard : k.heard = g.heard ++ (Item.report r).report?.toList)
      (handings : k.handings = g.handings ++ [⟨.listener, g.recipient, r.report⟩]) :
      ∃ k, Goes true (.working .check) g (.working .check) k ∧ g.Takes (.report r) k := by
    obtain ⟨k', leaves, lock₁, endpoint₁, handler₁, heard₁, handings₁⟩ :=
      Goes.of_leave (.ok r.report.length) (lock.trans lock')
    have hands : DutyStep true g' (.read (.hand r.report)) _ _ := .reads step
    refine ⟨k', comes.trans (.step takes (.step hands leaves)), lock₁,
      ⟨rest, queue, endpoint₁.trans (endpoint.trans endpoint')⟩, handler₁.trans (handler.trans handler'),
      heard₁.trans heard, ?_⟩
    rw [handings₁, handings, report]
    rfl
  cases verdict : g.verdict r.report with
  | accept =>
    obtain ⟨k, goes, taken⟩ := of_accepted (.accepted (verdict'.trans verdict)) (Gate.hand_lock ..)
      (Gate.hand_endpoint ..) (Gate.hand_handler ..) heard_now handed
    exact ⟨_, k, goes, taken, by simp⟩
  | reject why =>
    obtain ⟨k, goes, taken⟩ := of_accepted (.rejected (verdict'.trans verdict)) (Gate.hand_lock ..)
      (Gate.hand_endpoint ..) (Gate.hand_handler ..) heard_now ((Gate.handings_note ..).trans handed)
    exact ⟨_, k, goes, taken, by simp⟩
  | crash =>
    have hands : DutyStep true g' (.read (.hand r.report)) _ _ := .reads (.crashed (verdict'.trans verdict))
    refine ⟨.crashed, _, comes.trans (.step takes (.step hands .stay)),
      ⟨?_, ⟨rest, queue, ?_⟩, ?_, heard_now, ?_⟩, by simp⟩
    · change (g'.hand .listener r.report).2.lock.release = .free
      rw [Gate.hand_lock, lock']
      rfl
    · exact (Gate.hand_endpoint ..).trans endpoint'
    · exact (Gate.hand_handler ..).trans handler'
    · rw [report]
      exact handed

/-- One cycle takes one item, and is the thread's last if the item kills it. -/
theorem Goes.cycle (free : g.lock = .free) (queue : g.endpoint.queue = x :: rest) :
    ∃ w k, Goes true (.working .check) g w k ∧ g.Takes x k ∧
      w = if x.kills g.verdict then .crashed else .working .check := by
  have of_spared (alive : x.kills g.verdict = false)
      (goes : ∃ k, Goes true (.working .check) g (.working .check) k ∧ g.Takes x k) :
      ∃ w k, Goes true (.working .check) g w k ∧ g.Takes x k ∧
        w = if x.kills g.verdict then .crashed else .working .check := by
    obtain ⟨k, goes, taken⟩ := goes
    exact ⟨_, k, goes, taken, by simp [alive]⟩
  cases x with
  | pollFault n => exact of_spared rfl (Goes.of_pollFault free queue)
  | readFault n => exact of_spared rfl (Goes.of_fault free queue rfl rfl fun k fetch => .fault fetch)
  | report r =>
    by_cases empty : r.claimed = 0
    · refine of_spared (by simp [Item.kills, empty]) (Goes.of_fault free queue rfl ?_ fun k fetch => .empty fetch empty)
      simp [Item.report?, empty]
    · have claims : 0 < r.claimed := Nat.pos_of_ne_zero empty
      by_cases overlong : maxRead < r.claimed
      · obtain ⟨comes, fetch⟩ := Goes.to_fetch (.ok r) free queue rfl
        have dies : DutyStep true { g with lock := ⟨some .listener, none, .empty⟩ } (.read .fetch) _ _ :=
          .reads (.overlong fetch overlong)
        have none_there : (Item.report r).report? = none := by simp [Item.report?, Nat.not_le_of_lt overlong]
        refine ⟨.crashed, _, comes.trans (.step dies .stay), ⟨rfl, ⟨rest, queue, rfl⟩, rfl, ?_, ?_⟩, ?_⟩
        · rw [none_there]
          exact (List.append_nil _).symm
        · rw [none_there]
          exact (List.append_nil _).symm
        · simp [Item.kills, overlong]
      · obtain ⟨w, k, goes, taken, now⟩ := Goes.of_report free queue claims (Nat.le_of_not_lt overlong)
        refine ⟨w, k, goes, taken, ?_⟩
        rw [now]
        simp [Item.kills, overlong, claims]

/-! ## All items -/

/-- By itself the thread takes the items of the queue in order and hands their reports over, up to the first item
that kills it. -/
theorem Goes.drain (free : g.lock = .free) :
    ∃ w k, Goes true (.working .check) g w k ∧ k.lock = .free ∧ k.handler = g.handler ∧
      Bench.Moved (Bench.consumed g.verdictAfter g.endpoint.queue) [] g.endpoint k.endpoint ∧
      k.endpoint.queue = Bench.spared g.verdictAfter g.endpoint.queue ∧
      k.handings = g.handings ++ ((Bench.consumed g.verdictAfter g.endpoint.queue).filterMap Item.report?).map
        (⟨.listener, g.recipient, ·⟩) ∧
      w = if Bench.isFatal g.verdictAfter g.endpoint.queue then .crashed else .working .check := by
  generalize queue : g.endpoint.queue = xs
  induction xs generalizing g with
  | nil =>
    refine ⟨_, g, .stay, free, rfl, ⟨?_, ?_⟩, queue, ?_, rfl⟩
    · exact (List.append_nil _).symm
    · simp [Bench.consumed]
    · exact (List.append_nil _).symm
  | cons x xs ih =>
    obtain ⟨w, k, goes, ⟨lock, ⟨rest, front, endpoint⟩, handler, heard, handings⟩, now⟩ := Goes.cycle free queue
    cases queue.symm.trans front
    have moved : Bench.Moved [x] [] g.endpoint k.endpoint := by
      rw [endpoint]
      exact .advance front
    have rest : k.endpoint.queue = xs := by
      rw [endpoint]
      rfl
    rw [Gate.verdict] at now
    unfold Bench.consumed Bench.spared Bench.isFatal
    by_cases kills : x.kills (g.verdictAfter []) = true
    · rw [if_pos kills] at now
      subst now
      refine ⟨.crashed, k, goes, lock, handler, ?_, ?_, ?_, ?_⟩
      · simpa [kills] using moved
      · simpa [kills] using rest
      · rw [handings]
        cases hr : x.report? <;> simp [kills, hr]
      · simp [kills]
    · rw [if_neg kills] at now
      subst now
      have verdicts : k.verdictAfter = x.behind g.verdictAfter := by
        funext more
        exact Gate.verdictAfter_congr handler (by rw [heard, List.append_assoc])
      have recipient : k.recipient = g.recipient := by
        unfold Gate.recipient
        rw [handler]
      obtain ⟨w', k', goes', lock', handler', moved', queue', handings', now'⟩ := ih lock rest
      rw [verdicts] at moved' queue' handings' now'
      refine ⟨w', k', goes.trans goes', lock', handler'.trans handler, ?_, ?_, ?_, ?_⟩
      · simpa [kills] using moved.trans moved'
      · simpa [kills] using queue'
      · rw [handings', handings, recipient]
        cases hr : x.report? <;> simp [kills, hr]
      · rw [now']
        simp [kills]

end

end HidGate
