import HidGate.Session
import HidGate.Proofs.ExactRead
import HidGate.Proofs.Settling

/-!
# A listener outlives every fault

Each item that the listener takes leaves a record of its own in the journal: a report that has been handed over, or a
line about a fault. The account balances after each step, so nothing of one item is left for the next. As long as the
handler does not crash, there is one item that ends the listener: a report that claims to be longer than any can be.
-/

namespace HidGate

open Bench (Item Moved)

/-! ## The record of an item -/

def Entry.who : Entry → Party
  | .notice who _ | .handed who .. => who

def Bench.Item.isOverlong : Item → Bool
  | .report r => decide (maxRead < r.claimed)
  | _ => false

def Verdict.remarks : Verdict → List Entry
  | .reject why => [.notice .listener (.rejected why)]
  | _ => []

namespace Gate

section
variable {σ : Type}

def logged (g : Gate σ) : List Entry := g.journal.filter (·.who == .listener)

def delivery (g : Gate σ) (report : Bytes) : List Entry :=
  match g.handler with
  | none => [.handed .listener .nobody report]
  | some ⟨k, .hearer _⟩ => [.handed .listener (.observer k) report]
  | some ⟨k, .broadcast⟩ =>
    [.notice .listener (.publishing report.length), .handed .listener (.broadcast k) report]

/-- All that goes on record then, if the handler has heard these more by that time. -/
def handover (g : Gate σ) (more : List Bytes) (report : Bytes) : List Entry :=
  g.delivery report ++ (g.verdictAfter more report).remarks

def record (g : Gate σ) (more : List Bytes) : Item → List Entry
  | .report r =>
    if r.claimed = 0 then [.notice .listener (.listenerFailed (.io (.code Errno.inputOutput)))]
    else if maxRead < r.claimed then []
    else .notice .listener (.received r.report) :: g.handover more r.report ++
      [.notice .listener (.listenerDrained r.claimed)]
  | .readFault n => [.notice .listener (.listenerFailed (.io (.code n)))]
  | .pollFault n => if n = Errno.interrupted then [] else [.notice .listener (.listenerFailed (.io (.tabled n)))]

def records (g : Gate σ) (more : List Bytes) : List Item → List Entry
  | [] => []
  | x :: xs => g.record more x ++ g.records (more ++ x.report?.toList) xs

/-- What the thread has still to put on record for the item it took. -/
def owed (g : Gate σ) : Worker → List Entry
  | .working (.read (.hand report)) => g.handover [] report ++ [.notice .listener (.listenerDrained report.length)]
  | .working (.leave (.ok n)) => [.notice .listener (.listenerDrained n)]
  | .working (.leave (.error f)) => if f.isTransient then [] else [.notice .listener (.listenerFailed f)]
  | _ => []

variable {g k : Gate σ}

@[simp] theorem logged_note (n : Notice) (g : Gate σ) :
    (g.note .listener n).logged = g.logged ++ [.notice .listener n] := by
  simp [logged, Entry.who]

@[simp] theorem logged_note_client (m : Nat) (n : Notice) (g : Gate σ) : (g.note (.client m) n).logged = g.logged := by
  simp [logged, Entry.who]

theorem logged_hand (report : Bytes) (g : Gate σ) :
    (g.hand .listener report).2.logged = g.logged ++ g.delivery report := by
  unfold hand delivery logged
  rcases g.handler with _ | ⟨k, judge | _⟩ <;> simp [enter, note, Entry.who]

section
variable {more more' : List Bytes} (handler : k.handler = g.handler) (heard : k.heard ++ more = g.heard ++ more')
include handler heard

theorem handover_congr : k.handover more = g.handover more' := by
  funext report
  unfold handover delivery
  rw [verdictAfter_congr handler heard, handler]

theorem record_congr : k.record more = g.record more' := by
  funext x
  cases x <;> simp only [record, handover_congr handler heard]

theorem records_congr (xs : List Item) : k.records more xs = g.records more' xs := by
  induction xs generalizing more more' with
  | nil => rfl
  | cons x xs ih =>
    have longer : k.heard ++ (more ++ x.report?.toList) = g.heard ++ (more' ++ x.report?.toList) := by
      rw [← List.append_assoc, heard, List.append_assoc]
    rw [records, records, record_congr handler heard, ih longer]

end

theorem records_append (g : Gate σ) (more : List Bytes) (xs ys : List Item) :
    g.records more (xs ++ ys) = g.records more xs ++ g.records (more ++ xs.filterMap Item.report?) ys := by
  induction xs generalizing more with
  | nil => simp [records]
  | cons x xs ih =>
    have reports : (x :: xs).filterMap Item.report? = x.report?.toList ++ xs.filterMap Item.report? := by
      cases hx : x.report? <;> simp [hx]
    rw [List.cons_append, records, records, ih, reports, List.append_assoc, List.append_assoc]

theorem owed_congr (handler : k.handler = g.handler) (heard : k.heard = g.heard) : k.owed = g.owed := by
  funext w
  unfold owed
  rw [handover_congr handler (congrArg (· ++ []) heard)]

theorem owed_ofPoll (n : Int) (g : Gate σ) (more : List Bytes) :
    g.owed (.working (.leave (.error (.ofPoll n)))) = g.record more (.pollFault n) := by
  by_cases interrupted : n = Errno.interrupted
  · simp [owed, record, Fault.ofPoll, interrupted, Fault.isTransient]
  · simp [owed, record, Fault.ofPoll, interrupted, Fault.isTransient]

theorem handover_handings (g : Gate σ) (more : List Bytes) (report : Bytes) :
    (g.handover more report).filterMap Entry.handing? = [⟨.listener, g.recipient, report⟩] := by
  have silent (v : Verdict) : v.remarks.filterMap Entry.handing? = [] := by cases v <;> rfl
  unfold handover delivery recipient
  rw [List.filterMap_append, silent, List.append_nil]
  rcases g.handler with _ | ⟨k, judge | _⟩ <;> rfl

/-- A report that can be read is handed over once, and nothing else is. -/
theorem record_handings (g : Gate σ) (more : List Bytes) (x : Item) :
    (g.record more x).filterMap Entry.handing? = (x.report?.map (⟨.listener, g.recipient, ·⟩)).toList := by
  cases x with
  | readFault => rfl
  | pollFault n =>
    by_cases interrupted : n = Errno.interrupted
    · simp [record, interrupted, Item.report?]
    · simp [record, interrupted, Item.report?, Entry.handing?]
  | report r =>
    by_cases empty : r.claimed = 0
    · simp [record, Item.report?, empty, Entry.handing?]
    · by_cases overlong : maxRead < r.claimed
      · simp [record, Item.report?, empty, overlong, Nat.not_le_of_lt overlong]
      · have aside (n : Notice) (es : List Entry) :
            (Entry.notice .listener n :: es).filterMap Entry.handing? = es.filterMap Entry.handing? := rfl
        simp [record, Item.report?, empty, overlong, Nat.pos_of_ne_zero empty, Nat.le_of_not_lt overlong, aside,
          handover_handings]

end

end Gate

/-! ## The account -/

def Worker.inHand : Worker → List Bytes
  | .working (.read (.hand report)) => [report]
  | _ => []

/-- What becomes of the thread while it takes these items. -/
inductive Fate : Worker → List Item → Worker → Prop
  | lives {d d' : Duty} {T : List Item} (spared : ∀ x ∈ T, x.isOverlong = false) : Fate (.working d) T (.working d')
  | dies {d : Duty} {T : List Item} {x : Item} (spared : ∀ y ∈ T, y.isOverlong = false)
      (last : x.isOverlong = true) : Fate (.working d) (T ++ [x]) .crashed
  | dead : Fate .crashed [] .crashed

theorem Fate.trans {w w' w'' : Worker} {T T' : List Item} (h : Fate w T w') (h' : Fate w' T' w'') :
    Fate w (T ++ T') w'' := by
  cases h with
  | lives spared =>
    cases h' with
    | lives spared' => exact .lives (List.forall_mem_append.mpr ⟨spared, spared'⟩)
    | dies spared' last =>
      rw [← List.append_assoc]
      exact .dies (List.forall_mem_append.mpr ⟨spared, spared'⟩) last
  | dies spared last => cases h'; rw [List.append_nil]; exact .dies spared last
  | dead => cases h'; exact .dead

theorem Fate.settled {w w' : Worker} {T : List Item} (h : Fate w T w') : Fate w' [] w' := by
  cases h with
  | lives => exact .lives (by simp)
  | dies => exact .dead
  | dead => exact .dead

/-- The thread took the items `T` while the items `A` arrived, and put on record what there is to say of each. -/
structure Logged (T A : List Item) (w : Worker) (g : Gate Bench) (w' : Worker) (k : Gate Bench) : Prop where
  moved : Moved T A g.endpoint k.endpoint
  handler : k.handler = g.handler
  heard : ∃ more, k.heard = g.heard ++ more ∧ more ++ w'.inHand = w.inHand ++ T.filterMap Item.report?
  entries : k.logged ++ k.owed w' = g.logged ++ g.owed w ++ g.records w.inHand T
  fate : Fate w T w'

theorem Logged.trans {T A T' A' : List Item} {w w' w'' : Worker} {g k k' : Gate Bench} (h : Logged T A w g w' k)
    (h' : Logged T' A' w' k w'' k') : Logged (T ++ T') (A ++ A') w g w'' k' := by
  obtain ⟨more, heard, carried⟩ := h.heard
  obtain ⟨more', heard', carried'⟩ := h'.heard
  refine ⟨h.moved.trans h'.moved, h'.handler.trans h.handler, ⟨more ++ more', ?_, ?_⟩, ?_, h.fate.trans h'.fate⟩
  · rw [heard', heard, List.append_assoc]
  · rw [List.append_assoc, carried', ← List.append_assoc, carried, List.append_assoc, List.filterMap_append]
  · have told : k.records w'.inHand T' = g.records (w.inHand ++ T.filterMap Item.report?) T' :=
      Gate.records_congr h.handler (by rw [heard, List.append_assoc, carried]) T'
    rw [h'.entries, h.entries, told, Gate.records_append, List.append_assoc]

theorem Logged.of_spared {A : List Item} {w : Worker} {g k : Gate Bench} (handler : k.handler = g.handler)
    (heard : k.heard = g.heard) (logged : k.logged = g.logged) (moved : Moved [] A g.endpoint k.endpoint)
    (fate : Fate w [] w) : Logged [] A w g w k := by
  refine ⟨moved, handler, ⟨[], by simp [heard], by simp⟩, ?_, fate⟩
  rw [logged, Gate.owed_congr handler heard]
  simp [Gate.records]

/-! ## Steps of the thread -/

section
variable {d : Duty} {w : Worker} {g k : Gate Bench}

theorem Logged.of_still {d' : Duty} (endpoint : k.endpoint = g.endpoint) (handler : k.handler = g.handler)
    (heard : ∃ more, k.heard = g.heard ++ more ∧ more ++ (Worker.working d').inHand = (Worker.working d).inHand)
    (entries : k.logged ++ k.owed (.working d') = g.logged ++ g.owed (.working d)) :
    Logged [] [] (.working d) g (.working d') k := by
  obtain ⟨more, heard, carried⟩ := heard
  refine ⟨by rw [endpoint]; exact .refl _, handler, ⟨more, heard, by simpa using carried⟩, ?_, .lives (by simp)⟩
  rw [entries]
  simp [Gate.records]

theorem Logged.of_silent {d' : Duty} (endpoint : k.endpoint = g.endpoint) (handler : k.handler = g.handler)
    (heard : k.heard = g.heard) (carried : (Worker.working d').inHand = (Worker.working d).inHand)
    (entries : k.logged ++ k.owed (.working d') = g.logged ++ g.owed (.working d)) :
    Logged [] [] (.working d) g (.working d') k :=
  .of_still endpoint handler ⟨[], by rw [heard, List.append_nil], carried⟩ entries

theorem Logged.of_fault {x : Item} {rest : List Item} {st : ReadStage} {f : Fault}
    (queue : g.endpoint.queue = x :: rest) (fresh : st.report? = none) (none_there : x.report? = none)
    (spared : x.isOverlong = false) (record : g.owed (.working (.leave (.error f))) = g.record [] x) :
    Logged [x] [] (.working (.read st)) g (.working (.leave (.error f)))
      { g with endpoint := g.endpoint.advance x rest } := by
  have empty : (Worker.working (.read st)).inHand = [] := by
    cases st <;> first | rfl | cases fresh
  refine ⟨.advance queue, rfl, ⟨[], (List.append_nil _).symm, ?_⟩, ?_, .lives (by simpa using spared)⟩
  · rw [empty]
    simp [Worker.inHand, none_there]
  · have owed : Gate.owed { g with endpoint := g.endpoint.advance x rest } = g.owed := Gate.owed_congr rfl rfl
    have none_owed : g.owed (.working (.read st)) = [] := by
      cases st <;> first | rfl | cases fresh
    rw [owed, record, none_owed, empty]
    simp [Gate.logged, Gate.records]

theorem ReadStep.logs {st : ReadStage} {next : ReadNext} (h : ReadStep .listener true g st next k)
    (calm : ∀ more report, g.verdictAfter more report ≠ .crash) :
    ∃ T, Logged T [] (.working (.read st)) g (Duty.ofRead (next, k)).1 (Duty.ofRead (next, k)).2 := by
  cases h with
  | @pollFault n _ fault =>
    obtain ⟨rest, queue, rfl⟩ := Bench.pollFault?_eq_some.mp fault
    exact ⟨_, .of_fault queue rfl rfl rfl (g.owed_ofPoll n [])⟩
  | wake | ready | drain => exact ⟨[], .of_silent rfl rfl rfl rfl rfl⟩
  | fault fetch =>
    obtain ⟨x, rest, queue, hx, rfl⟩ := Bench.fetch?_eq_some.mp fetch
    cases x <;> cases hx
    exact ⟨_, .of_fault queue rfl rfl rfl rfl⟩
  | @empty r _ fetch claim =>
    obtain ⟨x, rest, queue, hx, rfl⟩ := Bench.fetch?_eq_some.mp fetch
    cases x <;> cases hx
    have spared : (Item.report r).isOverlong = false := by simp [Item.isOverlong, claim]
    have record : g.owed (.working (.leave (.error (.io (.code Errno.inputOutput))))) = g.record [] (.report r) := by
      simp [Gate.owed, Gate.record, claim, Fault.isTransient]
    exact ⟨_, .of_fault queue rfl (by simp [Item.report?, claim]) spared record⟩
  | @overlong r _ fetch claim =>
    obtain ⟨x, rest, queue, hx, rfl⟩ := Bench.fetch?_eq_some.mp fetch
    cases x <;> cases hx
    have dies : Fate (.working (.read .fetch)) ([] ++ [.report r]) .crashed :=
      .dies (by simp) (by simpa [Item.isOverlong] using claim)
    refine ⟨_, .advance queue, rfl, ⟨[], (List.append_nil _).symm, ?_⟩, ?_, dies⟩
    · simp [Duty.ofRead, Worker.inHand, Item.report?, Nat.not_le_of_lt claim]
    · have positive : r.claimed ≠ 0 := by omega
      simp [Duty.ofRead, Gate.owed, Gate.records, Gate.record, Gate.logged, positive, claim]
  | @report r _ fetch positive fits =>
    obtain ⟨x, rest, queue, hx, rfl⟩ := Bench.fetch?_eq_some.mp fetch
    cases x <;> cases hx
    refine ⟨[.report r], .advance queue, rfl, ⟨[], (List.append_nil _).symm, ?_⟩, ?_, .lives ?_⟩
    · simp [Duty.ofRead, Worker.inHand, Item.report?, positive, fits]
    · have positive : r.claimed ≠ 0 := by omega
      generalize held : Gate.note .listener (.received r.report)
        { g with endpoint := g.endpoint.advance (.report r) rest } = k
      have owed : k.owed = g.owed := by rw [← held]; exact Gate.owed_congr rfl rfl
      have logged : k.logged = g.logged ++ [.notice .listener (.received r.report)] := by
        rw [← held]
        exact Gate.logged_note ..
      simp only [Duty.ofRead, if_true, owed, logged]
      simp [Gate.owed, Gate.records, Gate.record, Worker.inHand, positive, Nat.not_lt_of_le fits,
        Reading.length_report fits]
    · simpa [Item.isOverlong] using fits
  | @accepted report verdict =>
    refine ⟨[], .of_still (Gate.hand_endpoint ..) (Gate.hand_handler ..) ⟨_, Gate.hand_heard .., rfl⟩ ?_⟩
    have accepts : g.verdictAfter [] report = _ := (g.hand_verdict .listener report).symm.trans verdict
    simp [Duty.ofRead, Gate.logged_hand, Gate.owed, Gate.handover, accepts, Verdict.remarks, Except.map]
  | @rejected report why verdict =>
    refine ⟨[], .of_still (Gate.hand_endpoint ..) (Gate.hand_handler ..) ⟨_, Gate.hand_heard .., rfl⟩ ?_⟩
    have rejects : g.verdictAfter [] report = _ := (g.hand_verdict .listener report).symm.trans verdict
    simp [Duty.ofRead, Gate.logged_hand, Gate.owed, Gate.handover, rejects, Verdict.remarks, Except.map]
  | @crashed report verdict => exact absurd ((g.hand_verdict .listener report).symm.trans verdict) (calm [] report)

theorem DutyStep.logs (h : DutyStep true g d w k) (calm : ∀ more report, g.verdictAfter more report ≠ .crash) :
    ∃ T, Logged T [] (.working d) g w k := by
  cases h with
  | reads step => exact step.logs calm
  | exits off => cases off
  | goesOn | acquires | resumes | grabs | passes => exact ⟨[], .of_silent rfl rfl rfl rfl rfl⟩
  | drained =>
    refine ⟨[], .of_silent rfl rfl rfl rfl ?_⟩
    simp [Gate.owed, Gate.logged, Entry.who]
  | bears transient =>
    refine ⟨[], .of_silent rfl rfl rfl rfl ?_⟩
    simp [Gate.owed, Gate.logged, transient]
  | fails hard =>
    refine ⟨[], .of_silent rfl rfl rfl rfl ?_⟩
    simp [Gate.owed, Gate.logged, hard, Entry.who]

end

/-! ## Clients that leave the input alone -/

/-- The call neither takes reports nor hands any over, and leaves the listener and its handler as they are. -/
def Call.isAloof : Call → Bool
  | .lockEvents | .unlock | .request .. | .write _ => true
  | _ => false

def Activity.isAloof : Activity → Bool
  | .enter c => c.isAloof
  | .read .. | .halt .. | .release => false
  | _ => true

def Event.isAloof {σ : Type} [Surroundings σ] : Event σ → Bool
  | .move (.ask _ c) => c.isAloof
  | _ => true

structure Handle.Spares (h k : Handle Bench) : Prop where
  listener : k.listener = h.listener
  handler : k.gate.handler = h.gate.handler
  heard : k.gate.heard = h.gate.heard
  logged : k.gate.logged = h.gate.logged
  moved : Moved [] [] h.gate.endpoint k.gate.endpoint

theorem Gate.writeReport_spares (n : Nat) (report : Bytes) (g : Gate Bench) :
    (g.writeReport (.client n) report).2.handler = g.handler ∧
      (g.writeReport (.client n) report).2.heard = g.heard ∧
      (g.writeReport (.client n) report).2.logged = g.logged := by
  unfold writeReport
  split
  · exact ⟨rfl, rfl, rfl⟩
  · dsimp only
    split
    · exact ⟨rfl, rfl, logged_note_client ..⟩
    · exact ⟨rfl, rfl, rfl⟩

theorem Request.perform_spares (n : Nat) (r : Request) (g : Gate Bench) :
    (r.perform (.client n) g).2.handler = g.handler ∧ (r.perform (.client n) g).2.heard = g.heard ∧
      (r.perform (.client n) g).2.logged = g.logged := by
  unfold perform
  split
  · unfold get
    split
    · exact ⟨rfl, rfl, rfl⟩
    · exact ⟨rfl, rfl, Gate.logged_note_client ..⟩
  · unfold set
    dsimp only
    split <;> exact ⟨rfl, rfl, Gate.logged_note_client n _ g⟩

theorem Handle.step?_aloof {n : Nat} {c d : Client} {h k : Handle Bench} (hs : h.step? n c = some (d, k))
    (aloof : c.activity.isAloof = true) : d.activity.isAloof = true ∧ h.Spares k := by
  have same : h.Spares h := ⟨rfl, rfl, rfl, rfl, .refl _⟩
  cases clientStep hs with
  | answered | steals | granted | requests => exact ⟨rfl, same⟩
  | unlocks | leaves =>
    refine ⟨rfl, ?_⟩
    split
    · exact ⟨rfl, rfl, rfl, rfl, .refl _⟩
    · exact same
  | @writes report =>
    obtain ⟨handler, heard, logged⟩ := h.gate.writeReport_spares n report
    exact ⟨rfl, rfl, handler, heard, logged, (Gate.writeReport_aside ..).endpoint.moved⟩
  | @exchanges r =>
    obtain ⟨handler, heard, logged⟩ := r.perform_spares n h.gate
    exact ⟨rfl, rfl, handler, heard, logged, (Request.perform_aside ..).endpoint.moved⟩
  | stealing => exact ⟨rfl, rfl, rfl, rfl, rfl, .refl _⟩
  | @stolen errand => cases errand <;> exact ⟨rfl, rfl, rfl, rfl, rfl, .refl _⟩
  | reads doing | propagates doing | registers doing | starts doing | closes doing | reading doing | halting doing
  | halted doing | releases doing => rw [doing] at aloof; cases aloof
  | @stops call closing doing exclusive =>
    rw [doing] at aloof
    cases call <;> first | exact absurd exclusive Bool.false_ne_true | exact absurd aloof Bool.false_ne_true

theorem Gate.queue_of_isIdle {g : Gate Bench} (idle : g.isIdle = true) : g.endpoint.queue = [] := by
  simp only [isIdle, Bool.and_eq_true, Bool.not_eq_true', Option.isNone_iff_eq_none] at idle
  obtain ⟨⟨fault, -⟩, nothing⟩ := idle
  have unready {x : Item} {answer : Except SystemError Reading} {rest : List Item}
      (queue : g.endpoint.queue = x :: rest) (hx : x.answer? = some answer) : False := by
    have ready := Bench.ready_iff.mpr ⟨x, rest, answer, queue, hx⟩
    cases nothing.symm.trans ready
  cases queue : g.endpoint.queue with
  | nil => rfl
  | cons x rest =>
    exfalso
    cases x with
    | report | readFault => exact unready queue rfl
    | pollFault n =>
      have faulty : Endpoint.pollFault? g.endpoint = some _ := Bench.pollFault?_eq_some.mpr ⟨rest, queue, rfl⟩
      cases fault.symm.trans faulty

namespace System

section
variable {s t : System Bench} {w : Worker} {e : Event Bench}

/-! ## Along a trace -/

/-- The listener runs and is not told to finish, its handler does not crash, and no client interferes. -/
structure Enduring (s : System Bench) (w : Worker) : Prop where
  on_duty : s.handle.listener = .running true w
  calm : ∀ more report, s.handle.gate.verdictAfter more report ≠ .crash
  aloof : ∀ c ∈ s.clients, c.activity.isAloof = true

theorem Enduring.of_logged {w' : Worker} {T A : List Item} (h : Enduring s w)
    (on_duty : t.handle.listener = .running true w') (logged : Logged T A w s.handle.gate w' t.handle.gate)
    (aloof : ∀ c ∈ t.clients, c.activity.isAloof = true) :
    ∃ w' T, Enduring t w' ∧ Logged T A w s.handle.gate w' t.handle.gate := by
  obtain ⟨longer, heard, -⟩ := logged.heard
  refine ⟨w', T, ⟨on_duty, fun more report => ?_, aloof⟩, logged⟩
  rw [Gate.verdictAfter_congr logged.handler (by rw [heard, List.append_assoc])]
  exact h.calm (longer ++ more) report

theorem aloof_of_set {n : Nat} {d : Client} (aloof : ∀ c ∈ s.clients, c.activity.isAloof = true)
    (hd : d.activity.isAloof = true) : ∀ c ∈ s.clients.set n d, c.activity.isAloof = true := by
  intro c hc
  rcases List.mem_or_eq_of_mem_set hc with hc | rfl
  · exact aloof c hc
  · exact hd

theorem Enduring.step (h : Enduring s w) (fate : Fate w [] w) (st : Step s e t) (he : e.isAloof = true) :
    ∃ w' T, Enduring t w' ∧ Logged T e.items w s.handle.gate w' t.handle.gate := by
  cases st.cause with
  | ask => exact h.of_logged h.on_duty (.of_spared rfl rfl rfl (.refl _) fate) (aloof_of_set h.aloof he)
  | listener on_duty goes =>
    cases h.on_duty.symm.trans on_duty
    obtain ⟨T, logged⟩ := (Duty.dutyStep goes).logs h.calm
    exact h.of_logged rfl logged h.aloof
  | listenerLate on_duty late =>
    cases h.on_duty.symm.trans on_duty
    obtain ⟨rfl, rfl, rfl⟩ := Duty.expire?_eq_some late
    exact h.of_logged rfl (.of_silent rfl rfl rfl rfl rfl) h.aloof
  | @client n c d k hc goes =>
    obtain ⟨aloof, spares⟩ := Handle.step?_aloof goes (h.aloof c (List.mem_of_getElem? hc))
    have logged := Logged.of_spared spares.handler spares.heard spares.logged spares.moved fate
    exact h.of_logged (spares.listener.trans h.on_duty) logged (aloof_of_set h.aloof aloof)
  | @clientLate n c d k hc late =>
    obtain ⟨_, _, polls, -, -⟩ := Handle.expire?_eq_some late
    have aloof := h.aloof c (List.mem_of_getElem? hc)
    rw [polls] at aloof
    cases aloof
  | incident i => exact h.of_logged h.on_duty (.of_spared rfl rfl rfl (.befall i _) fate) h.aloof

theorem Enduring.follows {tr : Trace Bench} (h : Enduring s w) (fate : Fate w [] w) (hf : Follows s tr)
    (aloof : ∀ x ∈ tr, x.1.isAloof = true) :
    ∃ w' T, Enduring (final s tr) w' ∧ Logged T (produced tr) w s.handle.gate w' (final s tr).handle.gate := by
  induction tr generalizing s w with
  | nil => exact ⟨w, [], h, .of_spared rfl rfl rfl (.refl _) fate⟩
  | cons x tr ih =>
    obtain ⟨e, t⟩ := x
    obtain ⟨w₁, T, next, first⟩ := h.step fate hf.1 (aloof (e, t) List.mem_cons_self)
    obtain ⟨w₂, T', last, rest⟩ := ih next (first.fate.settled) hf.2 fun x hx => aloof x (List.mem_cons_of_mem _ hx)
    exact ⟨w₂, T ++ T', last, first.trans rest⟩

/-! ## At rest -/

theorem Works.follows (h : Works s t) : ∃ tr : Trace Bench, Follows s tr ∧ final s tr = t ∧ produced tr = [] ∧
    ∀ x ∈ tr, x.1.isAloof = true := by
  induction h with
  | refl s => exact ⟨[], trivial, rfl, rfl, by simp⟩
  | @step s t u runs _ ih =>
    obtain ⟨tr, hf, last, produced, aloof⟩ := ih
    refine ⟨(.move (.run .listener), t) :: tr, ⟨Step.of_run runs, hf⟩, last, ?_, ?_⟩
    · simpa [System.produced, Event.items] using produced
    · exact List.forall_mem_cons.mpr ⟨rfl, aloof⟩

/-- A thread that lives and cannot go on has taken everything there is. -/
theorem Reachable.queue_of_still {d : Duty} (hs : Reachable s) (quiet : s.isQuiet = true)
    (on_duty : s.handle.listener = .running true (.working d)) (still : s.run? .listener = none) :
    d = .read .poll ∧ s.endpoint.queue = [] := by
  have work : s.isUnfinished (fun _ => []) .listener = true := isUnfinished_of_running on_duty
  have free : s.isBlocked .listener = false := by
    rw [isBlocked_of_running on_duty]
    -- a thread that would wait has no lock, and nobody else has one
    cases d with
    | acquire | gate =>
      have lock := hs.lock_of_isQuiet quiet (by rw [on_duty]; exact ⟨rfl, rfl⟩)
      rw [lock]
      rfl
    | _ => rfl
  obtain ⟨e, t, turn, st⟩ := hs.listener_steps work free
  cases st.cause with
  | listener => cases still.symm.trans st.2
  | listenerLate on_duty' late =>
    cases on_duty.symm.trans on_duty'
    obtain ⟨rfl, -, -⟩ := Duty.expire?_eq_some late
    refine ⟨rfl, ?_⟩
    simp only [Duty.expire?, Option.map_eq_some_iff] at late
    obtain ⟨next, waited, -⟩ := late
    exact Gate.queue_of_isIdle (isIdle_of_expire? waited)
  | ask => cases turn.1
  | client | clientLate => cases turn
  | incident => exact turn.elim

/-! ## The whole -/

/-- A listener whose handler does not crash takes the items in order, whatever they are and whatever comes in between,
and puts on record for each what there is to say of it: a report that can be read is handed over, whole and once, and a
fault gets a line at most. It ends with a report that claims to be longer than any can be, and with nothing else; what
is behind this report stays where it is. Left to itself a listener that has not ended takes all there is. Where it
comes to rest is decided by the items and not by the times at which they came. -/
theorem listener_endures {d : Duty} (hs : Reachable s) (on_duty : s.handle.listener = .running true (.working d))
    (calm : ∀ more report, s.handle.gate.verdictAfter more report ≠ .crash) :
    (∀ tr : Trace Bench, (∀ c ∈ s.clients, c.activity.isAloof = true) → Follows s tr → (∀ x ∈ tr, x.1.isAloof = true) →
      ∃ w T, (final s tr).handle.listener = .running true w ∧
        Logged T (produced tr) (.working d) s.handle.gate w (final s tr).handle.gate) ∧
    (∀ xs, s.isQuiet = true →
      let u := Session.alter (Bench.arrive xs) s
      u.advance? = none ∧ ∃ w T, u.handle.listener = .running true w ∧
        Logged T xs (.working d) s.handle.gate w u.handle.gate ∧ u.handle.gate.owed w = [] ∧
        (w ≠ .crashed → u.endpoint.queue = [])) ∧
    (∀ xs ys, (∀ c ∈ s.clients, c.isIdle = true) →
      Session.alter (Bench.arrive (xs ++ ys)) s =
        Session.alter (Bench.arrive ys) (Session.alter (Bench.arrive xs) s)) ∧
    ∀ more x, (s.handle.gate.record more x).filterMap Entry.handing? =
      (x.report?.map (⟨.listener, s.handle.gate.recipient, ·⟩)).toList := by
  have along {tr : Trace Bench} (aloof : ∀ c ∈ s.clients, c.activity.isAloof = true) (hf : Follows s tr)
      (calls : ∀ x ∈ tr, x.1.isAloof = true) : ∃ w T, (final s tr).handle.listener = .running true w ∧
        Logged T (produced tr) (.working d) s.handle.gate w (final s tr).handle.gate := by
    obtain ⟨w, T, enduring, logged⟩ := Enduring.follows ⟨on_duty, calm, aloof⟩ (.lives (by simp)) hf calls
    exact ⟨w, T, enduring.on_duty, logged⟩
  refine ⟨fun tr => along, fun xs quiet => ?_, fun xs ys idle => settle_receive_append ⟨hs, idle⟩ xs ys,
    s.handle.gate.record_handings⟩
  intro u
  have idle := isIdle_of_isQuiet quiet
  have unhurried : Unhurried s := ⟨hs, idle⟩
  obtain ⟨works, still⟩ := settle_works (unhurried.receive xs)
  have rests := works.unhurried (unhurried.receive xs)
  have aloof (c : Client) (hc : c ∈ s.clients) : c.activity.isAloof = true := by
    rw [Client.isIdle_iff.mp (idle c hc)]
    rfl
  obtain ⟨tr, hf, last, silent, calls⟩ := works.follows
  have arrives : Step s (.incident (Bench.Incident.arrive xs)) (s.receive xs) := ⟨rfl, rfl⟩
  have follows : Follows s ((.incident (Bench.Incident.arrive xs), s.receive xs) :: tr) := ⟨arrives, hf⟩
  obtain ⟨w, T, on_duty', logged⟩ := along aloof follows (List.forall_mem_cons.mpr ⟨rfl, calls⟩)
  have items : produced ((.incident (Bench.Incident.arrive xs), s.receive xs) :: tr) = xs := by
    change xs ++ produced tr = xs
    rw [silent, List.append_nil]
  rw [items] at logged
  change (final (s.receive xs) tr).handle.listener = _ at on_duty'
  change Logged T xs _ _ w (final (s.receive xs) tr).handle.gate at logged
  rw [last] at on_duty' logged
  refine ⟨(advance?_of_idle rests.idle).trans still, w, T, on_duty', logged, ?_⟩
  cases w with
  | crashed => exact ⟨rfl, fun alive => absurd rfl alive⟩
  | finished => cases logged.fate
  | working d' =>
    have quiet' : u.isQuiet = true := by
      have clients : u.clients = s.clients := works.clients
      unfold isQuiet
      rw [clients]
      exact quiet
    obtain ⟨rfl, queue⟩ := rests.reachable.queue_of_still quiet' on_duty' still
    exact ⟨rfl, fun _ => queue⟩

/-- Polls fail, a read fails, a report is empty, the handler refuses the next, and the one after it claims too much.
The last stays in the queue. -/
theorem listener_endures_faults :
    let s := after (start (.fresh Bench.fresh .standard) 1)
      [.move (.ask 0 (.register (some (.observer fun _ => .reject .timeout)))), .move (.run (.client 0)),
        .move (.ask 0 .start), .move (.run (.client 0)), .move (.run .listener), .move (.run .listener)]
    let faults : List Item := [.pollFault 4, .pollFault 5, .readFault 19, .report ⟨[7], 0⟩]
    let reports : List Item := [.report (.whole [1, 2]), .report ⟨[9], 5000⟩, .report (.whole [3])]
    let u := Session.alter (Bench.arrive (faults ++ reports)) s
    u = Session.alter (Bench.arrive reports) (Session.alter (Bench.arrive faults) s) ∧
      (∃ T, Logged T (faults ++ reports) (.working (.read .poll)) s.handle.gate .crashed u.handle.gate) ∧
      u.handings = [⟨.listener, .observer 0, [1, 2]⟩] ∧ u.endpoint.queue = [.report (.whole [3])] := by
  intro s faults reports u
  have calm (more : List Bytes) (report : Bytes) : s.handle.gate.verdictAfter more report ≠ .crash := by
    have judged : s.handle.gate.verdictAfter more report = .reject .timeout := rfl
    rw [judged]
    simp
  have on_duty : s.handle.listener = .running true (.working (.read .poll)) := rfl
  have quiet : s.isQuiet = true := by decide +kernel
  have reachable : Reachable s := (Reachable.start Bench.fresh .standard 1).after _
  obtain ⟨-, settles, bursts, -⟩ := listener_endures reachable on_duty calm
  obtain ⟨-, w, T, after, logged, -, taken⟩ := settles (faults ++ reports) quiet
  have left : u.endpoint.queue = [.report (.whole [3])] := by decide +kernel
  have dead : w = .crashed := by
    apply Classical.byContradiction
    intro alive
    cases left.symm.trans (taken alive)
  rw [dead] at logged
  exact ⟨bursts faults reports (isIdle_of_isQuiet quiet), ⟨T, logged⟩, by decide +kernel, left⟩

end

end System

end HidGate
