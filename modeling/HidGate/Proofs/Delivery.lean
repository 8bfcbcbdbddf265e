import HidGate.Proofs.Queue

/-!
# Delivery

Every report that is taken off the queue goes to the handler once, by whoever took it, before the next one is
taken. The account balances after each step: what was in hand and what was taken since has been handed over, but
for what is in hand now.
-/

namespace HidGate

open Bench (Item Moved)

/-! ## Records -/

/-- The report that a read gets out of an item: not an empty one, and none longer than a read takes. -/
def Bench.Item.report? : Item → Option Bytes
  | .report r => if 0 < r.claimed ∧ r.claimed ≤ maxRead then some r.report else none
  | _ => none

structure Handing where
  who : Party
  recipient : Recipient
  report : Bytes
  deriving DecidableEq

def Handing.load (h : Handing) : Party × Bytes := (h.who, h.report)

def Entry.received? : Entry → Option (Party × Bytes)
  | .notice who (.received report) => some (who, report)
  | _ => none

def Entry.handing? : Entry → Option Handing
  | .handed who recipient report => some ⟨who, recipient, report⟩
  | _ => none

theorem Entry.of_isAside {J : List Entry} (h : ∀ x ∈ J, x.isAside = true) :
    J.filterMap Entry.received? = [] ∧ J.filterMap Entry.handing? = [] := by
  rw [List.filterMap_eq_nil_iff, List.filterMap_eq_nil_iff]
  constructor
  · intro x hx
    have ha := h x hx
    cases x with
    | handed => cases ha
    | notice who n => cases n <;> first | rfl | cases ha
  · intro x hx
    have ha := h x hx
    cases x with
    | handed => cases ha
    | notice => rfl

namespace Gate

variable {σ : Type}

def recipient (g : Gate σ) : Recipient :=
  match g.handler with
  | none => .nobody
  | some ⟨k, .hearer _⟩ => .observer k
  | some ⟨k, .broadcast⟩ => .broadcast k

/-- Whatever the handler makes of it, a report is handed over once. -/
theorem hand_journal (who : Party) (report : Bytes) (g : Gate σ) :
    ∃ J, (g.hand who report).2.journal = g.journal ++ J ∧ J.filterMap Entry.received? = [] ∧
      J.filterMap Entry.handing? = [⟨who, g.recipient, report⟩] := by
  cases hh : g.handler with
  | none =>
    refine ⟨[.handed who .nobody report], ?_, rfl, ?_⟩
    · simp [hand, hh, enter]
    · simp only [recipient, hh]; rfl
  | some registered =>
    obtain ⟨k, handler⟩ := registered
    cases handler with
    | hearer judge =>
      refine ⟨[.handed who (.observer k) report], ?_, rfl, ?_⟩
      · simp [hand, hh, enter]
      · simp only [recipient, hh]; rfl
    | broadcast =>
      refine ⟨[.notice who (.publishing report.length), .handed who (.broadcast k) report], ?_, rfl, ?_⟩
      · simp [hand, hh, enter, note, List.append_assoc]
      · simp only [recipient, hh]; rfl

end Gate

/-! ## One step of a read -/

section
variable {who : Party} {g g' : Gate Bench} {st : ReadStage} {next : ReadNext}

theorem ReadStep.carries (h : ReadStep who true g st next g') :
    ∃ T J, Moved T [] g.endpoint g'.endpoint ∧ g'.journal = g.journal ++ J ∧
      (J.filterMap Entry.received?).map Prod.snd = T.filterMap Item.report? ∧
      (st.report?.map (who, ·)).toList ++ J.filterMap Entry.received? =
        (J.filterMap Entry.handing?).map Handing.load ++ ((next.stage?.bind ReadStage.report?).map (who, ·)).toList ∧
      J.filterMap Entry.handing? = (st.report?.map (⟨who, g.recipient, ·⟩)).toList := by
  have nothing : g.journal = g.journal ++ [] := (List.append_nil _).symm
  cases h with
  | pollFault fault =>
    obtain ⟨rest, hq, rfl⟩ := Bench.pollFault?_eq_some.mp fault
    exact ⟨_, [], .advance hq, nothing, rfl, rfl, rfl⟩
  | wake | ready | drain => exact ⟨[], [], .refl _, nothing, rfl, rfl, rfl⟩
  | fault fetch =>
    obtain ⟨x, rest, hq, hx, rfl⟩ := Bench.fetch?_eq_some.mp fetch
    refine ⟨_, [], .advance hq, nothing, ?_, rfl, rfl⟩
    cases x <;> cases hx
    rfl
  | empty fetch claim =>
    obtain ⟨x, rest, hq, hx, rfl⟩ := Bench.fetch?_eq_some.mp fetch
    refine ⟨_, [], .advance hq, nothing, ?_, rfl, rfl⟩
    cases x <;> cases hx
    simp [Item.report?, claim]
  | overlong fetch claim =>
    obtain ⟨x, rest, hq, hx, rfl⟩ := Bench.fetch?_eq_some.mp fetch
    refine ⟨_, [], .advance hq, nothing, ?_, rfl, rfl⟩
    cases x <;> cases hx
    simp [Item.report?, Nat.not_le_of_lt claim]
  | report fetch positive fits =>
    obtain ⟨x, rest, hq, hx, rfl⟩ := Bench.fetch?_eq_some.mp fetch
    refine ⟨_, [.notice who (.received _)], .advance hq, rfl, ?_, rfl, rfl⟩
    cases x <;> cases hx
    simp [Item.report?, Entry.received?, positive, fits]
  | @accepted report =>
    obtain ⟨J, hJ, received, handed⟩ := g.hand_journal who report
    refine ⟨[], J, ?_, hJ, ?_, ?_, handed⟩
    · rw [Gate.hand_endpoint]; exact .refl _
    · rw [received]; rfl
    · rw [received, handed]; rfl
  | @rejected report why =>
    obtain ⟨J, hJ, received, handed⟩ := g.hand_journal who report
    have received' : (J ++ [Entry.notice who (.rejected why)]).filterMap Entry.received? = [] := by
      rw [List.filterMap_append, received]; rfl
    have handed' : (J ++ [Entry.notice who (.rejected why)]).filterMap Entry.handing? =
        [⟨who, g.recipient, report⟩] := by
      rw [List.filterMap_append, handed]; rfl
    refine ⟨[], J ++ [.notice who (.rejected why)], ?_, ?_, ?_, ?_, handed'⟩
    · rw [Gate.note_endpoint, Gate.hand_endpoint]; exact .refl _
    · rw [Gate.note_journal, hJ, List.append_assoc]
    · rw [received']; rfl
    · rw [received', handed']; rfl
  | @crashed report =>
    obtain ⟨J, hJ, received, handed⟩ := g.hand_journal who report
    refine ⟨[], J, ?_, hJ, ?_, ?_, handed⟩
    · rw [Gate.hand_endpoint]; exact .refl _
    · rw [received]; rfl
    · rw [received, handed]; rfl

def ReadStage.isWaiting : ReadStage → Bool
  | .poll | .drain => true
  | _ => false

theorem ReadStep.of_transient {propagate : Bool} {f : Fault} (h : ReadStep who propagate g st next g')
    (hf : next.fault? = some f) (ht : f.isTransient = true) :
    st.isWaiting = true ∧ ∃ T, Moved T [] g.endpoint g'.endpoint ∧ ∀ x ∈ T, ∃ n, x = .pollFault n := by
  cases h with
  | pollFault fault =>
    obtain ⟨rest, hq, rfl⟩ := Bench.pollFault?_eq_some.mp fault
    refine ⟨rfl, _, .advance hq, ?_⟩
    intro x hx
    exact ⟨_, List.mem_singleton.mp hx⟩
  | drain => exact ⟨rfl, [], .refl _, by simp⟩
  | fault | empty => cases hf; cases ht
  | report => cases propagate <;> cases hf
  | _ => cases hf

end

/-! ## Ordinary use -/

/-- The calls made while the listener runs. Their reads hand on what they take. -/
def Call.isOrdinary : Call → Bool
  | .read _ _ handsOn => handsOn
  | .propagate _ | .start _ | .stop | .close => false
  | _ => true

def Activity.isOrdinary : Activity → Bool
  | .enter c => c.isOrdinary
  | .read _ _ propagate => propagate
  | .halt .. | .release => false
  | _ => true

theorem Activity.shared_of_isOrdinary {a : Activity} (ho : a.isOrdinary = true) : a.isExclusive = false := by
  cases a with
  | enter c => cases c <;> first | rfl | cases ho
  | halt | release => cases ho
  | _ => rfl

def Event.isOrdinary {σ : Type} [Surroundings σ] : Event σ → Bool
  | .move (.ask _ c) => c.isOrdinary
  | _ => true

namespace Handle

variable {σ : Type}

theorem afterRead_isOrdinary (client : Client) (buffer : Bytes) {propagate : Bool} (hp : propagate = true)
    (next : ReadNext) : (afterRead client buffer propagate next).activity.isOrdinary = true := by
  rcases next with st | (f | report) | _
  · exact hp
  · rfl
  · rfl
  · rfl

variable [Endpoint σ] {n : Nat} {client client' : Client} {h h' : Handle σ}

theorem step?_isOrdinary (hs : h.step? n client = some (client', h')) (ho : client.activity.isOrdinary = true) :
    client'.activity.isOrdinary = true := by
  cases clientStep hs with
  | reads doing => rw [doing] at ho; exact ho
  | @stolen errand => cases errand <;> rfl
  | @reading st buffer propagate next g doing =>
    rw [doing] at ho
    exact afterRead_isOrdinary client buffer ho next
  | stops doing exclusive =>
    rw [doing] at ho
    cases exclusive.symm.trans (Activity.shared_of_isOrdinary ho)
  | closes doing | halting doing | halted doing => rw [doing] at ho; cases ho
  | _ => rfl

end Handle

namespace System

structure Serving {σ : Type} (s : System σ) : Prop where
  sound : Sound s
  listening : s.isListening = true
  ordinary : ∀ (n : Nat) (c : Client), s.clients[n]? = some c → c.activity.isOrdinary = true

section
variable {σ : Type} {s t : System σ}

theorem Serving.ordinary_of_set {n : Nat} {c' : Client} (hs : Serving s) (hc : c'.activity.isOrdinary = true)
    (m : Nat) (d : Client) (hd : (s.clients.set n c')[m]? = some d) : d.activity.isOrdinary = true := by
  by_cases hm : n = m
  · subst hm
    rw [List.getElem?_set_self'] at hd
    cases h : s.clients[n]? with
    | none => rw [h] at hd; cases hd
    | some c => rw [h] at hd; cases hd; exact hc
  · rw [List.getElem?_set_ne hm] at hd
    exact hs.ordinary m d hd

def inHand (s : System σ) : Option (Party × Bytes) :=
  s.lock.reader.bind fun p => ((s.stage? p).bind ReadStage.report?).map (p, ·)

theorem Sound.inHand_of_stage (hs : Sound s) (hl : s.isListening = true) {p : Party} {st : ReadStage}
    (hp : s.stage? p = some st) : s.inHand = st.report?.map (p, ·) := by
  rw [inHand, hs.reader_of_stage hl hp, Option.bind_some, hp, Option.bind_some]

theorem Sound.inHand_iff (hs : Sound s) (hl : s.isListening = true) {p : Party} {report : Bytes} :
    s.inHand = some (p, report) ↔ s.stage? p = some (.hand report) := by
  constructor
  · intro h
    obtain ⟨q, -, h⟩ := Option.bind_eq_some_iff.mp h
    obtain ⟨r, h, hr⟩ := Option.map_eq_some_iff.mp h
    cases hr
    obtain ⟨st, hst, hr⟩ := Option.bind_eq_some_iff.mp h
    cases st <;> cases hr
    exact hst
  · intro h
    rw [hs.inHand_of_stage hl h]; rfl

theorem inHand_of_none (h : ∀ p, s.stage? p = none) : s.inHand = none := by
  rw [inHand]
  cases s.lock.reader with
  | none => rfl
  | some p => rw [Option.bind_some, h p]; rfl

theorem Sound.inHand_congr (hs : Sound s) (hl : s.isListening = true) (ht : Sound t) (hl' : t.isListening = true)
    (h : ∀ p report, t.stage? p = some (.hand report) ↔ s.stage? p = some (.hand report)) :
    t.inHand = s.inHand := by
  apply Option.ext
  rintro ⟨p, report⟩
  rw [hs.inHand_iff hl, ht.inHand_iff hl', h p report]

theorem Sound.nobody_reads (hs : Sound s) (hl : s.isListening = true) {p : Party} {st : ReadStage}
    (hp : s.stage? p = some st) (gone : t.stage? p = none) (others : ∀ q, q ≠ p → t.stage? q = s.stage? q)
    (q : Party) : t.stage? q = none := by
  by_cases hq : q = p
  · rw [hq]; exact gone
  · rw [others q hq]
    cases hst : s.stage? q with
    | none => rfl
    | some st' => exact absurd (hs.stage_unique hl hst hp) hq

theorem Serving.propagates (hs : Serving s) {p : Party} {st : ReadStage} (hp : s.stage? p = some st) :
    s.propagates p = true := by
  cases p with
  | listener => rfl
  | client n =>
    obtain ⟨c, buffer, propagate, hc, ha⟩ := stage?_client_iff.mp hp
    have ho := hs.ordinary n c hc
    rw [ha] at ho
    rw [propagates_of_read hc ha]
    exact ho

variable [Endpoint σ] [Surroundings σ] {e : Event σ}

theorem Serving.step (hs : Serving s) (h : Step s e t) (he : e.isOrdinary = true) : Serving t := by
  have sound := hs.sound.step h.cause
  cases h.cause with
  | ask hc _ _ _ => exact ⟨sound, hs.listening, hs.ordinary_of_set he⟩
  | listener => exact ⟨sound, rfl, hs.ordinary⟩
  | listenerLate => exact ⟨sound, rfl, hs.ordinary⟩
  | @client n client client' h' hc step =>
    have ho := hs.ordinary n client hc
    refine ⟨sound, ?_, hs.ordinary_of_set (Handle.step?_isOrdinary step ho)⟩
    have := (Handle.step?_steering step).eq_of_shared (Activity.shared_of_isOrdinary ho)
    rw [isListening, turn, this]
    exact hs.listening
  | @clientLate n client client' h' hc late =>
    obtain ⟨_, _, -, rfl, rfl⟩ := Handle.expire?_eq_some late
    exact ⟨sound, hs.listening, hs.ordinary_of_set rfl⟩
  | incident i => exact ⟨sound, hs.listening, hs.ordinary⟩

theorem Serving.follows {tr : Trace σ} (hs : Serving s) (h : Follows s tr)
    (ho : ∀ x ∈ tr, x.1.isOrdinary = true) : Serving (final s tr) := by
  induction tr generalizing s with
  | nil => exact hs
  | cons x tr ih =>
    obtain ⟨e, t⟩ := x
    obtain ⟨st, h⟩ := h
    exact ih (hs.step st (ho (e, t) List.mem_cons_self)) h fun x hx => ho x (List.mem_cons_of_mem _ hx)

end

/-! ## The account -/

section
variable {s t u : System Bench} {e : Event Bench} {p : Party}

/-- From `s` to `t` the items `T` were taken, the items `A` came in, and the entries `J` were made. Each report
among the items was received once, and what was in hand or received has been handed over, by the same party and
in the same order, but for what is in hand at the end. -/
structure Carried (T A : List Item) (J : List Entry) (s t : System Bench) : Prop where
  moved : Moved T A s.endpoint t.endpoint
  journal : t.journal = s.journal ++ J
  received : (J.filterMap Entry.received?).map Prod.snd = T.filterMap Item.report?
  handed : s.inHand.toList ++ J.filterMap Entry.received? =
    (J.filterMap Entry.handing?).map Handing.load ++ t.inHand.toList

theorem Carried.refl (s : System Bench) : Carried [] [] [] s s :=
  ⟨.refl _, (List.append_nil _).symm, rfl, by simp⟩

theorem Carried.trans {T A T' A' : List Item} {J J' : List Entry} (h : Carried T A J s t)
    (h' : Carried T' A' J' t u) : Carried (T ++ T') (A ++ A') (J ++ J') s u := by
  refine ⟨h.moved.trans h'.moved, ?_, ?_, ?_⟩
  · rw [h'.journal, h.journal, List.append_assoc]
  · rw [List.filterMap_append, List.filterMap_append, List.map_append, h.received, h'.received]
  · calc s.inHand.toList ++ (J ++ J').filterMap Entry.received?
        = (s.inHand.toList ++ J.filterMap Entry.received?) ++ J'.filterMap Entry.received? := by
          rw [List.filterMap_append, List.append_assoc]
      _ = (J.filterMap Entry.handing?).map Handing.load ++
            (t.inHand.toList ++ J'.filterMap Entry.received?) := by
          rw [h.handed, List.append_assoc]
      _ = ((J ++ J').filterMap Entry.handing?).map Handing.load ++ u.inHand.toList := by
          rw [h'.handed, List.filterMap_append, List.map_append, List.append_assoc]

theorem Carried.of_aside {A : List Item} {J : List Entry} (moved : Moved [] A s.endpoint t.endpoint)
    (journal : t.journal = s.journal ++ J) (aside : ∀ x ∈ J, x.isAside = true) (hand : t.inHand = s.inHand) :
    Carried [] A J s t := by
  obtain ⟨received, handed⟩ := Entry.of_isAside aside
  refine ⟨moved, journal, ?_, ?_⟩
  · rw [received]; rfl
  · rw [received, handed, hand]; simp

theorem Serving.carried (hs : Serving s) (h : Step s e t) (he : e.isOrdinary = true) :
    ∃ T J, Carried T e.items J s t ∧
      (J.filterMap Entry.handing? = [] ∨ ∃ p report, e = .move (.run p) ∧ s.inHand = some (p, report) ∧
        J.filterMap Entry.handing? = [⟨p, s.handle.gate.recipient, report⟩]) := by
  have ht := hs.step h he
  have hand_congr := fun hc => hs.sound.inHand_congr hs.listening ht.sound ht.listening hc
  cases h.motion with
  | @read p st next g at_p step endpoint journal _ goes _ others =>
    -- nobody else is in a read, so the account of this one is the account of all
    have inHand := hs.sound.inHand_of_stage hs.listening at_p
    have inHand' : t.inHand = (next.stage?.bind ReadStage.report?).map (p, ·) := by
      cases hn : next.stage? with
      | some st' => exact ht.sound.inHand_of_stage ht.listening (goes.trans hn)
      | none => exact inHand_of_none (hs.sound.nobody_reads hs.listening at_p (goes.trans hn) others)
    rw [hs.propagates at_p] at step
    obtain ⟨T, J, moved, hJ, received, handed, handing⟩ := step.carries
    refine ⟨T, J, ⟨?_, ?_, received, ?_⟩, ?_⟩
    · rw [endpoint]; exact moved
    · rw [journal, hJ]; rfl
    · rw [inHand, inHand']; exact handed
    · cases st with
      | hand report => exact .inr ⟨p, report, rfl, inHand, handing⟩
      | _ => exact .inl handing
  | @late p at_p endpoint journal goes _ others =>
    refine ⟨[], [], .of_aside ?_ ?_ (by simp) (hand_congr ?_), .inl rfl⟩
    · rw [endpoint]; exact .refl _
    · rw [journal, List.append_nil]
    · intro q report
      by_cases hq : q = p
      · rw [hq, goes, at_p]; simp
      · rw [others q hq]
  | propagate at_n doing =>
    have := hs.ordinary _ _ at_n
    rw [doing] at this; cases this
  | @aside m at_p gate goes others =>
    obtain ⟨J, hJ, aside⟩ := gate.journal
    refine ⟨[], J, .of_aside gate.endpoint.moved hJ aside (hand_congr ?_), .inl (Entry.of_isAside aside).2⟩
    intro q report
    by_cases hq : q = m.party
    · rw [hq, at_p]
      rcases goes with goes | goes
      · rw [goes]
      · rw [goes]; simp
    · rw [others q hq]
  | incident i endpoint journal stages =>
    refine ⟨[], [], .of_aside ?_ ?_ (by simp) (hand_congr ?_), .inl rfl⟩
    · rw [endpoint]; exact .befall i _
    · rw [journal, List.append_nil]
    · intro q report
      rw [stages q]

theorem Serving.carried_along {tr : Trace Bench} (hs : Serving s) (h : Follows s tr)
    (ho : ∀ x ∈ tr, x.1.isOrdinary = true) : ∃ T J, Carried T (produced tr) J s (final s tr) := by
  induction tr generalizing s with
  | nil => exact ⟨[], [], .refl s⟩
  | cons x tr ih =>
    obtain ⟨e, t⟩ := x
    obtain ⟨st, h⟩ := h
    have he := ho (e, t) List.mem_cons_self
    obtain ⟨T, J, first, -⟩ := hs.carried st he
    obtain ⟨T', J', rest⟩ := ih (hs.step st he) h fun x hx => ho x (List.mem_cons_of_mem _ hx)
    exact ⟨T ++ T', J ++ J', first.trans rest⟩

def handings (s : System Bench) : List Handing := s.journal.filterMap Entry.handing?

theorem Serving.hands_over (hs : Serving s) {report : Bytes} (hp : s.inHand = some (p, report)) :
    ∃ u, Step s (.move (.run p)) u ∧ u.handings = s.handings ++ [⟨p, s.handle.gate.recipient, report⟩] ∧
      u.inHand = none := by
  have hst := (hs.sound.inHand_iff hs.listening).mp hp
  have hr : (ReadStage.hand report).step? p (s.propagates p) s.handle.gate =
      some ((s.handle.gate.handRead p report).1, (s.handle.gate.handRead p report).2) := rfl
  obtain ⟨u, hu, -⟩ := step_of_stage hst hr
  have gone : u.inHand = none := by
    obtain ⟨next, g, step, goes, others⟩ := hu.reads hst
    apply inHand_of_none
    apply hs.sound.nobody_reads hs.listening hst _ others
    rw [goes]
    cases step <;> rfl
  obtain ⟨T, J, carried, handing⟩ := hs.carried hu rfl
  refine ⟨u, hu, ?_, gone⟩
  rcases handing with handing | ⟨q, report', -, hq, handing⟩
  · -- then the report would still be in hand
    have := carried.handed
    rw [hp, handing, gone] at this
    cases this
  · rw [hp] at hq; cases hq
    rw [handings, carried.journal, List.filterMap_append, handing]
    rfl

theorem Serving.handings_of_step (hs : Serving s) (h : Step s e t) (he : e.isOrdinary = true) :
    t.handings = s.handings ∨ ∃ p report, e = .move (.run p) ∧ s.inHand = some (p, report) ∧
      t.handings = s.handings ++ [⟨p, s.handle.gate.recipient, report⟩] := by
  obtain ⟨T, J, carried, handing⟩ := hs.carried h he
  have grown : t.handings = s.handings ++ J.filterMap Entry.handing? := by
    rw [handings, carried.journal, List.filterMap_append]
    rfl
  rcases handing with handing | ⟨p, report, rfl, hp, handing⟩
  · left
    rw [grown, handing, List.append_nil]
  · right
    rw [grown, handing]
    exact ⟨p, report, rfl, hp, rfl⟩

/-! ## Reads that end without a report -/

theorem Step.waiting (h : Step s e t) {st st' : ReadStage} (hp : s.stage? p = some st)
    (hp' : t.stage? p = some st') (hw : st'.isWaiting = true) : st.isWaiting = true := by
  by_cases same : t.stage? p = some st
  · rw [hp'] at same; cases same
    exact hw
  · rcases h.of_leaves hp same with ⟨next, g, -, step, -, -, goes, -⟩ | ⟨rfl, -⟩
    · rw [hp'] at goes
      cases step with
      | wake => rfl
      | ready => cases goes; cases hw
      | report =>
        cases hpr : s.propagates p with
        | true => rw [hpr] at goes; cases goes; cases hw
        | false => rw [hpr] at goes; cases goes
      | _ => cases goes
    · rfl

theorem Sound.moved_of_waiting {tr : Trace Bench} {st st' : ReadStage} (hs : Sound s) (hl : s.isListening = true)
    (hp : s.stage? p = some st) (h : Follows s tr) (hr : ∀ x ∈ tr, (x.2.stage? p).isSome = true)
    (hp' : (final s tr).stage? p = some st') (hw : st'.isWaiting = true) :
    st.isWaiting = true ∧ Moved [] (produced tr) s.endpoint (final s tr).endpoint := by
  induction tr generalizing s st with
  | nil =>
    rw [final, hp] at hp'; cases hp'
    exact ⟨hw, .refl _⟩
  | cons x tr ih =>
    obtain ⟨e, t⟩ := x
    obtain ⟨step, h⟩ := h
    obtain ⟨st₁, hp₁⟩ := Option.isSome_iff_exists.mp (hr (e, t) List.mem_cons_self)
    obtain ⟨hw₁, rest⟩ := ih (hs.step step.cause) (hs.isListening_of_stage step hl hp) hp₁ h
      (fun x hx => hr x (List.mem_cons_of_mem _ hx)) hp'
    have hn : st₁.report? = none := by
      cases st₁ with
      | hand => cases hw₁
      | _ => rfl
    exact ⟨step.waiting hp hp₁ hw₁, (hs.moved_of_still hl step hp hp₁ hn).trans rest⟩

theorem Sound.moved_of_transient {tr : Trace Bench} {f : Fault} (hs : Sound s) (hl : s.isListening = true)
    (hp : s.stage? p = some .poll) (h : Follows s tr) (hr : ∀ x ∈ tr, (x.2.stage? p).isSome = true)
    (last : Step (final s tr) e u) (gone : u.stage? p = none) (hf : u.fault? p = some f)
    (ht : f.isTransient = true) :
    ∃ T, Moved T (produced tr) s.endpoint u.endpoint ∧ ∀ x ∈ T, ∃ n, x = .pollFault n := by
  obtain ⟨st, hst⟩ := Option.isSome_iff_exists.mp
    (final_of_forall (P := fun u => (u.stage? p).isSome = true) (by rw [hp]; rfl) hr)
  rcases last.of_leaves hst (by rw [gone]; simp) with ⟨next, g, -, step, endpoint, -, -, ends⟩ | ⟨rfl, -, endpoint, -⟩
  · rw [hf] at ends
    obtain ⟨hw, T, moved, hT⟩ := step.of_transient ends.symm ht
    have before := (hs.moved_of_waiting hl hp h hr hst hw).2
    refine ⟨T, ?_, hT⟩
    rw [endpoint]
    have := before.trans moved
    rwa [List.nil_append, List.append_nil] at this
  · have before := (hs.moved_of_waiting hl hp h hr hst rfl).2
    refine ⟨[], ?_, by simp⟩
    rw [endpoint]
    exact before

/-! ## The whole -/

/-- While the listener is started and the handle in ordinary use, the account balances. At most one report is in
hand; its reader can hand it over, to whoever is registered then, and nothing else is handed over. A read that
ends by a timeout or an interruption takes no report. -/
theorem delivery_in_order {tr : Trace Bench} (hs : Reachable s) (hl : s.isListening = true)
    (hc : ∀ c ∈ s.clients, c.activity.isOrdinary = true) (h : Follows s tr)
    (ho : ∀ x ∈ tr, x.1.isOrdinary = true) (ht : t = final s tr) :
    (∃ T J, Carried T (produced tr) J s t) ∧
      (∀ p report, t.inHand = some (p, report) ↔ t.stage? p = some (.hand report)) ∧
      (∀ p report, t.inHand = some (p, report) → ∃ u, Step t (.move (.run p)) u ∧
        u.handings = t.handings ++ [⟨p, t.handle.gate.recipient, report⟩] ∧ u.inHand = none) ∧
      (∀ (e : Event Bench) (u : System Bench), Step t e u → e.isOrdinary = true →
        u.handings = t.handings ∨ ∃ p report, e = .move (.run p) ∧ t.inHand = some (p, report) ∧
          u.handings = t.handings ++ [⟨p, t.handle.gate.recipient, report⟩]) ∧
      ∀ (p : Party) (tr' : Trace Bench) (e : Event Bench) (u : System Bench) (f : Fault),
        t.stage? p = some .poll → Follows t tr' → (∀ x ∈ tr', (x.2.stage? p).isSome = true) →
        Step (final t tr') e u → u.stage? p = none → u.fault? p = some f → f.isTransient = true →
        ∃ T, Moved T (produced tr') t.endpoint u.endpoint ∧ ∀ x ∈ T, ∃ n, x = .pollFault n := by
  have serving : Serving s := ⟨hs.sound, hl, fun n c hn => hc c (List.mem_of_getElem? hn)⟩
  have carried := serving.carried_along h ho
  have serving' := serving.follows h ho
  rw [← ht] at carried serving'
  refine ⟨carried, fun p report => serving'.sound.inHand_iff serving'.listening,
    fun p report hp => serving'.hands_over hp, fun e u step he => serving'.handings_of_step step he, ?_⟩
  intro p tr' e u f hp h' hr last gone hf transient
  exact serving'.sound.moved_of_transient serving'.listening hp h' hr last gone hf transient

/-- The listener takes a report, and another handler is registered before it hands it over. A client steals the
read path, and has taken the next report. -/
theorem delivery_in_order_of_two :
    let s := after (start (.fresh Bench.fresh .standard) 2) [.move (.ask 0 .start), .move (.run (.client 0))]
    let tr := play s [.move (.ask 1 (.register (some (.observer fun _ => .crash)))), .move (.run (.client 1)),
      .incident (.arrive [.report (.whole [1]), .report (.whole [2, 3])]), .move (.run .listener),
      .move (.run .listener), .move (.run .listener), .move (.run .listener),
      .move (.ask 1 (.register (some .broadcast))), .move (.run (.client 1)), .move (.run .listener),
      .move (.run .listener), .move (.ask 0 .lockEvents), .move (.run (.client 0)), .move (.run (.client 0)),
      .move (.run (.client 0)), .move (.run (.client 0)), .move (.run (.client 0)), .move (.run (.client 0)),
      .move (.ask 0 (.read ⟨0, true⟩ [0, 0] true)), .move (.run (.client 0)), .move (.run (.client 0)),
      .move (.run (.client 0))]
    let t := final s tr
    tr.length = 22 ∧ t.handings = [⟨.listener, .broadcast 1, [1]⟩] ∧
      (∃ T J, Carried T (produced tr) J s t) ∧
      ∃ u, Step t (.move (.run (.client 0))) u ∧
        u.handings = t.handings ++ [⟨.client 0, t.handle.gate.recipient, [2, 3]⟩] ∧ u.inHand = none := by
  intro s tr t
  have order := delivery_in_order (s := s) (t := t) ((Reachable.start _ _ _).after _) (by decide +kernel)
    (by decide +kernel) (follows_play _ _ : Follows s tr) (by decide +kernel) rfl
  exact ⟨by decide +kernel, by decide +kernel, order.1, order.2.2.1 (.client 0) [2, 3] (by decide +kernel)⟩

end

end System

end HidGate
