import HidGate.Proofs.Attendance
import HidGate.Proofs.Settings

/-!
# Asking for a feature report

A command that asks for a report starts a listener, asks once, and closes the node again. The buffer comes before the
check of its length: one that cannot be had ends the command before its length could be refused.
-/

namespace HidGate

/-! ## What the driver answers -/

def Node.Driver.feature (driver : Node.Driver) (scratch : Bytes) : Except SystemError (Nat × Bytes) :=
  ((driver.features.get scratch).mapError .tabled).bind fun (k, data) => (Node.count k).map (·, data)

namespace Request

def fetched (r : Request) : Except SystemError (Nat × Bytes) → Reply
  | .error e => ⟨.fault (.io e), r.buffer⟩
  | .ok (claimed, data) =>
    let reply : Bytes := (data.overlay r.scratch).take (min claimed r.buffer.length)
    ⟨.count reply.length, reply.overlay r.buffer⟩

theorem get_node (who : Party) (r : Request) (g : Gate Node) :
    (r.get who g).1 = r.fetched (g.endpoint.driver.feature r.scratch) ∧
      (r.get who g).2.endpoint = g.endpoint.ask (.getFeature r.scratch) := by
  have asked : Endpoint.getFeature r.scratch g.endpoint =
      (g.endpoint.driver.feature r.scratch, g.endpoint.ask (.getFeature r.scratch)) := rfl
  simp only [get, asked]
  cases g.endpoint.driver.feature r.scratch with
  | error e => exact ⟨rfl, rfl⟩
  | ok answer => exact ⟨rfl, rfl⟩

end Request

/-! ## Calls beside the listener -/

namespace System

section
variable {st st' : Standing} {s : Session Node} {reply : Reply}

theorem Idling.single {call : Call} (idling : Idling st s) (unreleased : st.released = 0)
    (plain : (Activity.enter call).isPlain = true)
    (answers : ∀ (c d : Client) (h k : Handle Node), h.standing = st → h.enter 0 c call = (d, k) →
      d.activity = .idle ∧ d.reply = some reply ∧ k.standing = st') :
    (Monitor.call call s).1 = reply ∧ Idling st' (Monitor.call call s).2 := by
  let R (c : Client) (now : Standing) : Prop := c.activity = .enter call ∧ now = st ∨
    c.activity = .idle ∧ c.reply = some reply ∧ now = st'
  have lasting : Lasting R := by
    intro c d h k stands goes
    rcases stands with ⟨doing, stands⟩ | ⟨idle, -⟩
    · simp only [Handle.step?, doing, Option.some.injEq] at goes
      exact .inr (answers c d h k stands goes)
    · simp [Handle.step?, idle] at goes
  apply idling.call unreleased plain lasting
  · intro c doing
    exact .inl ⟨doing, rfl⟩
  · intro c now idle stands
    rcases stands with ⟨doing, -⟩ | ⟨-, replied, stands⟩
    · rw [idle] at doing
      cases doing
    · exact ⟨replied, stands⟩

theorem Idling.register (idling : Idling st s) (unreleased : st.released = 0) (handler : Option Handler) :
    Idling st (Monitor.call (.register handler) s).2 := by
  have registers : (Monitor.call (.register handler) s).1 = ⟨.done, []⟩ ∧
      Idling st (Monitor.call (.register handler) s).2 := by
    apply idling.single unreleased rfl
    intro c d h k stands goes
    cases goes
    exact ⟨rfl, rfl, stands⟩
  exact registers.2

theorem Idling.start (idling : Idling st s) (unreleased : st.released = 0) (stopped : st.wanted = none)
    (named : Handle.canName st.config.threadName = true) :
    (Monitor.call .start s).1 = ⟨.done, []⟩ ∧ Idling { st with wanted := some true } (Monitor.call .start s).2 := by
  apply idling.single unreleased rfl
  intro c d h k stands goes
  subst stands
  have silent : h.listener = .stopped := by
    cases listener : h.listener with
    | stopped => rfl
    | running wanted w =>
      simp [Handle.standing, Listener.wanted?, listener] at stopped
  have named : Handle.canName h.config.threadName = true := named
  simp only [Handle.enter, Handle.start, silent, named] at goes
  cases goes
  exact ⟨rfl, rfl, rfl⟩

/-! ### A request -/

inductive Requests (r : Request) (st : Standing) (c : Client) (now : Standing) : Prop
  | enters (doing : c.activity = .enter (.request .feature r)) (before : now = st)
  | steals (stage : Steal) (doing : c.activity = .steal stage (.request r)) (before : now = st)
  | asks (exclusive : Bool) (doing : c.activity = .exchange r exclusive) (before : now = st)
  | leaves (exclusive : Bool)
      (doing : c.activity = .leave exclusive (r.fetched (st.node.driver.feature r.scratch)))
      (after : now = { st with node := st.node.ask (.getFeature r.scratch) })
  | done (idle : c.activity = .idle) (replied : c.reply = some (r.fetched (st.node.driver.feature r.scratch)))
      (after : now = { st with node := st.node.ask (.getFeature r.scratch) })

theorem Requests.lasting {r : Request} (get : r.direction = .get) (fine : r.refusal? .feature = none) :
    Lasting (Requests r st) := by
  intro c d h k stands goes
  cases stands with
  | enters doing before =>
    simp only [Handle.step?, doing, Handle.enter, fine, Option.some.injEq] at goes
    split at goes
    · cases goes
      exact .steals .grab rfl before
    · cases goes
      exact .asks false rfl before
  | steals stage doing before =>
    simp only [Handle.step?, doing, Option.map_eq_some_iff] at goes
    obtain ⟨⟨l, next⟩, -, goes⟩ := goes
    cases next with
    | some stage' =>
      cases goes
      exact .steals stage' rfl before
    | none =>
      cases goes
      exact .asks true rfl before
  | asks exclusive doing before =>
    subst before
    obtain ⟨replied, asked⟩ := r.get_node (.client 0) h.gate
    simp only [Handle.step?, doing, Request.perform, get, Option.some.injEq] at goes
    cases goes
    refine .leaves exclusive ?_ ?_
    · rw [replied]
      rfl
    · simp only [Handle.standing, Handle.onGate, asked]
      rfl
  | leaves exclusive doing after =>
    simp only [Handle.step?, doing, Option.some.injEq] at goes
    cases goes
    refine .done rfl rfl ?_
    rw [← after]
    cases exclusive <;> rfl
  | done idle =>
    simp [Handle.step?, idle] at goes

theorem Idling.request (idling : Idling st s) (unreleased : st.released = 0) {r : Request} (get : r.direction = .get)
    (fine : r.refusal? .feature = none) :
    (Monitor.call (.request .feature r) s).1 = r.fetched (st.node.driver.feature r.scratch) ∧
      Idling { st with node := st.node.ask (.getFeature r.scratch) } (Monitor.call (.request .feature r) s).2 := by
  apply idling.call unreleased rfl (Requests.lasting get fine)
  · intro c doing
    exact .enters doing rfl
  · intro c now idle stands
    cases stands with
    | enters doing | steals _ doing | asks _ doing | leaves _ doing =>
      rw [idle] at doing
      cases doing
    | done _ replied after => exact ⟨replied, after⟩

/-! ### Closing -/

inductive Closes (st : Standing) (c : Client) (now : Standing) : Prop
  | enters (doing : c.activity = .enter .close) (wanted : Bool) (before : now = { st with wanted := some wanted })
  | stops (stage : Halt) (doing : c.activity = .halt stage true) (on : stage ≠ .drain) (wanted : Bool)
      (before : now = { st with wanted := some wanted })
  | drains (doing : c.activity = .halt .drain true) (stopped : now = { st with wanted := none })
  | releases (doing : c.activity = .release) (stopped : now = { st with wanted := none })
  | done (idle : c.activity = .idle) (replied : c.reply = some ⟨.done, []⟩)
      (after : now = { st with wanted := none, released := st.released + 1 })

theorem running_of_standing {h : Handle Node} {wanted : Bool}
    (stands : h.standing = { st with wanted := some wanted }) : ∃ w, h.listener = .running wanted w := by
  have asked := congrArg Standing.wanted stands
  cases listener : h.listener with
  | stopped =>
    simp [Handle.standing, Listener.wanted?, listener] at asked
  | running wanted' w =>
    simp [Handle.standing, Listener.wanted?, listener] at asked
    exact ⟨w, by rw [asked]⟩

theorem Closes.lasting (st : Standing) : Lasting (Closes st) := by
  -- nothing but the flag, and then the listener, is changed
  have kept {h k : Handle Node} {now : Option Bool} {w : Option Bool} (stands : h.standing = { st with wanted := w })
      (same : k.standing = { h.standing with wanted := now }) : k.standing = { st with wanted := now } := by
    rw [same, stands]
  intro c d h k stands goes
  cases stands with
  | enters doing wanted before =>
    obtain ⟨w, running⟩ := running_of_standing before
    simp only [Handle.step?, doing, Handle.enter, running, Listener.isRunning, Option.some.injEq] at goes
    cases goes
    exact .stops .clear rfl Halt.noConfusion wanted before
  | stops stage doing on wanted before =>
    obtain ⟨w, running⟩ := running_of_standing before
    simp only [Handle.step?, doing, Option.map_eq_some_iff] at goes
    obtain ⟨⟨next, k'⟩, halts, goes⟩ := goes
    cases stage with
    | clear =>
      simp only [Handle.halt?, running] at halts
      cases halts
      cases goes
      exact .stops .wake rfl Halt.noConfusion false (kept before rfl)
    | wake =>
      cases halts
      cases goes
      exact .stops .join rfl Halt.noConfusion wanted before
    | join =>
      simp only [Handle.halt?, running] at halts
      split at halts <;> cases halts <;> cases goes <;> exact .drains rfl (kept before rfl)
    | drain => exact absurd rfl on
  | drains doing stopped =>
    simp only [Handle.step?, doing, Option.map_eq_some_iff] at goes
    obtain ⟨⟨next, k'⟩, halts, goes⟩ := goes
    cases halts
    cases goes
    exact .releases rfl stopped
  | releases doing stopped =>
    simp only [Handle.step?, doing, Option.some.injEq] at goes
    cases goes
    refine .done rfl rfl ?_
    have same : ({ h with released := h.released + 1 } : Handle Node).standing =
        { h.standing with released := h.standing.released + 1 } := rfl
    rw [same, stopped]
  | done idle =>
    simp [Handle.step?, idle] at goes

theorem Idling.close (idling : Idling st s) (unreleased : st.released = 0) (started : st.wanted = some true) :
    Idling { st with wanted := none, released := 1 } (Monitor.close s) := by
  have closes : (Monitor.call .close s).1 = ⟨.done, []⟩ ∧
      Idling { st with wanted := none, released := st.released + 1 } (Monitor.call .close s).2 := by
    apply idling.call unreleased rfl (Closes.lasting st)
    · intro c doing
      refine .enters doing true ?_
      rw [← started]
    · intro c now idle stands
      cases stands with
      | enters doing | stops _ doing | drains doing | releases doing =>
        rw [idle] at doing
        cases doing
      | done _ replied after => exact ⟨replied, after⟩
  rw [unreleased] at closes
  exact closes.2

end

end System

/-! ## The command -/

namespace System

section
variable {st : Standing} {s : Session Node}

theorem Idling.standing (idling : Idling st s) : s.handle.standing = st := by
  obtain ⟨c, attended, -⟩ := idling
  exact attended.stands

theorem Idling.requests (idling : Idling st s) : (Session.endpoint s).requests = st.node.requests :=
  congrArg (fun st => st.node.requests) idling.standing

theorem Idling.writes (idling : Idling st s) : (Session.endpoint s).writes = st.node.writes :=
  congrArg (fun st => st.node.writes) idling.standing

theorem Idling.released (idling : Idling st s) : s.handle.released = st.released :=
  congrArg Standing.released idling.standing

theorem Idling.wanted (idling : Idling st s) : s.handle.listener.wanted? = st.wanted :=
  congrArg Standing.wanted idling.standing

theorem Idling.stopped (idling : Idling st s) (silent : st.wanted = none) : s.handle.listener = .stopped := by
  have wanted := idling.wanted.trans silent
  cases listener : s.handle.listener with
  | stopped => rfl
  | running => simp [Listener.wanted?, listener] at wanted

end

end System

namespace Monitor

open HidGate.System (Idling)

def Output.printed? : Output → Option String
  | .printed s => some s
  | .logged _ => none

def Transcript.printed (t : Transcript) : List String := t.output.filterMap Output.printed?

section
variable {node : String} {id : UInt8} {length : Nat} {w : Work} {options : Options}

theorem outputOf_getFeature (e : Entry) : (outputOf (.getFeature node id length) e).bind Output.printed? = none := by
  cases e <;> rfl

/-- A report that comes while a command asks for features is logged at most. -/
theorem Work.printed (asked : options.command = .getFeature node id length) (opened : List Notice) (w : Work) :
    (w.transcript options opened).printed = w.out := by
  have shown (o : Output) : (if o.isShown options.verbose = true then o.printed? else none) = o.printed? := by
    cases o with
    | logged n => simp [Output.printed?]
    | printed s => rfl
  have logged (es : List Entry) : (es.filterMap (outputOf options.command)).filterMap Output.printed? = [] := by
    rw [List.filterMap_filterMap, List.filterMap_eq_nil_iff]
    intro e _
    rw [asked]
    exact outputOf_getFeature e
  have notices : (opened.map Output.logged).filterMap Output.printed? = [] := by
    rw [List.filterMap_map, List.filterMap_eq_nil_iff]
    intro n _
    rfl
  have out : (w.out.map Output.printed).filterMap Output.printed? = w.out := by
    rw [List.filterMap_map]
    exact List.filterMap_some
  unfold Transcript.printed Work.transcript
  simp only [List.filterMap_filter, shown, List.filterMap_append, logged, notices, out, List.nil_append,
    List.append_nil]

end

def fetching (id : UInt8) : String := "GET_FEATURE " ++ named id ++ " failed"

def scratch (id : UInt8) (length : Nat) : Bytes := id :: Bytes.filled (length - 1) 0

theorem scratch_eq (id : UInt8) {length : Nat} (positive : 1 ≤ length) :
    (⟨.get, id, .filled length 0⟩ : Request).scratch = scratch id length := by
  obtain ⟨n, rfl⟩ := Nat.exists_eq_add_of_le' positive
  simp [Request.scratch, scratch, Bytes.filled, List.replicate_succ]

/-- The bytes that a request is answered with, as far as they are claimed and fit. -/
def returned (scratch : Bytes) (answer : Nat × Bytes) : Bytes :=
  (answer.2.overlay scratch).take (min answer.1 scratch.length)

/-- The driver is asked once for a report of this length, and what it returns is printed, or why it refuses. For a
length that no report has it is not asked, and the command fails over that. -/
def Transcript.Fetches (driver : Node.Driver) (id : UInt8) (length : Nat) (t : Transcript) : Prop :=
  if 1 ≤ length ∧ length ≤ 4096 then
    t.Sent [.identify, .getFeature (scratch id length)] [] ∧
      match driver.feature (scratch id length) with
      | .ok answer =>
        t.exit = some 0 ∧ t.message = none ∧ t.printed = [Hex.spaced (returned (scratch id length) answer)]
      | .error e => t.exit = some 1 ∧ t.message = some (reportFault (fetching id) (.io e)) ∧ t.printed = []
  else t.Sent [.identify] [] ∧ t.Misfit (fetching id) length ∧ t.printed = []

section
variable {memory : Memory} {st : Standing} {s : Session Node} {id : UInt8} {length : Nat} {w : Work}

theorem watch_idling (idling : Idling st s) (unreleased : st.released = 0) (stopped : st.wanted = none)
    (canName : Handle.canName st.config.threadName = true) :
    (watch s).1 = .done ∧ Idling { st with wanted := some true } (watch s).2 := by
  obtain ⟨done, started⟩ := (idling.register unreleased _).start unreleased stopped canName
  exact ⟨congrArg Reply.outcome done, started⟩

theorem getFeature_of_watch (started : (watch s).1 = .done) : getFeature memory id length s =
    if longestBuffer < length then ⟨.crashed, [], (watch s).2⟩
    else if memory.grants length then fetch id length (watch s).2
    else ⟨.exhausted, [], (watch s).2⟩ := by
  unfold getFeature
  generalize watch s = watched at started ⊢
  obtain ⟨o, s'⟩ := watched
  cases started
  rfl

theorem fetched_outcome (id : UInt8) (fits : 1 ≤ length ∧ length ≤ 4096) (answer : Except SystemError (Nat × Bytes)) :
    let reply := (⟨.get, id, .filled length 0⟩ : Request).fetched answer
    match answer with
    | .ok a => ∃ n, reply.outcome = .count n ∧ reply.buffer.take n = returned (scratch id length) a
    | .error e => reply.outcome = .fault (.io e) := by
  cases answer with
  | error e => rfl
  | ok a =>
    obtain ⟨claimed, data⟩ := a
    have size : (Bytes.filled length 0).length = length := List.length_replicate
    have same := scratch_eq id fits.1
    have full : (scratch id length).length = length := by
      simp [scratch, Bytes.filled]
      omega
    refine ⟨_, rfl, ?_⟩
    simp only [Request.fetched, returned]
    rw [same, size, full]
    rw [Bytes.take_overlay, List.take_of_length_le]
    rw [List.length_take, size]
    omega

structure Work.Ends (finish : Finish) (out : List String) (st : Standing) (w : Work) : Prop where
  finish : w.finish = finish
  out : w.out = out
  idling : Idling st w.session

def attended (st : Standing) : Standing := { st with wanted := some true }

section
variable (idling : Idling st s) (unreleased : st.released = 0) (stopped : st.wanted = none)
  (canName : Handle.canName st.config.threadName = true)

include idling unreleased stopped canName

theorem getFeature_overflow (id : UInt8) (beyond : longestBuffer < length) :
    (getFeature memory id length s).Ends .crashed [] (attended st) := by
  obtain ⟨started, watched⟩ := watch_idling idling unreleased stopped canName
  rw [getFeature_of_watch started, if_pos beyond]
  exact ⟨rfl, rfl, watched⟩

theorem getFeature_exhausted (id : UInt8) (within : length ≤ longestBuffer) (denied : memory.grants length = false) :
    (getFeature memory id length s).Ends .exhausted [] (attended st) := by
  obtain ⟨started, watched⟩ := watch_idling idling unreleased stopped canName
  rw [getFeature_of_watch started, if_neg (Nat.not_lt.mpr within), if_neg (by rw [denied]; exact Bool.false_ne_true)]
  exact ⟨rfl, rfl, watched⟩

theorem getFeature_of_room (within : length ≤ longestBuffer) (granted : memory.grants length = true) :
    getFeature memory id length s = fetch id length (watch s).2 := by
  obtain ⟨started, -⟩ := watch_idling idling unreleased stopped canName
  rw [getFeature_of_watch started, if_neg (Nat.not_lt.mpr within), if_pos granted]

theorem getFeature_misfit (id : UInt8) (within : length ≤ longestBuffer) (granted : memory.grants length = true)
    (outside : length < 1 ∨ 4096 < length) :
    (getFeature memory id length s).Ends
      (.failed (reportFault (fetching id) (.invalidArgument (.length length maxBuffer)))) [] (attended st) := by
  obtain ⟨-, watched⟩ := watch_idling idling unreleased stopped canName
  have refused : Fault.checkLength length maxBuffer = some (.invalidArgument (.length length maxBuffer)) :=
    Fault.checkLength_of_outside outside
  rw [getFeature_of_room idling unreleased stopped canName within granted, fetch, refused]
  exact ⟨rfl, rfl, watched⟩

theorem getFeature_asked (id : UInt8) (granted : memory.grants length = true) (fits : 1 ≤ length ∧ length ≤ 4096) :
    let asked := { attended st with node := st.node.ask (.getFeature (scratch id length)) }
    match st.node.driver.feature (scratch id length) with
    | .ok a => (getFeature memory id length s).Ends .done [Hex.spaced (returned (scratch id length) a)] asked
    | .error e => (getFeature memory id length s).Ends (.failed (reportFault (fetching id) (.io e))) [] asked := by
  obtain ⟨-, watched⟩ := watch_idling idling unreleased stopped canName
  have checked : Fault.checkLength length maxBuffer = none := Fault.checkLength_eq_none.mpr fits
  have fine : Request.refusal? .feature ⟨.get, id, .filled length 0⟩ = none := by
    have size : (Bytes.filled length 0).length = length := List.length_replicate
    rw [Request.refusal?, size, checked]
    rfl
  have within : length ≤ longestBuffer := by
    unfold longestBuffer
    omega
  obtain ⟨replied, done⟩ := watched.request unreleased rfl fine
  have outcome := fetched_outcome id fits (st.node.driver.feature (scratch id length))
  rw [scratch_eq id fits.1] at replied done
  rw [getFeature_of_room idling unreleased stopped canName within granted, fetch, checked]
  dsimp only at replied ⊢
  rw [replied]
  cases answer : st.node.driver.feature (scratch id length) with
  | ok a =>
    rw [answer] at outcome
    obtain ⟨n, counted, front⟩ := outcome
    rw [answer] at replied
    dsimp only
    rw [counted]
    dsimp only
    rw [front]
    exact ⟨rfl, rfl, done⟩
  | error e =>
    rw [answer] at outcome
    dsimp only at outcome ⊢
    rw [outcome]
    exact ⟨rfl, rfl, done⟩

end

theorem Work.Ends.closed {finish : Finish} {out : List String} (ends : w.Ends finish out st)
    (spared : finish ≠ .exhausted) (unreleased : st.released = 0) (started : st.wanted = some true) :
    Idling { st with wanted := none, released := 1 } w.closed := by
  obtain ⟨rfl, -, idling⟩ := ends
  unfold Work.closed
  split
  · rename_i exhausted
    exact absurd exhausted spared
  · exact idling.close unreleased started

end

/-! ## Lines -/

section
variable {node text size : String} {id : UInt8} {length n : Nat} {config : Option String} {args : List String}

theorem decimal?_toDigits (n : Nat) : decimal? (Nat.toDigits 10 n) = some n := by
  have some_digits : (Nat.toDigits 10 n).isEmpty = false := by simp
  have digits : (Nat.toDigits 10 n).all Char.isDigit = true := List.all_eq_true.mpr (Toml.isDigit_toDigits n)
  have steps : (fun (n : Nat) (c : Char) => n * 10 + (c.toNat - '0'.toNat)) =
      fun n c => 10 * n + (c.toNat - '0'.toNat) := by
    funext n c
    rw [Nat.mul_comm]
  have value := Nat.ofDigitChars_toDigits (b := 10) (n := n) (by decide) (by decide)
  unfold Nat.ofDigitChars at value
  simp only [decimal?, some_digits, digits, Bool.not_true, Bool.or_false, Bool.false_eq_true, if_false, steps, value]

theorem readSize?_toString (bounded : n < sizeBound) : readSize? (toString n) = some n := by
  have text : (toString n).toList = Nat.toDigits 10 n := String.toList_ofList
  have unsigned : ∀ r, Nat.toDigits 10 n ≠ '+' :: r := by
    intro r signed
    obtain ⟨c, t, front, digit⟩ := Toml.toDigits_cons n
    cases front.symm.trans signed
    cases digit
  unfold readSize?
  rw [text]
  split
  · rename_i r signed
    exact absurd signed (unsigned r)
  · rw [decimal?_toDigits]
    simp [bounded]

theorem Line.read_getFeature (line : Line .getFeature [node, text, size] config args) (given : node.isEmpty = false)
    (byte : HexByte.IsToken id text.toList) (sized : readSize? size = some length) :
    ∃ verbose, Monitor.read args = .ok ⟨.getFeature node id length, config, verbose⟩ := by
  have number : Slot.byte.check [text] = .ok (.byte id) := by
    rw [Slot.check, readByte_token .byte byte]
    rfl
  have checked : Slot.size.check [size] = .ok (.size length) := by simp [Slot.check, sized]
  exact line.read (.slot (by decide) (check_path given) (.slot (by decide) number (.slot (by decide) checked .nil))) rfl

theorem exists_line (given : node.isEmpty = false) (bounded : length < sizeBound) :
    ∃ args options, read args = .ok options ∧ options.command = .getFeature node id length := by
  have token : HexByte.IsToken id (named id).toList := by
    have text : (named id).toList = '0' :: 'x' :: Hex.byte .lower id := by
      simp [named]
    rw [text]
    exact .marked (.inl rfl)
  have line : Line .getFeature [node, named id, toString length] none
      ["get-feature", "--", node, named id, toString length] :=
    .mk .nil (.separator (.text (.inl rfl) (.text (.inl rfl) (.text (.inl rfl) .nil))))
  obtain ⟨verbose, reads⟩ := line.read_getFeature given token (readSize?_toString bounded)
  exact ⟨_, _, reads, rfl⟩

end

/-! ## Whole runs -/

/-- The command does with this length what it should, and at its end the listener is stopped and the node let go. -/
structure Keeps (driver : Node.Driver) (id : UInt8) (length : Nat) (t : Transcript) (s : Session Node) : Prop where
  fetches : t.Fetches driver id length
  stopped : s.handle.listener = .stopped
  released : s.handle.released = 1

section
variable {driver : Node.Driver} {id : UInt8} {length : Nat} {t : Transcript} {s : Session Node} {node : String}
  {options : Options} {st : Standing} {w : Work} {finish : Finish} {out : List String}

theorem Transcript.Fetches.exit (fetches : t.Fetches driver id length) : t.exit = some 0 ∨ t.exit = some 1 := by
  unfold Transcript.Fetches at fetches
  split at fetches
  · obtain ⟨-, ends⟩ := fetches
    split at ends
    · exact .inl ends.1
    · exact .inr ends.1
  · exact .inr fetches.2.1.exit

structure Transcript.Tells (finish : Finish) (out : List String) (requests : List Node.Control) (t : Transcript) :
    Prop where
  exit : t.exit = finish.exit
  message : t.message = finish.message?
  printed : t.printed = out
  sent : t.Sent requests []

theorem Work.Ends.tells (ends : w.Ends finish out st) (asked : options.command = .getFeature node id length)
    (unreleased : st.released = 0) (started : st.wanted = some true) (unwritten : st.node.writes = [])
    (opened : List Notice) : (w.transcript options opened).Tells finish out st.node.requests := by
  have last : ∃ st', Idling st' w.closed ∧ st'.node = st.node := by
    by_cases exhausted : finish = .exhausted
    · have left : w.closed = w.session := by
        unfold Work.closed
        rw [ends.finish, exhausted]
      exact ⟨st, left ▸ ends.idling, rfl⟩
    · exact ⟨_, ends.closed exhausted unreleased started, rfl⟩
  obtain ⟨st', closed, same⟩ := last
  refine ⟨congrArg Finish.exit ends.finish, congrArg Finish.message? ends.finish, ?_, ?_⟩
  · rw [Work.printed asked, ends.out]
  · exact ⟨_, rfl, closed.requests.trans (congrArg Node.requests same),
      (closed.writes.trans (congrArg Node.writes same)).trans unwritten⟩

theorem Work.Ends.keeps (ends : w.Ends finish out st) (asked : options.command = .getFeature node id length)
    (unreleased : st.released = 0) (started : st.wanted = some true) (unwritten : st.node.writes = [])
    (opened : List Notice) (spared : finish ≠ .exhausted)
    (fetches : (w.transcript options opened).Tells finish out st.node.requests →
      (w.transcript options opened).Fetches driver id length) :
    Keeps driver id length (w.transcript options opened) w.closed := by
  have closed := ends.closed spared unreleased started
  exact ⟨fetches (ends.tells asked unreleased started unwritten opened), closed.stopped rfl, closed.released⟩

end

section
variable {memory : Memory} {id : UInt8} {length : Nat} {s : Session Node} {node : String} {options : Options}
  {st : Standing} (asked : options.command = .getFeature node id length) (idling : Idling st s)
  (unreleased : st.released = 0) (stopped : st.wanted = none) (canName : Handle.canName st.config.threadName = true)
  (requests : st.node.requests = [.identify]) (writes : st.node.writes = []) (opened : List Notice)

include asked idling unreleased stopped canName requests writes

theorem keeps_of_room (within : length ≤ longestBuffer) (granted : memory.grants length = true) :
    Keeps st.node.driver id length ((getFeature memory id length s).transcript options opened)
      (getFeature memory id length s).closed := by
  by_cases fits : 1 ≤ length ∧ length ≤ 4096
  · have ends := getFeature_asked idling unreleased stopped canName id granted fits
    dsimp only at ends
    have asks : (st.node.ask (.getFeature (scratch id length))).requests =
        [.identify, .getFeature (scratch id length)] := by
      rw [Node.ask, requests]
      rfl
    cases answer : st.node.driver.feature (scratch id length) with
    | ok a =>
      rw [answer] at ends
      refine ends.keeps asked unreleased rfl writes opened nofun fun tells => ?_
      rw [Transcript.Fetches, if_pos fits, answer]
      exact ⟨asks ▸ tells.sent, tells.exit, tells.message, tells.printed⟩
    | error e =>
      rw [answer] at ends
      refine ends.keeps asked unreleased rfl writes opened nofun fun tells => ?_
      rw [Transcript.Fetches, if_pos fits, answer]
      exact ⟨asks ▸ tells.sent, tells.exit, tells.message, tells.printed⟩
  · have outside : length < 1 ∨ 4096 < length := by omega
    have ends := getFeature_misfit idling unreleased stopped canName id within granted outside
    refine ends.keeps asked unreleased rfl writes opened nofun fun tells => ?_
    rw [Transcript.Fetches, if_neg fits]
    exact ⟨requests ▸ tells.sent, ⟨tells.exit, tells.message⟩, tells.printed⟩

theorem lost_without_room (denied : ¬ (length ≤ longestBuffer ∧ memory.grants length = true)) :
    let t := (getFeature memory id length s).transcript options opened
    let s' := (getFeature memory id length s).closed
    t.Sent [.identify] [] ∧ t.message = none ∧ t.printed = [] ∧
      (length ≤ longestBuffer → t.exit = none ∧ s'.handle.listener.isRunning = true) ∧
      (longestBuffer < length → t.exit = some 101 ∧ s'.handle.listener = .stopped ∧ s'.handle.released = 1) := by
  intro t s'
  by_cases within : length ≤ longestBuffer
  · have ends := getFeature_exhausted idling unreleased stopped canName id within
      (Bool.eq_false_iff.mpr fun granted => denied ⟨within, granted⟩)
    have tells := ends.tells asked unreleased rfl writes opened
    refine ⟨requests ▸ tells.sent, tells.message, tells.printed, fun _ => ⟨tells.exit, ?_⟩, fun more => by omega⟩
    -- it is not closed, and so its listener is as it was
    have unclosed : s' = (getFeature memory id length s).session := by
      change Work.closed _ = _
      unfold Work.closed
      rw [ends.finish]
    have wanted : s'.handle.listener.wanted? = some true := by
      rw [unclosed]
      exact ends.idling.wanted
    cases listener : s'.handle.listener with
    | stopped => simp [Listener.wanted?, listener] at wanted
    | running => rfl
  · have ends : (getFeature memory id length s).Ends .crashed [] (attended st) :=
      getFeature_overflow idling unreleased stopped canName id (Nat.lt_of_not_le within)
    have tells := ends.tells asked unreleased rfl writes opened
    have closed := ends.closed nofun unreleased rfl
    exact ⟨requests ▸ tells.sent, tells.message, tells.printed, fun less => absurd less within,
      fun _ => ⟨tells.exit, closed.stopped rfl, closed.released⟩⟩

/-- A command that has no buffer does not return, as it would if it kept to what it should do. -/
theorem room_of_keeps (keeps : Keeps st.node.driver id length
    ((getFeature memory id length s).transcript options opened) (getFeature memory id length s).closed) :
    length ≤ longestBuffer ∧ memory.grants length = true := by
  by_contra denied
  obtain ⟨-, -, -, dies, crashes⟩ :=
    lost_without_room asked idling unreleased stopped canName requests writes opened denied
  have returned := keeps.fetches.exit
  by_cases within : length ≤ longestBuffer
  · rw [(dies within).1] at returned
    simp at returned
  · rw [(crashes (Nat.lt_of_not_le within)).1] at returned
    simp at returned

end

/-- The command keeps to what it should do exactly if the buffer can be had, as an empty one always can. Otherwise it
ends before the length is refused: it crashes if there can be no such buffer, and dies if there is no memory for it. -/
theorem feature_kept_iff (find : String → Except SystemError Place) (driver : Node.Driver) (memory : Memory) :
    (∀ (node : String) (id : UInt8) (length : Nat), node.isEmpty = false → length < sizeBound →
      ∃ args options, read args = .ok options ∧ options.command = .getFeature node id length) ∧
    ∀ {args : List String} {options : Options} {node : String} {id : UInt8} {length : Nat} {config : Config}
      {h : Handle Node}, read args = .ok options → options.command = .getFeature node id length →
      settings find options.config = .ok config → (Opening.run find driver config none node).result = .ok h →
      Handle.canName config.threadName = true →
      let t := run find driver args memory
      let s := (work memory (.of h) options.command).closed
      t.node = some (Session.endpoint s) ∧
      (Keeps driver id length t s ↔ length ≤ longestBuffer ∧ memory.grants length = true) ∧
      (length = 0 → Keeps driver id length t s) ∧
      (¬ Keeps driver id length t s → t.Sent [.identify] [] ∧ t.message = none ∧ t.printed = [] ∧
        (length ≤ longestBuffer → t.exit = none ∧ s.handle.listener.isRunning = true) ∧
        (longestBuffer < length → t.exit = some 101 ∧ s.handle.listener = .stopped ∧ s.handle.released = 1)) := by
  refine ⟨fun node id length => exists_line, ?_⟩
  intro args options node id length config h line asked configured opens canName
  have opens' : (Opening.run find driver config none options.command.node).result = .ok h := by rw [asked]; exact opens
  obtain ⟨opened, ran⟩ := run_of_open line configured opens'
  obtain ⟨-, medium, rfl⟩ := Opening.fresh_of_run opens
  have idling := Idling.of ((Node.opened node medium driver).ask .identify) config
  intro t s
  rw [show t = _ from ran]
  have works : work memory (.of (.fresh ((Node.opened node medium driver).ask .identify) config)) options.command =
      getFeature memory id length (.of (.fresh ((Node.opened node medium driver).ask .identify) config)) := by
    rw [asked]
    rfl
  rw [show s = _ from congrArg Work.closed works, works]
  have kept (room : length ≤ longestBuffer ∧ memory.grants length = true) :=
    keeps_of_room asked idling rfl rfl canName rfl rfl opened room.1 room.2
  have lost (denied : ¬ (length ≤ longestBuffer ∧ memory.grants length = true)) :=
    lost_without_room asked idling rfl rfl canName rfl rfl opened denied
  refine ⟨rfl, ⟨room_of_keeps asked idling rfl rfl canName rfl rfl opened, kept⟩, ?_, fun fails => lost (mt kept fails)⟩
  rintro rfl
  exact kept ⟨Nat.zero_le _, memory.grants_zero⟩

/-- A report of four bytes is asked for, of which the driver returns three. -/
theorem feature_kept_of_short_reply :
    let find := fun path => if path = "null" then .ok Place.null else .error (.code Errno.notFound)
    let driver := ⟨some (.ok ⟨3, 0x46d, 0xc52b⟩), FeatureTable.empty.put 1 (.reply [1, 2, 3] none)⟩
    let t := run find driver ["get-feature", "null", "1", "4"]
    t.Sent [.identify, .getFeature [1, 0, 0, 0]] [] ∧ t.exit = some 0 ∧ t.printed = ["01 02 03"] := by
  intro find driver t
  have line : read ["get-feature", "null", "1", "4"] = .ok ⟨.getFeature "null" 1 4, none, false⟩ := by decide +kernel
  obtain ⟨-, keeps, -⟩ := (feature_kept_iff find driver .addressable).2 line rfl rfl rfl (by decide +kernel)
  obtain ⟨sent, exit, -, printed⟩ := (keeps.mpr (by decide)).fetches
  exact ⟨sent, exit, printed⟩

/-- No buffer can have so many bytes. -/
theorem feature_lost_to_length :
    let find := fun path => if path = "null" then .ok Place.null else .error (.code Errno.notFound)
    let driver := ⟨some (.ok ⟨3, 0x46d, 0xc52b⟩), .empty⟩
    let t := run find driver ["get-feature", "null", "1", "9223372036854775808"]
    t.exit = some 101 ∧ ¬ t.Fetches driver 1 9223372036854775808 := by
  intro find driver t
  have exit : t.exit = some 101 := by decide +kernel
  refine ⟨exit, fun fetches => ?_⟩
  rcases fetches.exit with returned | returned <;> cases exit.symm.trans returned

end Monitor

end HidGate
