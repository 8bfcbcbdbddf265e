import HidGate.Proofs.Lines
import HidGate.Proofs.Overclaim
import HidGate.Proofs.Settling

/-!
# What a command sends

A command that sends bytes has a handle to itself and starts no listener. So each of its calls runs to its end in a few
steps, and the node is asked and written what that call asks and writes, and nothing else: once, with the bytes of the
command line, if they fit; not at all if they do not.
-/

namespace HidGate

/-! ## A caller without a listener -/

section
variable {σ : Type} [Endpoint σ] {h k : Handle σ} {c d : Client} {x : σ} {n fuel : Nat}

inductive Acts : Nat → Client → Handle σ → Client → Handle σ → Prop
  | rest {c : Client} {h : Handle σ} (idle : c.activity = .idle) : Acts 0 c h c h
  | step {n : Nat} {c d : Client} {h k : Handle σ} {u : Turn σ} (step : h.step? 0 c = some u)
      (rest : Acts n u.1 u.2 d k) : Acts (n + 1) c h d k

namespace System

theorem advance?_of_step {u : Turn σ} (step : h.step? 0 c = some u) :
    advance? ⟨h, [c]⟩ = some ⟨u.2, [u.1]⟩ := by
  have runs : run? ⟨h, [c]⟩ (.client 0) = some ⟨u.2, [u.1]⟩ := by simp [run?, step, turn]
  simp [advance?, choices, next, runs]

theorem settleFor_of_idle (idle : c.activity = .idle) (stopped : h.listener = .stopped) (fuel : Nat) :
    settleFor fuel ⟨h, [c]⟩ = ⟨h, [c]⟩ := by
  have still : advance? ⟨h, [c]⟩ = none := by
    rw [advance?_of_idle (by simpa using Client.isIdle_iff.mpr idle)]
    simp [run?, stopped]
  cases fuel with
  | zero => rfl
  | succ fuel => rw [settleFor, still]

end System

theorem Acts.settleFor (acts : Acts n c h d k) (stopped : k.listener = .stopped) (enough : n ≤ fuel) :
    System.settleFor fuel ⟨h, [c]⟩ = ⟨k, [d]⟩ := by
  induction acts generalizing fuel with
  | rest idle => exact System.settleFor_of_idle idle stopped fuel
  | step step _ ih =>
    cases fuel with
    | zero => cases enough
    | succ fuel =>
      rw [System.settleFor, System.advance?_of_step step]
      exact ih stopped (Nat.le_of_succ_le_succ enough)

end

/-! ### What reaches the endpoint -/

section
variable {σ : Type} [Endpoint σ]

theorem Gate.writeReport_endpoint (who : Party) (report : Bytes) (g : Gate σ) :
    (g.writeReport who report).2.endpoint = (Endpoint.write report g.endpoint).2 := by
  unfold writeReport
  split
  · rename_i answer
    rw [answer]
  · rename_i answer
    rw [answer]
    dsimp only
    split <;> rfl

theorem Request.set_endpoint (who : Party) (id : UInt8) (data : Bytes) (g : Gate σ) :
    (Request.perform who ⟨.set, id, id :: data⟩ g).2.endpoint = (Endpoint.setFeature (id :: data) g.endpoint).2 := by
  -- the byte replaced is the one that the command has put there
  simp only [perform, set, List.set_cons_zero, Gate.note_endpoint]
  split <;> (rename_i answer; rw [answer])

end

/-! ## Calls -/

namespace Session

/-- The caller is aside, there is no listener, and the endpoint is open and in this state. -/
structure Alone {σ : Type} (s : Session σ) (x : σ) : Prop where
  client : ∃ c, s.clients = [c] ∧ c.isAside = true
  stopped : s.handle.listener = .stopped
  held : s.handle.released = 0
  endpoint : s.handle.gate.endpoint = x

theorem Alone.of {σ : Type} (x : σ) (config : Config) : Alone (of (.fresh x config)) x :=
  ⟨⟨.fresh, rfl, rfl⟩, rfl, rfl, rfl⟩

section
variable {s : Session Node} {h k : Handle Node} {c d : Client} {x y : Node} {n : Nat} {call : Call}
  {reply : Reply}

theorem Alone.shape (alone : Alone s x) : ∃ h c, s = ⟨h, [c]⟩ := by
  obtain ⟨⟨c, only, -⟩, -, -, -⟩ := alone
  exact ⟨s.handle, c, by rw [← only]⟩

theorem Alone.aside (alone : Alone ⟨h, [c]⟩ x) : c.isAside = true := by
  obtain ⟨⟨c', only, aside⟩, -, -, -⟩ := alone
  cases only
  exact aside

theorem Alone.admits (alone : Alone ⟨h, [c]⟩ x) (call : Call) : System.admits ⟨h, [c]⟩ call = true := by
  obtain ⟨idle, permits⟩ := Client.isAside_iff.mp alone.aside
  have held : h.released = 0 := alone.held
  simp [System.admits, System.isQuiet, held, Client.isIdle, idle, permits, Activity.isIdle, Activity.isExclusive]

theorem Alone.remark (alone : Alone s x) (level : Level) (text : String) : Alone (Monitor.remark level text s) x :=
  ⟨alone.client, alone.stopped, alone.held, alone.endpoint⟩

theorem Alone.call_eq (alone : Alone ⟨h, [c]⟩ x)
    (acts : Acts n { c with activity := .enter call, reply := none } h d k) (short : n ≤ 32)
    (stopped : k.listener = .stopped) (replies : d.reply = some reply) :
    Monitor.call call ⟨h, [c]⟩ = (reply, ⟨k, [d]⟩) := by
  have idle : c.isIdle = true := Client.isIdle_iff.mpr (Client.isAside_iff.mp alone.aside).1
  have asked : System.ask? ⟨h, [c]⟩ 0 call = some ⟨h, [{ c with activity := .enter call, reply := none }]⟩ := by
    simp [System.ask?, idle, alone.admits]
  -- however little the endpoint has in store, there is fuel for 32 steps
  have settled : System.settle ⟨h, [{ c with activity := .enter call, reply := none }]⟩ = ⟨k, [d]⟩ := by
    refine acts.settleFor stopped ?_
    unfold System.longestCall
    omega
  have replied : reply? (⟨k, [d]⟩ : Session Node) 0 = some reply := by simp [reply?, replies]
  simp [Monitor.call, call?, asked, settled, replied]

theorem Alone.next (alone : Alone ⟨h, [c]⟩ x) (stopped : k.listener = .stopped) (held : k.released = 0)
    (idle : d.activity = .idle) (permits : d.permits = c.permits) : Alone ⟨k, [d]⟩ k.gate.endpoint :=
  ⟨⟨d, rfl, Client.isAside_iff.mpr ⟨idle, permits.trans (Client.isAside_iff.mp alone.aside).2⟩⟩, stopped, held, rfl⟩

theorem Alone.refused (alone : Alone s x)
    (refuses : ∀ (h : Handle Node) c, c.activity = .enter call → h.step? 0 c = some (c.answer reply, h)) :
    (Monitor.call call s).1 = reply ∧ Alone (Monitor.call call s).2 x := by
  obtain ⟨h, c, rfl⟩ := alone.shape
  have endpoint : h.gate.endpoint = x := alone.endpoint
  rw [alone.call_eq (.step (refuses h _ rfl) (.rest rfl)) (by decide) alone.stopped rfl, ← endpoint]
  exact ⟨rfl, alone.next alone.stopped alone.held rfl rfl⟩

theorem Alone.write_refused (alone : Alone s x) {data : Bytes} {f : Fault}
    (refused : Fault.checkLength data.length maxBuffer = some f) :
    (Monitor.call (.write data) s).1.outcome = .fault f ∧ Alone (Monitor.call (.write data) s).2 x := by
  obtain ⟨replied, same⟩ := @Alone.refused s x (.write data) ⟨.fault f, []⟩ alone fun h c doing => by
    simp only [Handle.step?, doing, Handle.enter, refused, Client.finish]
  exact ⟨congrArg Reply.outcome replied, same⟩

theorem Alone.write (alone : Alone s x) {data : Bytes} (fits : Fault.checkLength data.length maxBuffer = none) :
    Alone (Monitor.call (.write data) s).2 (x.write data).2 := by
  obtain ⟨h, c, rfl⟩ := alone.shape
  have goes (c : Client) (doing : c.activity = .enter (.write data)) :
      h.step? 0 c = some (c.finish (h.gate.writeReport (.client 0) data).1,
        h.onGate (h.gate.writeReport (.client 0) data).2) := by
    simp only [Handle.step?, doing, Handle.enter, fits]
  have endpoint : h.gate.endpoint = x := alone.endpoint
  rw [alone.call_eq (.step (goes _ rfl) (.rest rfl)) (by decide) alone.stopped rfl, ← endpoint]
  have written := Gate.writeReport_endpoint (.client 0) data h.gate
  exact written ▸ alone.next alone.stopped alone.held rfl rfl

theorem Alone.request_refused (alone : Alone s x) {r : Request} {f : Fault} (refused : r.refusal? .feature = some f) :
    (Monitor.call (.request .feature r) s).1.outcome = .fault f ∧ Alone (Monitor.call (.request .feature r) s).2 x := by
  obtain ⟨replied, same⟩ := @Alone.refused s x (.request .feature r) ⟨.fault f, r.buffer⟩ alone fun h c doing => by
    simp only [Handle.step?, doing, Handle.enter, refused]
  exact ⟨congrArg Reply.outcome replied, same⟩

theorem Alone.request (alone : Alone s x) {r : Request} (fits : r.refusal? .feature = none) :
    ∃ g : Gate Node, g.endpoint = x ∧
      Alone (Monitor.call (.request .feature r) s).2 (r.perform (.client 0) g).2.endpoint := by
  obtain ⟨h, c, rfl⟩ := alone.shape
  have unheard : h.listener.isRunning = false := by rw [alone.stopped]; rfl
  have enters (c : Client) (doing : c.activity = .enter (.request .feature r)) :
      h.step? 0 c = some (c.goOn (.exchange r false), h) := by
    simp only [Handle.step?, doing, Handle.enter, fits, unheard]
    rfl
  have exchanges (c : Client) (doing : c.activity = .exchange r false) :
      h.step? 0 c = some (c.goOn (.leave false (r.perform (.client 0) h.gate).1),
        h.onGate (r.perform (.client 0) h.gate).2) := by
    simp only [Handle.step?, doing]
  have leaves (h : Handle Node) (reply : Reply) (c : Client) (doing : c.activity = .leave false reply) :
      h.step? 0 c = some (c.answer reply, h) := by
    simp only [Handle.step?, doing]
    rfl
  have acts := Acts.step (enters { c with activity := .enter (.request .feature r), reply := none } rfl)
    (.step (exchanges _ rfl) (.step (leaves _ _ _ rfl) (.rest rfl)))
  rw [alone.call_eq acts (by decide) alone.stopped rfl]
  exact ⟨h.gate, alone.endpoint, alone.next alone.stopped alone.held rfl rfl⟩

theorem Alone.close (alone : Alone s x) : (Monitor.close s).endpoint = x := by
  obtain ⟨h, c, rfl⟩ := alone.shape
  have unheard : h.listener.isRunning = false := by rw [alone.stopped]; rfl
  have enters (c : Client) (doing : c.activity = .enter .close) : h.step? 0 c = some (c.goOn .release, h) := by
    simp only [Handle.step?, doing, Handle.enter, unheard]
    rfl
  have releases (c : Client) (doing : c.activity = .release) :
      h.step? 0 c = some (c.finish .done, { h with released := h.released + 1 }) := by
    simp only [Handle.step?, doing]
  have acts := Acts.step (enters { c with activity := .enter .close, reply := none } rfl)
    (.step (releases _ rfl) (.rest rfl))
  rw [Monitor.close, alone.call_eq acts (by decide) alone.stopped rfl]
  exact alone.endpoint

end

end Session

/-! ## Commands -/

theorem Node.asked_of_identify {x y : Node} {identity : Identity} (answered : x.identify = (.ok identity, y)) :
    y = x.ask .identify := by
  unfold identify at answered
  split at answered
  · cases answered
  · cases answered
  · cases answered
    rfl

/-- A node that was opened has been asked who the device is, and nothing else yet. -/
theorem Opening.fresh_of_run {find : String → Except SystemError Place} {driver : Node.Driver} {config : Config}
    {path : String} {h : Handle Node} (opens : (run find driver config none path).result = .ok h) :
    path.isEmpty = false ∧ ∃ medium, h = .fresh ((Node.opened path medium driver).ask .identify) config := by
  unfold run at opens
  split at opens
  · cases opens
  · rename_i given
    refine ⟨by simpa using given, ?_⟩
    split at opens
    · cases opens
    · split at opens
      · cases opens
      · rename_i medium _
        refine ⟨medium, ?_⟩
        unfold identified at opens
        split at opens
        · cases opens
        · rename_i answered
          cases opens
          rw [Node.asked_of_identify answered]

namespace Monitor

open HexByte (IsToken)
open Session (Alone)

def Transcript.Sent (requests : List Node.Control) (writes : List Bytes) (t : Transcript) : Prop :=
  ∃ node, t.node = some node ∧ node.requests = requests ∧ node.writes = writes

/-- The command failed over a length, which is none that a buffer may have. -/
structure Transcript.Misfit (doing : String) (length : Nat) (t : Transcript) : Prop where
  exit : t.exit = some 1
  message : t.message = some (reportFault doing (.invalidArgument (.length length maxBuffer)))

section
variable {s : Session Node} {x : Node} {id : UInt8} {data : Bytes} {w : Work}

theorem Work.endpoint_closed (alone : Alone w.session x) : w.closed.endpoint = x := by
  unfold Work.closed
  split
  · exact alone.endpoint
  · exact alone.close

theorem write_alone (alone : Alone s x) (fits : Fault.checkLength data.length maxBuffer = none) :
    Alone (write data s).session (x.write data).2 := by
  have written := alone.write fits
  unfold write
  dsimp only
  split
  · exact written.remark ..
  · exact written

theorem write_refused (alone : Alone s x) {f : Fault} (refused : Fault.checkLength data.length maxBuffer = some f) :
    (write data s).finish = .failed (reportFault "Output report write failed" f) ∧ Alone (write data s).session x := by
  obtain ⟨fault, same⟩ := alone.write_refused refused
  unfold write
  dsimp only
  rw [fault]
  exact ⟨rfl, same⟩

theorem setFeature_alone (alone : Alone s x) (fits : Fault.checkLength (id :: data).length maxBuffer = none) :
    Alone (setFeature id data s).session (x.setFeature (id :: data)).2 := by
  have clear : Request.refusal? .feature ⟨.set, id, id :: data⟩ = none := by
    rw [Request.refusal?, fits]
    rfl
  obtain ⟨g, endpoint, asked⟩ := alone.request clear
  rw [Request.set_endpoint, endpoint] at asked
  unfold setFeature
  dsimp only
  split
  · exact asked.remark ..
  · exact asked

theorem setFeature_refused (alone : Alone s x) {f : Fault}
    (refused : Fault.checkLength (id :: data).length maxBuffer = some f) :
    (setFeature id data s).finish = .failed (reportFault ("SET_FEATURE " ++ named id ++ " failed") f) ∧
      Alone (setFeature id data s).session x := by
  have refusal : Request.refusal? .feature ⟨.set, id, id :: data⟩ = some f := by rw [Request.refusal?, refused]
  obtain ⟨fault, same⟩ := alone.request_refused refusal
  unfold setFeature
  dsimp only
  rw [fault]
  exact ⟨rfl, same⟩

end

/-! ## Whole runs -/

section
variable {find : String → Except SystemError Place} {driver : Node.Driver} {config : Config} {h : Handle Node}
  {memory : Memory} {w : Work} {x : Node} {args : List String} {options : Options}

theorem Work.sent (alone : Alone w.session x) (options : Options) (opened : List Notice) :
    (w.transcript options opened).Sent x.requests x.writes :=
  ⟨_, rfl, congrArg Node.requests (Work.endpoint_closed alone), congrArg Node.writes (Work.endpoint_closed alone)⟩

theorem Work.misfit {doing : String} {length : Nat} (options : Options) (opened : List Notice)
    (failed : w.finish = .failed (reportFault doing (.invalidArgument (.length length maxBuffer)))) :
    (w.transcript options opened).Misfit doing length :=
  ⟨congrArg Finish.exit failed, congrArg Finish.message? failed⟩

theorem run_of_open (line : read args = .ok options) (configured : settings find options.config = .ok config)
    (opens : (Opening.run find driver config none options.command.node).result = .ok h) :
    ∃ opened, run find driver args memory = (work memory (.of h) options.command).transcript options opened := by
  simp only [run, line, perform, configured, opens]
  exact ⟨_, rfl⟩

end

section
variable {find : String → Except SystemError Place} {driver : Node.Driver} {memory : Memory} {path : Option String}
  {config : Config} {h : Handle Node} {node id : String} {args texts : List String} {r : UInt8} {ds : Bytes}

theorem run_setFeature (line : Line .setFeature (node :: id :: texts) path args)
    (configured : settings find path = .ok config)
    (opens : (Opening.run find driver config none node).result = .ok h) (byte : IsToken r id.toList)
    (spell : Spell ds texts) (nonempty : ds ≠ []) :
    let t := run find driver args memory
    if ds.length + 1 ≤ maxBuffer then t.Sent [.identify, .setFeature (r :: ds)] []
    else t.Sent [.identify] [] ∧ t.Misfit ("SET_FEATURE " ++ named r ++ " failed") (ds.length + 1) := by
  obtain ⟨given, medium, rfl⟩ := Opening.fresh_of_run opens
  obtain ⟨verbose, read⟩ := line.read_setFeature given byte spell nonempty
  obtain ⟨opened, ran⟩ := run_of_open read configured opens
  have alone := Alone.of ((Node.opened node medium driver).ask .identify) config
  intro t
  rw [show t = _ from ran]
  split
  · rename_i fits
    have checked : Fault.checkLength (r :: ds).length maxBuffer = none :=
      Fault.checkLength_eq_none.mpr ⟨Nat.le_add_left 1 ds.length, fits⟩
    exact Work.sent (setFeature_alone alone checked) _ opened
  · rename_i beyond
    have checked : Fault.checkLength (r :: ds).length maxBuffer = _ :=
      Fault.checkLength_of_outside (.inr (Nat.lt_of_not_le beyond))
    obtain ⟨failed, same⟩ := setFeature_refused alone checked
    exact ⟨Work.sent same _ opened, Work.misfit _ opened failed⟩

theorem run_write (line : Line .write (node :: texts) path args) (configured : settings find path = .ok config)
    (opens : (Opening.run find driver config none node).result = .ok h) (spell : Spell ds texts) (nonempty : ds ≠ []) :
    let t := run find driver args memory
    if ds.length ≤ maxBuffer then t.Sent [.identify] [ds]
    else t.Sent [.identify] [] ∧ t.Misfit "Output report write failed" ds.length := by
  obtain ⟨given, medium, rfl⟩ := Opening.fresh_of_run opens
  obtain ⟨verbose, read⟩ := line.read_write given spell nonempty
  obtain ⟨opened, ran⟩ := run_of_open read configured opens
  have alone := Alone.of ((Node.opened node medium driver).ask .identify) config
  intro t
  rw [show t = _ from ran]
  split
  · rename_i fits
    have checked : Fault.checkLength ds.length maxBuffer = none :=
      Fault.checkLength_eq_none.mpr ⟨List.length_pos_iff.mpr nonempty, fits⟩
    exact Work.sent (write_alone alone checked) _ opened
  · rename_i beyond
    obtain ⟨failed, same⟩ := write_refused alone (Fault.checkLength_of_outside (.inr (Nat.lt_of_not_le beyond)))
    exact ⟨Work.sent same _ opened, Work.misfit _ opened failed⟩

end

/-- Bytes read back from what is shown of them are the same, and so are those that come to a node from a command line,
wherever its options stand. The pieces of a text are those between its spaces, but for an empty text: only if there are
no bytes is what is shown of them one. -/
theorem bytes_arrive (find : String → Except SystemError Place) (driver : Node.Driver) (memory : Memory) :
    (∀ bs : Bytes, (Hex.pieces (Hex.spaced bs)).mapM HexByte.read = .ok bs ∧
      ((Hex.spaced bs).toList.splitOn ' ' = Hex.pieces (Hex.spaced bs) ↔ bs ≠ []) ∧
      (bs ≠ [] → ((Hex.spaced bs).toList.splitOn ' ').mapM HexByte.read = .ok bs)) ∧
    ∀ {r : UInt8} {ds : Bytes} {id node : String} {texts : List String},
      IsToken r id.toList → Spell ds texts → ds ≠ [] →
      ∀ {args : List String} {path : Option String} {config : Config} {h : Handle Node},
        settings find path = .ok config → (Opening.run find driver config none node).result = .ok h →
        let t := run find driver args memory
        (Line .setFeature (node :: id :: texts) path args →
          if ds.length + 1 ≤ 4096 then t.Sent [.identify, .setFeature (r :: ds)] []
          else t.Sent [.identify] [] ∧ t.Misfit ("SET_FEATURE " ++ named r ++ " failed") (ds.length + 1)) ∧
        (Line .write (node :: texts) path args →
          if ds.length ≤ 4096 then t.Sent [.identify] [ds]
          else t.Sent [.identify] [] ∧ t.Misfit "Output report write failed" ds.length) := by
  refine ⟨fun bs => ⟨?_, Hex.splitOn_eq_pieces_iff, fun nonempty => ?_⟩, ?_⟩
  · rw [Hex.pieces_spaced, HexByte.read_pieces]
  · rw [Hex.splitOn_spaced nonempty, HexByte.read_pieces]
  · intro r ds id node texts byte spell nonempty args path config h configured opens
    exact ⟨fun line => run_setFeature line configured opens byte spell nonempty,
      fun line => run_write line configured opens spell nonempty⟩

/-- An option stands before the name of one command, and among the texts of the other. -/
theorem bytes_arrive_at_null :
    let find := fun path => if path = "null" then .ok Place.null else .error (.code Errno.notFound)
    let driver := ⟨some (.ok ⟨3, 0x46d, 0xc52b⟩), .empty⟩
    (run find driver ["-v", "set-feature", "null", "0x11", "ff", "0X0a"]).Sent
      [.identify, .setFeature [0x11, 0xff, 0x0a]] [] ∧
    (run find driver ["write", "null", "--verbose", "--", "ff", "0X0a"]).Sent [.identify] [[0xff, 0x0a]] := by
  intro find driver
  have id : IsToken 0x11 "0x11".toList := .marked (.inl rfl)
  have spell : Spell [0xff, 0x0a] ["ff", "0X0a"] := .cons .bare (.cons (.marked (.inr rfl)) .nil)
  have plain : Argument.of "null" = .plain "null" := by decide
  have set : Line .setFeature ["null", "0x11", "ff", "0X0a"] none ["-v", "set-feature", "null", "0x11", "ff", "0X0a"] :=
    .mk (.verbose (.inl rfl) .nil) (.text (.inr plain) (.text (.inr (Argument.of_token id)) (spell.after false)))
  have write : Line .write ["null", "ff", "0X0a"] none ["write", "null", "--verbose", "--", "ff", "0X0a"] :=
    .mk .nil (.text (.inr plain) (.verbose (.inr rfl) (.separator (spell.after true))))
  exact ⟨((bytes_arrive find driver .addressable).2 id spell (by decide) rfl rfl).1 set,
    ((bytes_arrive find driver .addressable).2 id spell (by decide) rfl rfl).2 write⟩

end Monitor

end HidGate
