import HidGate.Opening
import HidGate.Session

/-!
# What becomes of an error number

A system call that fails does so with a number, and the operation that made it hands this number on, negated. Calls
on a file hand on the number as it is. Polls, control requests and the making of a pipe look it up in the table of
named numbers first, and a number without a name is lost there.
-/

namespace HidGate

inductive SystemCall
  | openFile
  | identify
  | makePipe
  | poll
  | read
  | write
  | getFeature
  | setFeature
  deriving DecidableEq, Repr

namespace SystemCall

def isTabled : SystemCall → Bool
  | .openFile | .read | .write => false
  | _ => true

def reported (c : SystemCall) (n : Int) : Int := if c.isTabled && !Errno.named n then 0 else n

end SystemCall

/-! ## Where calls fail -/

def Opening.file (find : String → Except SystemError Place) (path : String) : Except SystemError Node.Medium :=
  match find path with
  | .error e => .error e
  | .ok place =>
    match Node.Medium.of? place with
    | none => .error (.code Errno.isDirectory)
    | some medium => .ok medium

def Node.Driver.refusal? (d : Node.Driver) : Option Int :=
  match d.identity with
  | none => some Errno.notTerminal
  | some (.error n) => some n
  | some (.ok _) => none

inductive Operation (σ : Type)
  | openNode (find : String → Except SystemError Place) (driver : Node.Driver) (config : Config)
      (pipeFault : Option Int) (path : String)
  | make (pipeFault : Option Int) (config : Config) (endpoint : σ)
  | info (h : Handle Node)
  | call (k : Nat) (client : Client) (h : Handle σ)
  | request (k : Nat) (client : Client) (h : Handle Node)

variable {σ : Type} [Endpoint σ]

/-- The operation makes the system call now, and the call fails with the number. -/
inductive Operation.Meets : Operation σ → SystemCall → Int → Prop
  | openFile {find : String → Except SystemError Place} {driver : Node.Driver} {config : Config}
      {pipeFault : Option Int} {path : String} {n : Int} (given : path.isEmpty = false)
      (fails : Opening.file find path = .error (.code n)) :
      Meets (.openNode find driver config pipeFault path) .openFile n
  | openIdentify {find : String → Except SystemError Place} {driver : Node.Driver} {config : Config}
      {pipeFault : Option Int} {path : String} {medium : Node.Medium} {n : Int} (given : path.isEmpty = false)
      (opens : Opening.file find path = .ok medium) (fails : driver.refusal? = some n) :
      Meets (.openNode find driver config pipeFault path) .identify n
  | openPipe {find : String → Except SystemError Place} {driver : Node.Driver} {config : Config}
      {path : String} {medium : Node.Medium} {n : Int} (given : path.isEmpty = false)
      (opens : Opening.file find path = .ok medium) (answers : driver.refusal? = none) :
      Meets (.openNode find driver config (some n) path) .makePipe n
  | makePipe {config : Config} {endpoint : σ} {n : Int} : Meets (.make (some n) config endpoint) .makePipe n
  | identify {h : Handle Node} {n : Int} (fails : h.gate.endpoint.driver.refusal? = some n) :
      Meets (.info h) .identify n
  | poll {k : Nat} {client : Client} {h : Handle σ} {buffer : Bytes} {propagate : Bool} {n : Int} {x : σ}
      (doing : client.activity = .read .poll buffer propagate)
      (fails : Endpoint.pollFault? h.gate.endpoint = some (n, x)) : Meets (.call k client h) .poll n
  | read {k : Nat} {client : Client} {h : Handle σ} {buffer : Bytes} {propagate : Bool} {n : Int} {x : σ}
      (doing : client.activity = .read .fetch buffer propagate)
      (fails : Endpoint.fetch? h.gate.endpoint = some (.error (.code n), x)) : Meets (.call k client h) .read n
  | write {k : Nat} {client : Client} {h : Handle σ} {report : Bytes} {n : Int}
      (doing : client.activity = .enter (.write report))
      (fine : Fault.checkLength report.length maxBuffer = none)
      (fails : (Endpoint.write report h.gate.endpoint).1 = .error (.code n)) : Meets (.call k client h) .write n
  | getFeature {k : Nat} {client : Client} {h : Handle Node} {r : Request} {exclusive : Bool} {n : Int}
      (doing : client.activity = .exchange r exclusive) (direction : r.direction = .get)
      (fails : h.gate.endpoint.driver.features.get r.scratch = .error n) : Meets (.request k client h) .getFeature n
  | setFeature {k : Nat} {client : Client} {h : Handle Node} {r : Request} {exclusive : Bool} {n : Int}
      (doing : client.activity = .exchange r exclusive) (direction : r.direction = .set)
      (fails : (h.gate.endpoint.driver.features.set (r.buffer.set 0 r.id)).1 = .error n) :
      Meets (.request k client h) .setFeature n

/-! ## How operations end -/

/-- Client `k` ends its call with fault `f`, whatever others make of the handle between two of its steps. -/
inductive Handle.Fails (k : Nat) (f : Fault) : Client → Handle σ → Prop
  | now {client client' : Client} {h h' : Handle σ} {buffer : Bytes}
      (step : h.step? k client = some (client', h')) (idle : client'.activity = .idle)
      (told : client'.reply = some ⟨.fault f, buffer⟩) : Fails k f client h
  | later {client client' : Client} {h h' : Handle σ} (step : h.step? k client = some (client', h'))
      (rest : ∀ h'', Fails k f client' h'') : Fails k f client h

def Operation.Ends : Operation σ → Fault → Prop
  | .openNode find driver config pipeFault path, f => (Opening.run find driver config pipeFault path).result = .error f
  | .make pipeFault config endpoint, f => ∃ notice, Handle.make pipeFault config endpoint = .error (f, notice)
  | .info h, f => h.info.1 = .error f
  | .call k client h, f => Handle.Fails k f client h
  | .request k client h, f => Handle.Fails k f client h

theorem Handle.Fails.unique {k : Nat} {f f' : Fault} {client : Client} {h : Handle σ}
    (fails : Handle.Fails k f client h) (fails' : Handle.Fails k f' client h) : f' = f := by
  induction fails with
  | now step idle told =>
    cases fails' with
    | now step' _ told' =>
      cases step.symm.trans step'
      cases told.symm.trans told'
      rfl
    | later step' rest' =>
      -- an idle client has no further step
      cases step.symm.trans step'
      have stuck : ∀ h'' : Handle σ, h''.step? k _ = none := fun h'' => by unfold step?; rw [idle]
      cases rest' h with
      | now step'' => rw [stuck] at step''; cases step''
      | later step'' => rw [stuck] at step''; cases step''
  | @later client₁ client₂ h₁ h₂ step rest ih =>
    cases fails' with
    | now step' idle' told' =>
      cases step.symm.trans step'
      have stuck : h₁.step? k client₂ = none := by unfold step?; rw [idle']
      cases rest h₁ with
      | now step'' => rw [stuck] at step''; cases step''
      | later step'' => rw [stuck] at step''; cases step''
    | later step' rest' =>
      cases step.symm.trans step'
      exact ih h₁ (rest' h₁)

theorem Operation.ends_unique {o : Operation σ} {f f' : Fault} (ends : o.Ends f) (ends' : o.Ends f') : f' = f := by
  cases o with
  | openNode | info => exact Except.error.inj (ends'.symm.trans ends)
  | make =>
    obtain ⟨notice, ends⟩ := ends
    obtain ⟨notice', ends'⟩ := ends'
    exact (Prod.mk.inj (Except.error.inj (ends'.symm.trans ends))).1
  | call | request => exact Handle.Fails.unique ends ends'

/-! ## The faults -/

namespace SystemCall

def fault (c : SystemCall) (n : Int) : Fault :=
  match c with
  | .openFile | .read | .write => .io (.code n)
  | .identify | .getFeature | .setFeature => .io (.tabled n)
  | .makePipe => .setup (.tabled n)
  | .poll => .ofPoll n

theorem number_tabled (n : Int) : (SystemError.tabled n).number = if Errno.named n then n else 0 := rfl

theorem code_ofPoll (n : Int) : (Fault.ofPoll n).code = if Errno.named n then n else 0 := by
  unfold Fault.ofPoll
  by_cases h : n = Errno.interrupted
  · subst h; rfl
  · rw [if_neg h]; rfl

theorem code_fault (c : SystemCall) (n : Int) : (c.fault n).code = c.reported n := by
  unfold reported
  cases c with
  | openFile | read | write => rfl
  | poll =>
    rw [fault, code_ofPoll]
    cases Errno.named n <;> rfl
  | identify | makePipe | getFeature | setFeature =>
    simp only [fault, Fault.code, number_tabled]
    cases Errno.named n <;> rfl

theorem errno?_fault (c : SystemCall) {n : Int} (positive : 0 < n) : (c.fault n).errno? = some (-c.reported n) := by
  have sign : 0 ≤ c.reported n := by
    unfold reported
    split <;> omega
  have least : c.reported n ≠ -0x80000000 := by omega
  unfold Fault.errno?
  rw [code_fault, if_neg least]

theorem reported_eq_iff (c : SystemCall) {n : Int} (positive : 0 < n) :
    c.reported n = n ↔ (c.isTabled = true → Errno.named n = true) := by
  unfold reported
  cases c.isTabled with
  | false => simp
  | true =>
    cases Errno.named n with
    | true => simp
    | false => simp; omega

end SystemCall

/-! ## Each operation ends with its fault -/

theorem Opening.run_of_file_error {find : String → Except SystemError Place} {path : String} {e : SystemError}
    (driver : Node.Driver) (config : Config) (pipeFault : Option Int) (given : path.isEmpty = false)
    (fails : file find path = .error e) : run find driver config pipeFault path = unopened (.io e) [.file] := by
  unfold file at fails
  unfold run
  rw [given]
  cases hf : find path with
  | error e' => rw [hf] at fails; cases fails; rfl
  | ok place =>
    rw [hf] at fails
    cases hm : Node.Medium.of? place with
    | none => simp only [hm] at fails ⊢; cases fails; rfl
    | some medium => simp only [hm] at fails; cases fails

theorem Opening.run_of_file {find : String → Except SystemError Place} {path : String} {medium : Node.Medium}
    (driver : Node.Driver) (config : Config) (pipeFault : Option Int) (given : path.isEmpty = false)
    (opens : file find path = .ok medium) :
    run find driver config pipeFault path = identified config pipeFault (.opened path medium driver) := by
  unfold file at opens
  unfold run
  rw [given]
  cases hf : find path with
  | error e' => rw [hf] at opens; cases opens
  | ok place =>
    rw [hf] at opens
    cases hm : Node.Medium.of? place with
    | none => simp only [hm] at opens; cases opens
    | some medium' => simp only [hm] at opens ⊢; cases opens; rfl

/-- A driver that gives no identity may still have been asked for one. -/
theorem Node.identify_of_refusal {node : Node} {n : Int} (fails : node.driver.refusal? = some n) :
    ∃ asked, node.identify = (.error (.tabled n), asked) ∧ asked.path = node.path := by
  unfold Driver.refusal? at fails
  unfold identify
  cases hd : node.driver.identity with
  | none => rw [hd] at fails; cases fails; exact ⟨node, rfl, rfl⟩
  | some answer =>
    cases answer with
    | error e => rw [hd] at fails; cases fails; exact ⟨node.ask .identify, rfl, rfl⟩
    | ok raw => rw [hd] at fails; cases fails

theorem Node.identify_of_answer (node : Node) (answers : node.driver.refusal? = none) :
    ∃ raw, node.identify = (.ok (.ofRaw raw), node.ask .identify) := by
  unfold Driver.refusal? at answers
  unfold identify
  cases hd : node.driver.identity with
  | none => rw [hd] at answers; cases answers
  | some answer =>
    cases answer with
    | error e => rw [hd] at answers; cases answers
    | ok raw => exact ⟨raw, rfl⟩

theorem Opening.identified_of_refusal (node : Node) {n : Int} (config : Config) (pipeFault : Option Int)
    (fails : node.driver.refusal? = some n) :
    ∃ asked, asked.path = node.path ∧ identified config pipeFault node =
      letGo (.io (.tabled n)) [.file, .identity] [.unidentified node.path (.io (.tabled n))] asked := by
  obtain ⟨asked, refused, path⟩ := Node.identify_of_refusal fails
  refine ⟨asked, path, ?_⟩
  unfold identified
  rw [refused, ← path]

theorem Opening.identified_of_pipe (node : Node) (config : Config) (n : Int)
    (answers : node.driver.refusal? = none) :
    ∃ raw, identified config (some n) node = letGo (.setup (.tabled n)) [.file, .identity, .pipe]
      [.opened node.path (.ofRaw raw), .setupFailed (.tabled n)] (node.ask .identify) := by
  obtain ⟨raw, answered⟩ := Node.identify_of_answer node answers
  refine ⟨raw, ?_⟩
  unfold identified
  rw [answered]
  rfl

theorem Request.perform_of_refusal {r : Request} {who : Party} {g : Gate Node} {n : Int}
    (fails : (r.direction = .get ∧ g.endpoint.driver.features.get r.scratch = .error n) ∨
      (r.direction = .set ∧ (g.endpoint.driver.features.set (r.buffer.set 0 r.id)).1 = .error n)) :
    ∃ buffer, (r.perform who g).1 = ⟨.fault (.io (.tabled n)), buffer⟩ := by
  unfold perform
  obtain ⟨direction, fails⟩ | ⟨direction, fails⟩ := fails
  · rw [direction]
    simp only [get, Endpoint.getFeature, Node.getFeature, fails]
    exact ⟨_, rfl⟩
  · rw [direction]
    simp only [set, Endpoint.setFeature, Gate.note_endpoint, Node.setFeature, fails]
    exact ⟨_, rfl⟩

namespace Handle

variable {k : Nat} {client : Client} {h : Handle σ}

theorem fails_of_reading {st : ReadStage} {buffer : Bytes} {propagate : Bool} {f : Fault} {g : Gate σ}
    (doing : client.activity = .read st buffer propagate)
    (step : st.step? (.client k) propagate h.gate = some (.ended (.error f), g)) : Fails k f client h := by
  have answers : h.step? k client = some (client.answer ⟨.fault f, buffer⟩, h.onGate g) := by
    unfold step?
    rw [doing]
    simp only [step, Option.map_some]
    rfl
  exact .now answers rfl rfl

theorem fails_of_exchange {r : Request} {exclusive : Bool} {f : Fault} {buffer : Bytes}
    (doing : client.activity = .exchange r exclusive)
    (answered : (r.perform (.client k) h.gate).1 = ⟨.fault f, buffer⟩) : Fails k f client h := by
  -- the answer stands when the request is made, and the client leaves with it whatever comes between
  have asks : h.step? k client = some (client.goOn (.leave exclusive ⟨.fault f, buffer⟩),
      h.onGate (r.perform (.client k) h.gate).2) := by
    unfold step?
    rw [doing]
    simp only [answered]
  refine .later asks fun h' => ?_
  have leaves : h'.step? k (client.goOn (.leave exclusive ⟨.fault f, buffer⟩)) =
      some ((client.goOn (.leave exclusive ⟨.fault f, buffer⟩)).answer ⟨.fault f, buffer⟩,
        if exclusive then h'.withLock h'.gate.lock.release else h') := rfl
  exact .now leaves rfl rfl

theorem fails_of_write {report : Bytes} {e : SystemError} (doing : client.activity = .enter (.write report))
    (fine : Fault.checkLength report.length maxBuffer = none)
    (fails : (Endpoint.write report h.gate.endpoint).1 = .error e) : Fails k (.io e) client h := by
  have told : (h.gate.writeReport (.client k) report).1 = .fault (.io e) := by
    unfold Gate.writeReport
    generalize Endpoint.write report h.gate.endpoint = answer at fails
    obtain ⟨result, x⟩ := answer
    cases fails
    rfl
  have answers : h.step? k client = some (client.finish (.fault (.io e)),
      h.onGate (h.gate.writeReport (.client k) report).2) := by
    unfold step?
    rw [doing]
    simp only [enter, fine, told]
  exact .now answers rfl rfl

end Handle

theorem Operation.Meets.ends {o : Operation σ} {c : SystemCall} {n : Int} (meets : o.Meets c n) :
    o.Ends (c.fault n) := by
  cases meets with
  | openFile given fails =>
    rw [Ends, Opening.run_of_file_error _ _ _ given fails]
    rfl
  | @openIdentify _ driver config pipeFault path medium _ given opens fails =>
    obtain ⟨asked, -, whole⟩ :=
      Opening.identified_of_refusal (.opened path medium driver) config pipeFault fails
    rw [Ends, Opening.run_of_file _ _ _ given opens, whole]
    rfl
  | @openPipe _ driver config path medium n given opens answers =>
    obtain ⟨raw, whole⟩ := Opening.identified_of_pipe (.opened path medium driver) config n answers
    rw [Ends, Opening.run_of_file _ _ _ given opens, whole]
    rfl
  | makePipe => exact ⟨_, rfl⟩
  | @identify h n fails =>
    obtain ⟨asked, refused, -⟩ := Node.identify_of_refusal fails
    simp only [Ends, Handle.info, refused]
    rfl
  | @poll k client h _ propagate n x doing fails =>
    have step : ReadStage.step? (.client k) propagate .poll h.gate =
        some (.ended (.error (.ofPoll n)), { h.gate with endpoint := x }) := by
      simp only [ReadStage.step?, Gate.poll?, fails]
    exact Handle.fails_of_reading doing step
  | @read k client h _ propagate n x doing fails =>
    have step : ReadStage.step? (.client k) propagate .fetch h.gate =
        some (.ended (.error (.io (.code n))), { h.gate with endpoint := x }) := by
      simp only [ReadStage.step?, Gate.fetch?, fails, Option.map_some]
    exact Handle.fails_of_reading doing step
  | write doing fine fails => exact Handle.fails_of_write doing fine fails
  | getFeature doing direction fails =>
    obtain ⟨buffer, answered⟩ := Request.perform_of_refusal (.inl ⟨direction, fails⟩)
    exact Handle.fails_of_exchange doing answered
  | setFeature doing direction fails =>
    obtain ⟨buffer, answered⟩ := Request.perform_of_refusal (.inr ⟨direction, fails⟩)
    exact Handle.fails_of_exchange doing answered

/-! ## The numbers -/

/-- An operation whose system call fails ends with a fault, and with no other. Its number is that of the call,
negated, unless the call reports through the table and the number has no name: then it is zero. A file's opening has
failed when the system has given up on it, and not when a signal interrupts one attempt. -/
theorem errno_kept_iff {o : Operation σ} {c : SystemCall} {n : Int} (positive : 0 < n) (meets : o.Meets c n) :
    ∃ f, o.Ends f ∧ (∀ f', o.Ends f' → f' = f) ∧ f.errno? = some (-c.reported n) ∧
      (f.errno? = some (-n) ↔ (c.isTabled = true → Errno.named n = true)) := by
  have ends := meets.ends
  have told := c.errno?_fault positive
  refine ⟨c.fault n, ends, fun f' ends' => Operation.ends_unique ends ends', told, ?_⟩
  rw [told, ← c.reported_eq_iff positive]
  constructor
  · intro same
    have := Option.some.inj same
    omega
  · intro same
    rw [same]

/-- A client asks for a feature report of a device that is gone. -/
theorem errno_kept_of_gone :
    let driver : Node.Driver := ⟨some (.ok ⟨3, 1, 2⟩), .put 1 (.fault 19) .empty⟩
    let client : Client := ⟨.exchange ⟨.get, 1, [7, 7]⟩ true, [], none⟩
    let o : Operation Node := .request 0 client (.fresh (.opened "node" (.pipe []) driver) .standard)
    o.Meets .getFeature 19 ∧ ∃ f, o.Ends f ∧ f.errno? = some (-19) := by
  intro driver client o
  have meets : o.Meets .getFeature 19 := .getFeature rfl rfl rfl
  obtain ⟨f, ends, -, -, kept⟩ := errno_kept_iff (by decide) meets
  exact ⟨meets, f, ends, kept.mpr fun _ => rfl⟩

/-- A driver may refuse a request with a number that is not in the table. The caller is told of a fault whose number
is zero, which is that of a success. -/
theorem errno_lost_to_table :
    let driver : Node.Driver := ⟨some (.ok ⟨3, 1, 2⟩), .put 1 (.fault 524) .empty⟩
    let s := Session.of (Handle.fresh (Node.opened "node" (.pipe []) driver) .standard)
    driver.features.get [1, 0] = .error 524 ∧
      ∃ f, (Session.call? (.request .feature ⟨.get, 1, [0, 0]⟩) s).map Prod.fst = some ⟨.fault f, [0, 0]⟩ ∧
        f.errno? = some 0 ∧ f.errno? ≠ some (-524) := by
  intro driver s
  exact ⟨rfl, .io (.tabled 524), by decide +kernel, by decide, by decide⟩

end HidGate
