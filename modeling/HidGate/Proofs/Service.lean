import HidGate.Proofs.Operations
import HidGate.Proofs.Separate

/-!
# What requests and writes are answered

A request or a write is answered by the features, the rule for writes and nothing else. So the replies of a
caller's requests and writes, and what they leave behind, can be told from these calls alone, whatever the
listener does and whatever else the caller does.
-/

namespace HidGate

variable {σ : Type} [Endpoint σ] [Surroundings σ] [Separate σ]

open Separate

/-! ## One call -/

def Call.serve (c : Call) (b : σ) : Reply × σ :=
  match c with
  | .request kind r =>
    match r.refusal? kind with
    | some f => (⟨.fault f, r.buffer⟩, b)
    | none => ((r.perform (.client 0) (.fresh b)).1, (r.perform (.client 0) (.fresh b)).2.endpoint)
  | .write report =>
    match Fault.checkLength report.length maxBuffer with
    | some f => (⟨.fault f, []⟩, b)
    | none =>
      (⟨((Gate.fresh b).writeReport (.client 0) report).1, []⟩,
        ((Gate.fresh b).writeReport (.client 0) report).2.endpoint)
  | _ => (⟨.done, []⟩, b)

theorem Call.serve_output (c : Call) {b b' : σ} (h : output b = output b') :
    (c.serve b).1 = (c.serve b').1 ∧ output (c.serve b).2 = output (c.serve b').2 := by
  cases c with
  | request kind r =>
    simp only [serve]
    split
    · exact ⟨rfl, h⟩
    · exact r.perform_output (.client 0) (.client 0)
        (show output (Gate.fresh b).endpoint = output (Gate.fresh b').endpoint from h)
  | write report =>
    simp only [serve]
    split
    · exact ⟨rfl, h⟩
    · obtain ⟨reply, rest⟩ := Gate.writeReport_output (.client 0) (.client 0) report
        (show output (Gate.fresh b).endpoint = output (Gate.fresh b').endpoint from h)
      exact ⟨by rw [reply], rest⟩
  | _ => exact ⟨rfl, h⟩

/-! ## Many calls -/

namespace Event

def isSetting : Event σ → Bool
  | .incident i => Separate.isSetting i
  | _ => false

def isOutward (e : Event σ) : Bool := e.isExchange || e.isSetting

end Event

def serveAll : List (Event σ) → σ → List (Call × Reply) × σ
  | [], b => ([], b)
  | .move (.ask _ c) :: es, b => ((c, (c.serve b).1) :: (serveAll es (c.serve b).2).1, (serveAll es (c.serve b).2).2)
  | .move _ :: es, b => serveAll es b
  | .incident i :: es, b => serveAll es (Surroundings.befall i b)

omit [Separate σ] in
theorem serveAll_append (es es' : List (Event σ)) (b : σ) :
    serveAll (es ++ es') b =
      ((serveAll es b).1 ++ (serveAll es' (serveAll es b).2).1, (serveAll es' (serveAll es b).2).2) := by
  induction es generalizing b with
  | nil => rfl
  | cons e es ih =>
    cases e with
    | incident i => exact ih _
    | move m =>
      cases m with
      | ask n c => simp only [List.cons_append, serveAll, ih]
      | run | expire => exact ih _

namespace Handle

variable {n : Nat} {c d : Client} {h h' : Handle σ}

theorem output_of_step? (hs : h.step? n c = some (d, h')) (kept : c.activity.isExchange = false) :
    output h'.gate.endpoint = output h.gate.endpoint ∧ d.activity.isExchange = false := by
  cases clientStep hs with
  | steals doing enter =>
    rw [doing] at kept
    rcases call_of_steals enter with ⟨rfl, rfl⟩ | ⟨kind, r, rfl, rfl, -⟩
    · exact ⟨rfl, rfl⟩
    · cases kept
  | unlocks => exact ⟨by split <;> rfl, rfl⟩
  | requests doing | writes doing | exchanges doing | leaves doing => rw [doing] at kept; cases kept
  | propagates => exact ⟨congrArg output (Gate.propagateReport_endpoint ..), rfl⟩
  | @stealing st st' errand l doing =>
    rw [doing] at kept
    cases errand with
    | permit => exact ⟨rfl, rfl⟩
    | request => cases kept
  | @stolen errand doing =>
    rw [doing] at kept
    cases errand with
    | permit => exact ⟨rfl, rfl⟩
    | request => cases kept
  | @reading st buffer propagate next g doing step =>
    refine ⟨step.output_eq, ?_⟩
    rcases next with st | (f | report) | _ <;> rfl
  | halting _ step => exact ⟨congrArg output (halt?_kept step).1, rfl⟩
  | @halted st closing h' _ step =>
    refine ⟨congrArg output (halt?_kept step).1, ?_⟩
    cases closing <;> rfl
  | answered | granted | reads | registers | starts | stops | closes | releases => exact ⟨rfl, rfl⟩

end Handle

def Activity.said? : Activity → Option Reply
  | .leave _ reply => some reply
  | _ => none

namespace System

/-! ## What is still to be done and said -/

/-- What the rest of the call under way brings: a reply if it is a request or a write, and the endpoint. -/
def due (call? : Option Call) (a : Activity) (b : σ) : List (Call × Reply) × σ :=
  match call? with
  | none => ([], b)
  | some call =>
    match a.said? with
    | some reply => ([(call, reply)], b)
    | none => if a.isExchange then ([(call, (call.serve b).1)], (call.serve b).2) else ([], b)

omit [Surroundings σ] [Separate σ] in
theorem due_of_kept (call? : Option Call) {a : Activity} (kept : a.isExchange = false) (b : σ) :
    due call? a b = ([], b) := by
  have unsaid : a.said? = none := by
    cases a with
    | leave => cases kept
    | _ => rfl
  cases call? with
  | none => rfl
  | some call => simp only [due, unsaid, kept]; rfl

omit [Surroundings σ] [Separate σ] in
theorem due_of_undone (call : Call) {a : Activity} (exchange : a.isExchange = true) (unsaid : a.said? = none)
    (b : σ) : due (some call) a b = ([(call, (call.serve b).1)], (call.serve b).2) := by
  simp only [due, unsaid, exchange, if_true]

theorem due_output (call? : Option Call) (a : Activity) {b b' : σ} (h : output b = output b') :
    (due call? a b).1 = (due call? a b').1 ∧ output (due call? a b).2 = output (due call? a b').2 := by
  cases call? with
  | none => exact ⟨rfl, h⟩
  | some call =>
    simp only [due]
    cases a.said? with
    | some reply => exact ⟨rfl, h⟩
    | none =>
      obtain ⟨reply, rest⟩ := call.serve_output h
      cases a.isExchange with
      | true => exact ⟨by simp [reply], by simpa using rest⟩
      | false => exact ⟨rfl, by simpa using h⟩

/-- So far the operations `os` happened and the caller heard `heard`: what they bring is this and what is due, with
the caller at `a` and the endpoint `x`. -/
structure Account (b : σ) (os : List (Event σ)) (heard : List (Call × Reply)) (call? : Option Call)
    (a : Activity) (x : σ) : Prop where
  replies : (serveAll os b).1 = heard ++ (due call? a x).1
  endpoint : output (serveAll os b).2 = output (due call? a x).2

section
variable {b x x' : σ} {os : List (Event σ)} {heard : List (Call × Reply)} {call? : Option Call} {call : Call}
  {a a' : Activity}

theorem Account.skip (h : Account b os heard call? a x) (replies : (due call? a' x').1 = (due call? a x).1)
    (endpoint : output (due call? a' x').2 = output (due call? a x).2) : Account b os heard call? a' x' :=
  ⟨by rw [replies]; exact h.replies, by rw [endpoint]; exact h.endpoint⟩

theorem Account.of_kept (h : Account b os heard call? a x) (kept : a.isExchange = false) :
    (serveAll os b).1 = heard ∧ output (serveAll os b).2 = output x := by
  have replies := h.replies
  have endpoint := h.endpoint
  rw [due_of_kept call? kept] at replies endpoint
  exact ⟨by simpa using replies, endpoint⟩

theorem Account.ask_kept (h : Account b os heard call? .idle x) (kept : call.isExchange = false) :
    Account b os heard (some call) (.enter call) x := by
  have now := due_of_kept (some call) (show (Activity.enter call).isExchange = false from kept) x
  obtain ⟨replies, endpoint⟩ := h.of_kept rfl
  exact ⟨by rw [now, replies, List.append_nil], by rw [now, endpoint]⟩

theorem Account.ask (h : Account b os heard call? .idle x) (exchange : call.isExchange = true) :
    Account b (os ++ [.move (.ask 0 call)]) heard (some call) (.enter call) x := by
  have now := due_of_undone call (show (Activity.enter call).isExchange = true from exchange) rfl x
  obtain ⟨replies, endpoint⟩ := h.of_kept rfl
  obtain ⟨reply, rest⟩ := call.serve_output endpoint
  constructor
  · rw [serveAll_append, now, replies, serveAll, reply]; rfl
  · rw [serveAll_append, now]; exact rest

theorem Account.hear {reply : Reply} (h : Account b os heard (some call) a x)
    (said : (due (some call) a x).1 = [(call, reply)]) (rest : output (due (some call) a x).2 = output x') :
    Account b os (heard ++ [(call, reply)]) (some call) .idle x' := by
  have now := due_of_kept (some call) (show Activity.idle.isExchange = false from rfl) x'
  refine ⟨?_, ?_⟩
  · rw [now, List.append_nil, h.replies, said]
  · rw [now, h.endpoint, rest]

theorem Account.befall (h : Account b os heard call? a x) (kept : a.isExchange = false)
    (i : Surroundings.Incident σ) :
    Account b (os ++ [.incident i]) heard call? a (Surroundings.befall i x) := by
  have now := due_of_kept call? kept (Surroundings.befall i x)
  obtain ⟨replies, endpoint⟩ := h.of_kept kept
  constructor
  · rw [serveAll_append, now, replies, serveAll, serveAll]
  · rw [serveAll_append, now]; exact output_of_befall i endpoint

end

section
variable {call? : Option Call} {c d : Client} {s t : System σ} {e : Event σ}

/-- From `a` and `x` to the client `d` and `x'` the call brings no more and no less than was due, or it ends with the
reply that was due. -/
inductive Renders (call : Call) (a : Activity) (x : σ) (d : Client) (x' : σ) : Prop
  | goesOn (busy : d.activity ≠ .idle)
      (replies : (due (some call) d.activity x').1 = (due (some call) a x).1)
      (rest : output (due (some call) d.activity x').2 = output (due (some call) a x).2) :
      Renders call a x d x'
  | ends {reply : Reply} (idle : d.activity = .idle) (heard : d.reply = some reply)
      (replies : (due (some call) a x).1 = [(call, reply)]) (rest : output (due (some call) a x).2 = output x') :
      Renders call a x d x'

theorem enter_renders {call : Call} {h h' : Handle σ} (hs : h.enter 0 c call = (d, h'))
    (exchange : call.isExchange = true) : Renders call (.enter call) h.gate.endpoint d h'.gate.endpoint := by
  have undone := due_of_undone call (show (Activity.enter call).isExchange = true from exchange) rfl h.gate.endpoint
  cases call with
  | request kind r =>
    simp only [Handle.enter] at hs
    split at hs
    · rename_i f refused
      cases hs
      refine .ends rfl rfl ?_ ?_ <;> rw [undone] <;> simp only [Call.serve, refused]
    · split at hs <;> cases hs
      · refine .goesOn (by simp) ?_ ?_ <;> rw [undone, due_of_undone _ rfl rfl]
      · refine .goesOn (by simp) ?_ ?_ <;> rw [undone, due_of_undone _ rfl rfl]
  | write report =>
    simp only [Handle.enter] at hs
    split at hs
    · rename_i f refused
      cases hs
      refine .ends rfl rfl ?_ ?_ <;> rw [undone] <;> simp only [Call.serve, refused]
    · rename_i fine
      cases hs
      obtain ⟨reply, rest⟩ := Gate.writeReport_output (.client 0) (.client 0) report
        (show output (Gate.fresh h.gate.endpoint).endpoint = output h.gate.endpoint from rfl)
      refine .ends rfl rfl ?_ ?_ <;> rw [undone] <;> simp only [Call.serve, fine]
      · rw [reply]
      · exact rest
  | _ => cases exchange

theorem exchange_renders {call : Call} {h h' : Handle σ} (hs : h.step? 0 c = some (d, h'))
    (exchange : c.activity.isExchange = true) (of : c.activity.IsOf call) :
    Renders call c.activity h.gate.endpoint d h'.gate.endpoint := by
  cases ha : c.activity with
  | enter call' =>
    rw [ha] at of exchange
    obtain rfl : call' = call := of
    simp only [Handle.step?, ha, Option.some.injEq] at hs
    exact enter_renders hs exchange
  | steal st errand =>
    rw [ha] at exchange
    cases errand with
    | permit => cases exchange
    | request r =>
      simp only [Handle.step?, ha, Option.map_eq_some_iff] at hs
      obtain ⟨⟨l, next⟩, -, hs⟩ := hs
      cases next <;> cases hs <;> refine .goesOn (by simp [Handle.stolen]) ?_ ?_ <;>
        rw [due_of_undone _ rfl rfl, due_of_undone _ rfl rfl] <;> rfl
  | exchange r exclusive =>
    rw [ha] at of
    obtain ⟨kind, rfl, fine⟩ := of
    simp only [Handle.step?, ha] at hs
    cases hs
    obtain ⟨reply, rest⟩ := r.perform_output (.client 0) (.client 0)
      (show output h.gate.endpoint = output (Gate.fresh h.gate.endpoint).endpoint from rfl)
    refine .goesOn (by simp) ?_ ?_ <;>
      rw [due_of_undone _ (show (Activity.exchange r exclusive).isExchange = true from rfl) rfl] <;>
      simp only [due, Call.serve, fine, Client.goOn_activity, Activity.said?]
    · rw [reply]
    · exact rest
  | leave exclusive reply =>
    simp only [Handle.step?, ha] at hs
    cases hs
    refine .ends rfl rfl rfl ?_
    cases exclusive <;> rfl
  | _ => rw [ha] at exchange; cases exchange

omit [Endpoint σ] [Surroundings σ] [Separate σ] in
theorem heard_of_kept (known : Known call? c) (busy : c.activity ≠ .idle) (kept : c.activity.isExchange = false) :
    (answer? call? s t).toList.filter (·.1.isExchange) = [] :=
  List.filter_eq_nil_iff.mpr fun a ha => by rw [known.answer busy ha, kept]; simp

variable {b : σ} {os : List (Event σ)} {heard : List (Call × Reply)}

theorem Account.step_ask (call : Call) (ha : Account b os heard call? c.activity s.endpoint)
    (idle : c.activity = .idle) :
    Account b (os ++ [(.move (.ask 0 call) : Event σ)].filter Event.isOutward) heard (some call) (.enter call)
      s.endpoint := by
  rw [idle] at ha
  cases exchange : call.isExchange with
  | false =>
    have none_matter : [(.move (.ask 0 call) : Event σ)].filter Event.isOutward = [] := by
      simp [Event.isOutward, Event.isExchange, Event.isSetting, exchange]
    rw [none_matter, List.append_nil]
    exact ha.ask_kept exchange
  | true =>
    have matters : [(.move (.ask 0 call) : Event σ)].filter Event.isOutward = [.move (.ask 0 call)] := by
      simp [Event.isOutward, Event.isExchange, exchange]
    rw [matters]
    exact ha.ask exchange

theorem Account.step_incident (ha : Account b os heard call? c.activity s.endpoint) (i : Surroundings.Incident σ)
    (between : Separate.isSetting i = true → c.activity.isExchange = false) :
    Account b (os ++ [(.incident i : Event σ)].filter Event.isOutward) heard call? c.activity
      (Surroundings.befall i s.endpoint) := by
  cases setting : Separate.isSetting i with
  | false =>
    have none_matter : [(.incident i : Event σ)].filter Event.isOutward = [] := by
      simp [Event.isOutward, Event.isExchange, Event.isSetting, setting]
    obtain ⟨replies, rest⟩ := due_output call? c.activity (output_of_arrival s.endpoint setting)
    rw [none_matter, List.append_nil]
    exact ha.skip replies rest
  | true =>
    -- nothing is due, so what the endpoint would answer may change
    have matters : [(.incident i : Event σ)].filter Event.isOutward = [.incident i] := by
      simp [Event.isOutward, Event.isSetting, setting]
    rw [matters]
    exact ha.befall (between setting) i

theorem Account.step_client {h' : Handle σ} (ha : Account b os heard call? c.activity s.endpoint)
    (known : Known call? c) (hc : s.clients = [c]) (step : s.handle.step? 0 c = some (d, h')) :
    Account b os (heard ++ (answer? call? s ⟨h', [d]⟩).toList.filter (·.1.isExchange)) call? d.activity
      h'.gate.endpoint := by
  have before : c.activity ≠ .idle := fun idle => by simp [Handle.step?, idle] at step
  cases exchange : c.activity.isExchange with
  | false =>
    obtain ⟨same, kept⟩ := Handle.output_of_step? step exchange
    rw [heard_of_kept known before exchange, List.append_nil]
    refine ha.skip ?_ ?_
    · rw [due_of_kept _ exchange, due_of_kept _ kept]
    · rw [due_of_kept _ exchange, due_of_kept _ kept]; exact same
  | true =>
    have c_busy : c.isIdle = false := Bool.eq_false_iff.mpr fun h => before (Client.isIdle_iff.mp h)
    obtain ⟨call, rfl, of⟩ := known before
    cases exchange_renders step exchange of with
    | goesOn busy replies rest =>
      have d_busy : d.isIdle = false := Bool.eq_false_iff.mpr fun h => busy (Client.isIdle_iff.mp h)
      rw [answer?_of_sole hc rfl (d_busy.trans c_busy.symm)]
      simpa using ha.skip replies rest
    | @ends reply idle said replies rest =>
      have hears : (answer? (some call) s ⟨h', [d]⟩).toList.filter (·.1.isExchange) = [(call, reply)] := by
        have exchange_call : call.isExchange = true := (of.isExchange before).symm.trans exchange
        rw [answer?, ended?_of_sole hc rfl, c_busy, Client.isIdle_iff.mpr idle]
        simp [said, exchange_call]
      rw [hears, idle]
      exact ha.hear replies rest

/-- The operations of a step that matter to requests and writes, and the replies to these that it brings. -/
theorem Account.step (ha : Account b os heard call? c.activity s.endpoint) (known : Known call? c)
    (hc : s.clients = [c]) (h : SoleStep s c e t d) (hd : t.clients = [d])
    (between : e.isSetting = true → c.activity.isExchange = false) :
    Account b (os ++ [e].filter Event.isOutward)
      (heard ++ (answer? (callAfter call? e) s t).toList.filter (·.1.isExchange)) (callAfter call? e) d.activity
      t.endpoint := by
  have quiet {a : Activity} {x : σ} (ha : Account b os heard call? a x) :
      Account b (os ++ []) (heard ++ []) call? a x := by rwa [List.append_nil, List.append_nil]
  cases h with
  | @ask call idle =>
    rw [answer?_of_idle hc hd idle]
    have asked := ha.step_ask call idle
    rwa [← List.append_nil heard] at asked
  | @listener _ _ _ g on_duty step =>
    have same : output g.endpoint = output s.endpoint := Duty.output_eq step
    obtain ⟨replies, rest⟩ := due_output call? c.activity same
    rw [answer?_of_sole hc hd rfl]
    exact quiet (ha.skip replies rest)
  | listenerLate =>
    rw [answer?_of_sole hc hd rfl]
    exact quiet ha
  | @clientLate buffer propagate doing =>
    have kept : c.activity.isExchange = false := by rw [doing]; rfl
    rw [show callAfter call? (.move (.expire (.client 0)) : Event σ) = call? from rfl,
      heard_of_kept known (by rw [doing]; simp) kept]
    have late : Account b os heard call? .idle s.endpoint := by
      refine ha.skip ?_ ?_ <;> rw [due_of_kept _ kept, due_of_kept _ rfl]
    exact quiet late
  | client step =>
    have stepped := ha.step_client known hc step
    rwa [← List.append_nil os] at stepped
  | incident i =>
    rw [answer?_of_sole hc hd rfl]
    have befallen := ha.step_incident i between
    rwa [← List.append_nil heard] at befallen

end

/-! ## Along a trace -/

def isServing (s : System σ) : Bool := s.clients.any (·.activity.isExchange)

/-- Requests are made without a permit, and the endpoint's answers to requests and writes change between these. -/
structure Seemly (s : System σ) (e : Event σ) : Prop where
  unheld : e.isRequest = true → s.clients.all (·.permits.isEmpty) = true
  between : e.isSetting = true → s.isServing = false

instance (s : System σ) (e : Event σ) : Decidable (Seemly s e) :=
  decidable_of_iff ((e.isRequest = true → s.clients.all (·.permits.isEmpty) = true) ∧
    (e.isSetting = true → s.isServing = false)) ⟨fun h => ⟨h.1, h.2⟩, fun h => ⟨h.unheld, h.between⟩⟩

def Orderly : System σ → Trace σ → Prop
  | _, [] => True
  | s, (e, t) :: tr => Seemly s e ∧ Orderly t tr

instance decidableOrderly : (s : System σ) → (tr : Trace σ) → Decidable (Orderly s tr)
  | _, [] => .isTrue trivial
  | s, (e, t) :: tr =>
    have := decidableOrderly t tr
    inferInstanceAs (Decidable (Seemly s e ∧ Orderly t tr))

theorem orderly_append {s : System σ} {tr tr' : Trace σ} :
    Orderly s (tr ++ tr') ↔ Orderly s tr ∧ Orderly (final s tr) tr' := by
  induction tr generalizing s with
  | nil => simp [Orderly, final]
  | cons x tr ih => obtain ⟨e, t⟩ := x; simp only [List.cons_append, Orderly, final, ih, and_assoc]

section
variable {b : σ} {os : List (Event σ)} {heard : List (Call × Reply)} {call? : Option Call} {c : Client}
  {s : System σ} {tr : Trace σ}

theorem filter_operations (tr : Trace σ) :
    (operations tr).filter Event.isOutward = (tr.map Prod.fst).filter Event.isOutward := by
  rw [operations, List.filter_filter]
  refine List.filter_congr fun e _ => ?_
  cases e with
  | incident => simp [Event.isOperation]
  | move m =>
    cases m with
    | ask => simp [Event.isOperation]
    | run | expire => rfl

theorem Account.follows (ha : Account b os heard call? c.activity s.endpoint) (known : Known call? c)
    (hc : s.clients = [c]) (h : Follows s tr) (orderly : Orderly s tr) :
    ∃ d, (final s tr).clients = [d] ∧
      Account b (os ++ (operations tr).filter Event.isOutward)
        (heard ++ (answers call? s tr).filter (·.1.isExchange)) (callAfterAll call? tr) d.activity
        (final s tr).endpoint := by
  induction tr generalizing s c call? os heard with
  | nil =>
    refine ⟨c, hc, ?_⟩
    change Account b (os ++ []) (heard ++ []) call? c.activity s.endpoint
    rwa [List.append_nil, List.append_nil]
  | cons x tr ih =>
    obtain ⟨e, t⟩ := x
    obtain ⟨st, h⟩ := h
    obtain ⟨d, step, hd⟩ := st.sole hc
    have between (he : e.isSetting = true) : c.activity.isExchange = false := by
      have := orderly.1.between he
      rwa [isServing, hc, List.any_cons, List.any_nil, Bool.or_false] at this
    obtain ⟨d', hd', rest⟩ := ih (ha.step known hc step hd between) (known.step step) hd h orderly.2
    refine ⟨d', hd', ?_⟩
    rw [filter_operations] at rest ⊢
    rw [List.append_assoc, List.append_assoc, ← List.filter_append, ← List.filter_append] at rest
    exact rest

theorem account_start (b : σ) (config : Config) :
    Account b [] [] none Client.fresh.activity (start (.fresh b config) 1).endpoint := ⟨rfl, rfl⟩

/-- The replies to a caller's requests and writes are those of the endpoint alone, and so is what it is left
with. -/
theorem served {config : Config} (h : Follows (start (.fresh b config) 1) tr)
    (orderly : Orderly (start (.fresh b config) 1) tr)
    (settled : (final (start (.fresh b config) 1) tr).isServing = false) :
    (answers none (start (.fresh b config) 1) tr).filter (·.1.isExchange) =
        (serveAll ((operations tr).filter Event.isOutward) b).1 ∧
      output (final (start (.fresh b config) 1) tr).endpoint =
        output (serveAll ((operations tr).filter Event.isOutward) b).2 := by
  obtain ⟨d, hd, account⟩ := (account_start b config).follows (fun busy => absurd rfl busy) rfl h orderly
  rw [isServing, hd, List.any_cons, List.any_nil, Bool.or_false] at settled
  obtain ⟨replies, endpoint⟩ := account.of_kept settled
  exact ⟨replies.symm, endpoint.symm⟩

end

end System

end HidGate
