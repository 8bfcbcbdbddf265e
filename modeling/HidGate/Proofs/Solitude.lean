import HidGate.Proofs.Tenure

/-!
# A tenure without contenders

Take the contenders out of a tenure, and the one read that was woken for them. What is left is a run as well. It trails
behind at most by a read that still polls: that one may yet be woken, and so it begins there only when its poll is
over. Everything that is read, handed over or put on record comes about in both runs alike.
-/

namespace HidGate

/-- The lock as it were if no client had done anything about stealing the read path. -/
def SoftLock.undisturbed (l : SoftLock) : SoftLock :=
  { l with grabber := if l.grabber = some .listener then some .listener else none, pipe := .empty }

section
variable {σ : Type} [Endpoint σ]

/-! ## Locks that make no difference -/

omit [Endpoint σ] in
theorem Gate.hand_relock (who : Party) (report : Bytes) (g : Gate σ) (l : SoftLock) :
    Gate.hand who report { g with lock := l } =
      ((g.hand who report).1, { (g.hand who report).2 with lock := l }) := by
  obtain ⟨_, _, handler, _, _, _, _⟩ := g
  rcases handler with _ | ⟨k, judge | _⟩ <;> rfl

theorem ReadStep.relock {who : Party} {propagate : Bool} {st : ReadStage} {g k : Gate σ} {next : ReadNext}
    {l : SoftLock} (step : ReadStep who propagate g st next k) (quiet : l.pipe.isEmpty = true) (awake : st ≠ .drain)
    (unwoken : next.stage? ≠ some .drain) :
    ReadStep who propagate { g with lock := l } st next { k with lock := l } := by
  have hands {report : Bytes} {next : ReadNext} {k : Gate σ} (step : ReadStep who propagate g (.hand report) next k) :
      ReadStep who propagate { g with lock := l } (.hand report) next { k with lock := l } :=
    step.of_hand (f := fun g => { g with lock := l }) (Gate.hand_relock who report g l) fun _ _ => rfl
  cases step with
  | pollFault fault => exact .pollFault fault
  | wake => exact absurd rfl unwoken
  | ready fault _ ready => exact .ready fault quiet ready
  | drain => exact absurd rfl awake
  | fault fetch => exact .fault fetch
  | empty fetch claim => exact .empty fetch claim
  | overlong fetch claim => exact .overlong fetch claim
  | report fetch positive fits => exact .report fetch positive fits
  | accepted verdict => exact hands (.accepted verdict)
  | rejected verdict => exact hands (.rejected verdict)
  | crashed verdict => exact hands (.crashed verdict)

theorem ReadStep.begun {who : Party} {propagate : Bool} {st : ReadStage} {g k : Gate σ} {next : ReadNext}
    (step : ReadStep who propagate g st next k) : next.stage? ≠ some .poll := by
  cases step with
  | report => cases propagate <;> simp [ReadNext.stage?]
  | _ => simp [ReadNext.stage?]

theorem DutyStep.relock {wanted : Bool} {x : Duty} {w : Worker} {g k : Gate σ} (step : DutyStep wanted g x w k)
    (apart : (Worker.working x).holds = 0) (held : g.lock.reader ≠ none) :
    DutyStep wanted { g with lock := g.lock.undisturbed } x w { k with lock := k.lock.undisturbed } := by
  cases step with
  | goesOn on => exact .goesOn on
  | exits off => exact .exits off
  | acquires free => exact absurd free held
  | resumes => exact .resumes
  | grabs free =>
    have step : DutyStep wanted { g with lock := g.lock.undisturbed } .gate _ _ :=
      .grabs (by simp [SoftLock.undisturbed, free])
    simpa [SoftLock.undisturbed] using step
  | passes =>
    have step : DutyStep wanted { g with lock := g.lock.undisturbed } .pass _ _ := .passes
    simpa [SoftLock.undisturbed, SoftLock.ungrab] using step
  | reads | drained | bears | fails => exact absurd apart Nat.one_ne_zero

end

namespace Event

variable {σ : Type} [Surroundings σ]

def isSolo (n : Nat) (e : Event σ) : Bool :=
  match e with
  | .move (.ask m _) => m == n && e.isReading
  | .move (.run p) | .move (.expire p) => p == .listener || p == .client n
  | .incident _ => true

def incident? : Event σ → Option (Surroundings.Incident σ)
  | .move _ => none
  | .incident i => some i

end Event

namespace System

/-! ## Solitary traces -/

section
variable {σ : Type} [Surroundings σ]

def incidents (tr : Trace σ) : List (Surroundings.Incident σ) := tr.filterMap (·.1.incident?)

variable [Endpoint σ] {s t m : System σ} {e : Event σ} {n : Nat} {c d : Client}

/-- A trace of the listener and client `n` alone, with these incidents, in which these calls come to an end. -/
structure Solitary (n : Nat) (s : System σ) (tr : Trace σ) (is : List (Surroundings.Incident σ))
    (ends : List (Activity × Reply)) : Prop where
  follows : Follows s tr
  solo : ∀ x ∈ tr, x.1.isSolo n = true
  incidents : incidents tr = is
  ends : conclusions n s tr = ends

theorem Solitary.nil (n : Nat) (s : System σ) : Solitary n s [] [] [] := ⟨trivial, by simp, rfl, rfl⟩

theorem Solitary.append {tr tr' : Trace σ} {is is' : List (Surroundings.Incident σ)}
    {ends ends' : List (Activity × Reply)} (h : Solitary n s tr is ends) (last : final s tr = t)
    (h' : Solitary n t tr' is' ends') : Solitary n s (tr ++ tr') (is ++ is') (ends ++ ends') := by
  subst last
  refine ⟨follows_append.mpr ⟨h.follows, h'.follows⟩, List.forall_mem_append.mpr ⟨h.solo, h'.solo⟩, ?_, ?_⟩
  · rw [System.incidents, List.filterMap_append, ← h.incidents, ← h'.incidents]; rfl
  · rw [conclusions_append, h.ends, h'.ends]

theorem Solitary.one (st : Step s e t) (solo : e.isSolo n = true) :
    Solitary n s [(e, t)] e.incident?.toList (conclusion? n s t).toList := by
  refine ⟨⟨st, trivial⟩, by simpa using solo, ?_, List.append_nil _⟩
  cases e <;> rfl

/-- Where the owner is in the run without contenders, when it is here. A read that still polls has not begun there,
and one that is woken does not take place. -/
inductive Trails (permits : List Permit) : Activity → Activity → Prop
  | idle : Trails permits .idle .idle
  | called {permit : Permit} {buffer : Bytes} {propagate : Bool}
      (mine : permit.guards Handle.number = true → permit ∈ permits) :
      Trails permits (.enter (.read permit buffer propagate)) .idle
  | polls {permit : Permit} {buffer : Bytes} {propagate : Bool}
      (mine : permit.guards Handle.number = true → permit ∈ permits)
      (fine : Handle.readRefusal? permit buffer = none) : Trails permits (.read .poll buffer propagate) .idle
  | woken {buffer : Bytes} {propagate : Bool} : Trails permits (.read .drain buffer propagate) .idle
  | level {st : ReadStage} {buffer : Bytes} {propagate : Bool} (past : st ≠ .poll) (awake : st ≠ .drain) :
      Trails permits (.read st buffer propagate) (.read st buffer propagate)

section
variable {permits : List Permit} {permit : Permit} {buffer : Bytes} {propagate : Bool} {a : Activity}

theorem Trails.asks (h : Trails permits .idle a) (mine : permit.guards Handle.number = true → permit ∈ permits) :
    Trails permits (.enter (.read permit buffer propagate)) a := by
  cases h
  exact .called mine

theorem Trails.begins (h : Trails permits (.enter (.read permit buffer propagate)) a)
    (fine : Handle.readRefusal? permit buffer = none) : Trails permits (.read .poll buffer propagate) a := by
  cases h with
  | called mine => exact .polls mine fine

theorem Trails.wakes (h : Trails permits (.read .poll buffer propagate) a) :
    Trails permits (.read .drain buffer propagate) a := by
  cases h with
  | polls => exact .woken
  | level past => exact absurd rfl past

theorem Trails.drops (h : Trails permits (.read .drain buffer propagate) a) : Trails permits .idle a := by
  cases h with
  | woken => exact .idle
  | level _ awake => exact absurd rfl awake

end

structure Stands (n : Nat) (m : System σ) (d : Client) : Prop where
  at_n : m.clients[n]? = some d
  shared : ∀ (j : Nat) (x : Client), m.clients[j]? = some x → j ≠ n → x.activity.isExclusive = false

/-- `m` is the state `s` as it were without contenders. There client `n` is `d`, and here it is `c`. -/
structure Stripped (n : Nat) (s : System σ) (c : Client) (m : System σ) (d : Client) : Prop where
  handle : m.handle = s.handle.withLock s.lock.undisturbed
  stands : Stands n m d
  permits : d.permits = c.permits
  trails : Trails c.permits c.activity d.activity

omit [Endpoint σ] [Surroundings σ] in
theorem Stands.turn (h : Stands n m d) (u : Turn σ) : Stands n (m.turn n u) u.1 := by
  refine ⟨getElem?_set_at h.at_n u.1, fun j x hx other => ?_⟩
  rcases at_turn h.at_n hx with ⟨same, -⟩ | ⟨-, hx⟩
  · exact absurd same other
  · exact h.shared j x hx other

theorem Stands.asks (h : Stands n m d) (idle : d.activity = .idle) (unreleased : m.handle.released = 0)
    {permit : Permit} (buffer : Bytes) (propagate : Bool)
    (mine : permit.guards Handle.number = true → permit ∈ d.permits) :
    Step m (.move (.ask n (.read permit buffer propagate)))
      (m.turn n ({ d with activity := .enter (.read permit buffer propagate), reply := none }, m.handle)) := by
  have nobody : m.clients.any (·.activity.isExclusive) = false := by
    apply List.any_eq_false.mpr
    intro x hx
    obtain ⟨j, hj⟩ := List.mem_iff_getElem?.mp hx
    by_cases other : j = n
    · subst other
      cases hj.symm.trans h.at_n
      simp [idle, Activity.isExclusive]
    · simp [h.shared j x hj other]
  have admitted : m.admits (.read permit buffer propagate) = true := by
    simp [admits, unreleased, nobody, Call.isExclusive]
  constructor
  · cases guards : permit.guards Handle.number with
    | false => simp [honors, guards]
    | true => simpa [honors, guards, h.at_n] using mine guards
  · simp only [happen?, next, ask?, h.at_n, Client.isIdle_iff.mpr idle, admitted, Bool.and_self, if_true]
    rfl

theorem Stands.goes (h : Stands n m d) {u : Turn σ} (goes : m.handle.step? n d = some u) :
    Solitary n m [(.move (.run (.client n)), m.turn n u)] [] (conclusion? n m (m.turn n u)).toList :=
  .one (step_of_turn h.at_n goes) (by simp [Event.isSolo])

theorem Stands.calls (h : Stands n m d) (idle : d.activity = .idle) (unreleased : m.handle.released = 0)
    {permit : Permit} (buffer : Bytes) (propagate : Bool)
    (mine : permit.guards Handle.number = true → permit ∈ d.permits) :
    ∃ tr m' d', Solitary n m tr [] [] ∧ final m tr = m' ∧ Stands n m' d' ∧ m'.handle = m.handle ∧
      d'.permits = d.permits ∧ d'.activity = .enter (.read permit buffer propagate) := by
  have stands := h.turn ({ d with activity := .enter (.read permit buffer propagate), reply := none }, m.handle)
  have solitary := Solitary.one (n := n) (h.asks idle unreleased buffer propagate mine)
    (by simp [Event.isSolo, Event.isReading])
  rw [conclusion?_of_at h.at_n stands.at_n, idle] at solitary
  exact ⟨_, _, _, solitary, rfl, stands, rfl, rfl, rfl⟩

theorem Stands.polls (h : Stands n m d) (idle : d.activity = .idle) (unreleased : m.handle.released = 0)
    {permit : Permit} {buffer : Bytes} (propagate : Bool)
    (mine : permit.guards Handle.number = true → permit ∈ d.permits)
    (fine : Handle.readRefusal? permit buffer = none) :
    ∃ tr m' d', Solitary n m tr [] [] ∧ final m tr = m' ∧ Stands n m' d' ∧ m'.handle = m.handle ∧
      d'.permits = d.permits ∧ d'.activity = .read .poll buffer propagate := by
  obtain ⟨tr, m', d', called, last, stands, handle, permits, doing⟩ := h.calls idle unreleased buffer propagate mine
  have polling := stands.turn (d'.goOn (.read .poll buffer propagate), m'.handle)
  have goes : m'.handle.step? n d' = some (d'.goOn (.read .poll buffer propagate), m'.handle) := by
    simp only [Handle.step?, doing, Handle.enter, fine]
  have begun := stands.goes goes
  rw [conclusion?_of_at stands.at_n polling.at_n, doing] at begun
  refine ⟨_, _, _, called.append last begun, ?_, polling, handle, permits, rfl⟩
  rw [final_append, last]
  rfl

/-! ## Step by step -/

def Strips (n : Nat) (m : System σ) (is : List (Surroundings.Incident σ)) (ends : List (Activity × Reply))
    (t : System σ) (c : Client) : Prop :=
  ∃ tr d, Solitary n m tr is ends ∧ Stripped n t c (final m tr) d

theorem Stripped.rests (h : Stripped n s c m d) {c' : Client}
    (handle : t.handle.withLock t.lock.undisturbed = s.handle.withLock s.lock.undisturbed)
    (permits : c'.permits = c.permits) (trails : Trails c.permits c'.activity d.activity) : Strips n m [] [] t c' :=
  ⟨[], d, .nil n m, h.handle.trans handle.symm, h.stands, h.permits.trans permits.symm, by rw [permits]; exact trails⟩

/-- In the run without contenders the read comes to where it is here, unless it is one that is woken. -/
theorem Stripped.catches_up (h : Stripped n s c m d) (unreleased : s.handle.released = 0) {st : ReadStage}
    {buffer : Bytes} {propagate : Bool} (doing : c.activity = .read st buffer propagate) (awake : st ≠ .drain) :
    ∃ tr m' d', Solitary n m tr [] [] ∧ final m tr = m' ∧ Stands n m' d' ∧ m'.handle = m.handle ∧
      d'.permits = d.permits ∧ d'.activity = .read st buffer propagate := by
  have trails := h.trails
  rw [doing] at trails
  generalize there : d.activity = a at trails
  cases trails with
  | polls mine fine =>
    have unreleased : m.handle.released = 0 := by rw [h.handle]; exact unreleased
    exact h.stands.polls there unreleased propagate (by rw [h.permits]; exact mine) fine
  | woken => exact absurd rfl awake
  | level => exact ⟨[], m, d, .nil n m, rfl, h.stands, rfl, rfl, there⟩

omit [Endpoint σ] [Surroundings σ] in
theorem conclusion?_afterRead {st : ReadStage} {buffer : Bytes} {propagate : Bool} (hc : s.clients[n]? = some c)
    (hd : m.clients[n]? = some d) (doing : c.activity = .read st buffer propagate)
    (same : d.activity = .read st buffer propagate) (next : ReadNext) (h k : Handle σ) :
    conclusion? n m (m.turn n (Handle.afterRead d buffer propagate next, k)) =
      conclusion? n s (s.turn n (Handle.afterRead c buffer propagate next, h)) := by
  rw [conclusion?_of_at hd (getElem?_set_at hd _), conclusion?_of_at hc (getElem?_set_at hc _), same,
    doing]
  rcases next with st | (f | report) | _ <;> rfl

theorem trails_afterRead {permits : List Permit} {buffer : Bytes} {propagate : Bool} {next : ReadNext}
    (begun : next.stage? ≠ some .poll) (unwoken : next.stage? ≠ some .drain) (c d : Client) :
    Trails permits (Handle.afterRead c buffer propagate next).activity
      (Handle.afterRead d buffer propagate next).activity := by
  rcases next with st | (f | report) | _
  · exact .level (fun poll => begun (congrArg some poll)) fun drain => unwoken (congrArg some drain)
  · exact .idle
  · exact .idle
  · exact .idle

theorem Stripped.reads (h : Stripped n s c m d) (here : s.clients[n]? = some c) (unreleased : s.handle.released = 0)
    {st : ReadStage} {buffer : Bytes} {propagate : Bool} {next : ReadNext} {g : Gate σ}
    (doing : c.activity = .read st buffer propagate) (step : ReadStep (.client n) propagate s.handle.gate st next g)
    (awake : st ≠ .drain) (unwoken : next.stage? ≠ some .drain) :
    let t := s.turn n (Handle.afterRead c buffer propagate next, s.handle.onGate g)
    Strips n m [] (conclusion? n s t).toList t (Handle.afterRead c buffer propagate next) := by
  intro t
  obtain ⟨tr, m', d', caught, last, stands, handle, permits, there⟩ := h.catches_up unreleased doing awake
  have same : g.lock = s.lock := by
    rcases step.lock with ⟨-, same⟩ | ⟨drain, -⟩
    · exact same
    · exact absurd drain awake
  generalize undisturbed : s.lock.undisturbed = l at *
  have quiet : l.pipe.isEmpty = true := by rw [← undisturbed]; rfl
  have goes : m'.handle.step? n d' =
      some (Handle.afterRead d' buffer propagate next, m'.handle.onGate { g with lock := l }) := by
    have gate : m'.handle.gate = { s.handle.gate with lock := l } := by rw [handle, h.handle, undisturbed]; rfl
    simp only [Handle.step?, there, gate, (step.relock quiet awake unwoken).step?, Option.map_some]
  have ended := stands.goes goes
  rw [conclusion?_afterRead here stands.at_n doing there next (s.handle.onGate g)] at ended
  refine ⟨_, _, caught.append last ended, ?_, ?_, ?_, trails_afterRead step.begun unwoken c d'⟩
  · rw [final_append, last]
    change m'.handle.onGate _ = (s.handle.onGate g).withLock g.lock.undisturbed
    rw [same, undisturbed, handle, h.handle, undisturbed]
    rfl
  · rw [final_append, last]
    exact stands.turn _
  · rw [(isReading_afterRead ..).1, (isReading_afterRead ..).1, permits, h.permits]

theorem Stripped.refused (h : Stripped n s c m d) (here : s.clients[n]? = some c) (unreleased : s.handle.released = 0)
    {permit : Permit} {buffer : Bytes} {propagate : Bool} {f : Fault}
    (doing : c.activity = .enter (.read permit buffer propagate))
    (refusal : Handle.readRefusal? permit buffer = some f) :
    let t := s.turn n (c.answer ⟨.fault f, buffer⟩, s.handle)
    Strips n m [] (conclusion? n s t).toList t (c.answer ⟨.fault f, buffer⟩) := by
  intro t
  have trails := h.trails
  rw [doing] at trails
  generalize there : d.activity = a at trails
  cases trails with
  | called mine =>
    have unreleased : m.handle.released = 0 := by rw [h.handle]; exact unreleased
    obtain ⟨tr, m', d', called, last, stands, handle, permits, there⟩ :=
      h.stands.calls there unreleased buffer propagate (by rw [h.permits]; exact mine)
    have goes : m'.handle.step? n d' = some (d'.answer ⟨.fault f, buffer⟩, m'.handle) := by
      simp only [Handle.step?, there, Handle.enter, refusal]
    have ended := stands.goes goes
    have same : conclusion? n m' (m'.turn n (d'.answer ⟨.fault f, buffer⟩, m'.handle)) = conclusion? n s t := by
      rw [conclusion?_of_at stands.at_n (getElem?_set_at stands.at_n _), there,
        conclusion?_of_at here (getElem?_set_at here _), doing]
      rfl
    rw [same] at ended
    refine ⟨_, d'.answer ⟨.fault f, buffer⟩, called.append last ended, ?_, ?_, permits.trans h.permits, .idle⟩
    · rw [final_append, last]
      exact handle.trans h.handle
    · rw [final_append, last]
      exact stands.turn _

theorem Stripped.late (h : Stripped n s c m d) (here : s.clients[n]? = some c) (unreleased : s.handle.released = 0)
    {buffer : Bytes} {propagate : Bool} (doing : c.activity = .read .poll buffer propagate)
    (idle : s.handle.gate.isIdle = true) :
    let t := s.turn n (c.answer ⟨.fault .timeout, buffer⟩, s.handle)
    Strips n m [] (conclusion? n s t).toList t (c.answer ⟨.fault .timeout, buffer⟩) := by
  intro t
  obtain ⟨tr, m', d', caught, last, stands, handle, permits, there⟩ := h.catches_up unreleased doing (by simp)
  have idle : m'.handle.gate.isIdle = true := by
    simp only [Gate.isIdle, Bool.and_eq_true] at idle
    rw [handle, h.handle]
    simp only [Gate.isIdle, Handle.withLock, idle, Bool.and_true, Bool.true_and]
    rfl
  have late : Step m' (.move (.expire (.client n)))
      (m'.turn n (d'.answer ⟨.fault .timeout, buffer⟩, m'.handle)) := by
    refine ⟨rfl, ?_⟩
    simp only [happen?, next, expire?, stands.at_n, Option.bind_some, Handle.expire?, there, ReadStage.expire?, idle,
      if_true, Option.map_some, Handle.afterRead]
  have ended := Solitary.one (n := n) late (by simp [Event.isSolo])
  have same : conclusion? n m' (m'.turn n (d'.answer ⟨.fault .timeout, buffer⟩, m'.handle)) = conclusion? n s t :=
    conclusion?_afterRead here stands.at_n doing there (.ended (.error .timeout)) s.handle m'.handle
  rw [same] at ended
  refine ⟨_, d'.answer ⟨.fault .timeout, buffer⟩, caught.append last ended, ?_, ?_, ?_, .idle⟩
  · rw [final_append, last]
    exact handle.trans h.handle
  · rw [final_append, last]
    exact stands.turn _
  · exact permits.trans h.permits

/-- A step of the listener or an incident takes place in the run without contenders as well. -/
theorem Stripped.shares (h : Stripped n s c m d) {m' : System σ} (there : Step m e m') (solo : e.isSolo n = true)
    (clients : m'.clients = m.clients) (handle : m'.handle = t.handle.withLock t.lock.undisturbed) :
    Strips n m e.incident?.toList [] t c := by
  have at_n : m'.clients[n]? = some d := by rw [clients]; exact h.stands.at_n
  have solitary := Solitary.one (n := n) there solo
  rw [conclusion?_of_same h.stands.at_n at_n] at solitary
  refine ⟨_, d, solitary, handle, ⟨at_n, ?_⟩, h.permits, h.trails⟩
  intro j x hx
  exact h.stands.shared j x (by rw [← clients]; exact hx)

omit [Endpoint σ] [Surroundings σ] in
theorem filter_conclusion (hc : s.clients[n]? = some c) (hd : t.clients[n]? = some d)
    (awake : c.activity.isDraining = false) :
    (conclusion? n s t).toList.filter (fun x => !x.1.isDraining) = (conclusion? n s t).toList := by
  rw [conclusion?_of_at hc hd]
  split
  · cases d.reply <;> simp [awake]
  · rfl

omit [Endpoint σ] in
theorem undisturbed_of_contention {j : Nat} {y : Client} {l : SoftLock} (lock : Contention s j y e l) :
    l.undisturbed = s.lock.undisturbed := by
  cases lock with
  | waits | announces => rfl
  | grabs _ free => simp [SoftLock.undisturbed, free]

/-- Whatever happens in a tenure, the run without contenders keeps up with it. -/
theorem Stripped.step (h : Stripped n s c m d) (ht : Tenure n s c) {c' : Client} (st : Step s e t)
    (step : TenureStep n s c e t c') :
    Strips n m e.incident?.toList ((conclusion? n s t).toList.filter fun x => !x.1.isDraining) t c' := by
  have owner := (ht.step st step).owner
  have unreleased := ht.reachable.open_of_isListening ht.listening
  have trails := h.trails
  cases step with
  | refused doing refusal =>
    rw [filter_conclusion ht.owner owner (by rw [doing]; rfl)]
    exact h.refused ht.owner unreleased doing refusal
  | late doing idle =>
    rw [filter_conclusion ht.owner owner (by rw [doing]; rfl)]
    exact h.late ht.owner unreleased doing idle
  | asks idle mine =>
    rw [idle] at trails
    rw [conclusion?_of_at ht.owner owner, idle]
    exact h.rests rfl rfl (trails.asks mine)
  | begins doing fine =>
    rw [doing] at trails
    rw [conclusion?_of_at ht.owner owner, doing]
    exact h.rests rfl rfl (trails.begins fine)
  | @reads stage buffer propagate next g doing step =>
    rw [doing] at trails
    by_cases unwoken : next.stage? = some .drain
    · -- the poll is woken
      rw [conclusion?_of_at ht.owner owner, doing]
      cases step with
      | wake => exact h.rests rfl rfl trails.wakes
      | report => split at unwoken <;> cases unwoken
      | _ => cases unwoken
    · by_cases drains : stage = .drain
      · -- the read ends that does not take place without contenders
        rw [conclusion?_of_at ht.owner owner, doing]
        subst drains
        cases step with
        | drain => exact h.rests rfl rfl trails.drops
      · have awake : c.activity.isDraining = false := by
          rw [doing]
          cases stage <;> first | rfl | exact absurd rfl drains
        rw [filter_conclusion ht.owner owner awake]
        exact h.reads ht.owner unreleased doing step drains unwoken
  | @rival move j x y l at_j other contends lock =>
    rw [conclusion?_of_same ht.owner owner]
    refine h.rests ?_ rfl trails
    change (s.handle.withLock l).withLock l.undisturbed = _
    rw [undisturbed_of_contention lock]
    rfl
  | @listener wanted x w g on_duty step apart =>
    rw [conclusion?_of_same ht.owner owner]
    have held : s.handle.gate.lock.reader ≠ none := by
      have held : s.handle.gate.lock.reader = some (.client n) := ht.reader
      simp [held]
    have there : Step m (.move (.run .listener)) (m.work wanted (w, { g with lock := g.lock.undisturbed })) := by
      have on_duty : m.handle.listener = .running wanted (.working x) := by rw [h.handle]; exact on_duty
      have gate : m.handle.gate = { s.handle.gate with lock := s.handle.gate.lock.undisturbed } := by rw [h.handle]; rfl
      refine ⟨rfl, ?_⟩
      simp only [happen?, next, run?, on_duty, gate, (step.relock apart held).step?, Option.map_some]
    refine h.shares there rfl rfl ?_
    simp only [work, h.handle]
    rfl
  | incident i =>
    rw [conclusion?_of_same ht.owner owner]
    have there : Step m (.incident i) (m.withEndpoint (Surroundings.befall i m.handle.gate.endpoint)) := ⟨rfl, rfl⟩
    refine h.shares there rfl rfl ?_
    simp only [withEndpoint, h.handle]
    rfl

theorem Stripped.follows {tr : Trace σ} (h : Stripped n s c m d) (ht : Tenure n s c) (hf : Follows s tr)
    (calls : ∀ x ∈ tr, x.1.isContention n = true) :
    ∃ c', Strips n m (incidents tr) ((conclusions n s tr).filter fun x => !x.1.isDraining) (final s tr) c' := by
  induction tr generalizing s c m d with
  | nil => exact ⟨c, [], d, .nil n m, h⟩
  | cons x tr ih =>
    obtain ⟨e, t⟩ := x
    obtain ⟨c', step⟩ := ht.tenureStep hf.1 (calls (e, t) List.mem_cons_self)
    obtain ⟨tr₁, d₁, first, h₁⟩ := h.step ht hf.1 step
    have later (x : Event σ × System σ) (hx : x ∈ tr) := calls x (List.mem_cons_of_mem _ hx)
    obtain ⟨c'', tr₂, d₂, rest, h₂⟩ := ih h₁ (ht.step hf.1 step) hf.2 later
    refine ⟨c'', tr₁ ++ tr₂, d₂, ?_, by rw [final_append]; exact h₂⟩
    have items : incidents ((e, t) :: tr) = e.incident?.toList ++ incidents tr := by
      cases e <;> rfl
    rw [items, conclusions, List.filter_append]
    exact first.append rfl rest

theorem Tenure.stripped (h : Tenure n s c) (idle : c.activity = .idle) (grabber : s.lock.grabber = none)
    (empty : s.lock.pipe = .empty) : Stripped n s c s c := by
  have undisturbed : s.lock.undisturbed = s.lock := by
    simp only [SoftLock.undisturbed, grabber, ← empty]
    rw [if_neg (by simp), ← grabber]
  refine ⟨?_, ⟨h.owner, fun m d hd other => ?_⟩, rfl, by rw [idle]; exact .idle⟩
  · rw [undisturbed]
    rfl
  · exact Activity.isExclusive_of_contending (h.rivals m d hd other)

/-! ## The whole tenure -/

/-- A client has stolen the read path and been given the permit. As long as it only reads, and the others do nothing
but call for what takes the read path: it has the read path; at most one of the others announces itself, and at most
one read is woken by that, which is the next whose poll does not fail; the woken read takes nothing. And there is a
run without the others that leads to the same endpoint, journal, handler, feed and listener, in which the same reads
take place except for the woken one, with the same replies. -/
theorem one_interruption {s₀ : System σ} {tr : Trace σ} (hs : Reachable s₀) (hc : s₀.clients[n]? = some c)
    (steals : c.activity = .steal .ungrab .permit) (granted : Step s₀ (.move (.run (.client n))) s)
    (rivals : ∀ (m : Nat) (d : Client), s.clients[m]? = some d → m ≠ n → d.activity.isContending = true)
    (hf : Follows s tr) (calls : ∀ x ∈ tr, x.1.isContention n = true) :
    let u := final s tr
    let called := count announces s tr
    let woken := (conclusions n s tr).countP (·.1.isDraining)
    u.lock.reader = some (.client n) ∧ called ≤ 1 ∧ u.lock.pipe.bytes + woken = called ∧
      (∀ t, u.stage? (.client n) = some .poll → Step u (.move (.run (.client n))) t →
        (t.stage? (.client n) = some .drain ↔ Endpoint.pollFault? u.endpoint = none ∧ woken < called)) ∧
      (∀ t, Step u (.move (.expire (.client n))) t → woken = called) ∧
      (∀ t, u.stage? (.client n) = some .drain → Step u (.move (.run (.client n))) t →
        t.endpoint = u.endpoint ∧ t.journal = u.journal ∧ ∃ buffer propagate,
          conclusion? n u t = some (.read .drain buffer propagate, ⟨.fault .interrupted, buffer⟩)) ∧
      ∃ tr', Solitary n s tr' (incidents tr) ((conclusions n s tr).filter fun x => !x.1.isDraining) ∧
        (final s tr').handle = u.handle.withLock u.lock.undisturbed := by
  intro u called woken
  obtain ⟨⟨d, tenure, idle⟩, grabber, empty⟩ := hs.tenure_begins hc steals granted rivals
  obtain ⟨⟨d', tenure'⟩, heard⟩ := tenure.heard hf calls (tenure.unheard idle empty)
  rw [Nat.zero_add, Nat.zero_add] at heard
  obtain ⟨c', tr', d'', solitary, stripped⟩ := (tenure.stripped idle grabber empty).follows tenure hf calls
  exact ⟨tenure'.reader, heard.single, heard.bytes, fun t polls st => heard.wakes_iff polls st,
    fun t st => heard.of_late st, fun t wakes st => ends_interrupted wakes st, tr', solitary, stripped.handle⟩

end

/-- Clients 1 and 2 want the read path of client 0, the first of them with a call to lock and the other with a request.
The first read of client 0 is woken, and the second gets the report. -/
theorem one_interruption_of_two_contenders :
    let s₀ := after (start (.fresh Bench.fresh .standard) 3) [.move (.ask 0 .start), .move (.run (.client 0)),
      .move (.ask 0 .lockEvents), .move (.run (.client 0)), .move (.run (.client 0)), .move (.run (.client 0)),
      .move (.run (.client 0)), .move (.run (.client 0))]
    let s := after s₀ [.move (.run (.client 0))]
    let tr := play s [.move (.ask 1 .lockEvents), .move (.run (.client 1)), .move (.run (.client 1)),
      .move (.ask 2 (.request .feature ⟨.get, 1, [0, 0]⟩)), .move (.run (.client 2)), .move (.run .listener),
      .move (.ask 0 (.read ⟨0, true⟩ [0, 0] true)), .move (.run (.client 0)), .move (.run (.client 1)),
      .move (.run (.client 0)), .incident (.arrive [.report (.whole [7, 8])]), .move (.run (.client 0)),
      .move (.ask 0 (.read ⟨0, true⟩ [0, 0] true)), .move (.run (.client 0)), .move (.run (.client 0)),
      .move (.run (.client 0)), .move (.run (.client 0))]
    tr.length = 17 ∧ (final s tr).lock.reader = some (.client 0) ∧
      (conclusions 0 s tr).map (·.2) = [⟨.fault .interrupted, [0, 0]⟩, ⟨.count 2, [7, 8]⟩] ∧
      ∃ tr' ends, Solitary 0 s tr' (incidents tr) ends ∧ ends.map (·.2) = [⟨.count 2, [7, 8]⟩] ∧
        (final s tr').endpoint = (final s tr).endpoint := by
  intro s₀ s tr
  have reachable : Reachable s₀ := (Reachable.start Bench.fresh .standard 3).after _
  have stolen : s₀.clients[0]? = some ⟨.steal .ungrab .permit, [], none⟩ := rfl
  have all_contend : s.clients.all (·.activity.isContending) = true := by decide +kernel
  have rivals (m : Nat) (d : Client) (hd : s.clients[m]? = some d) (_ : m ≠ 0) : d.activity.isContending = true :=
    List.all_eq_true.mp all_contend d (List.mem_of_getElem? hd)
  have endpoint_of_lock {u v : System Bench} {l : SoftLock} (same : v.handle = u.handle.withLock l) :
      v.endpoint = u.endpoint := by
    rw [System.endpoint, same]
    rfl
  obtain ⟨reader, -, -, -, -, -, tr', solitary, same⟩ :=
    one_interruption reachable stolen rfl (step_after (by decide +kernel)) rivals (follows_play s _ : Follows s tr)
      (by decide +kernel)
  exact ⟨by decide +kernel, reader, by decide +kernel, tr', _, solitary, by decide +kernel, endpoint_of_lock same⟩

end System

end HidGate
