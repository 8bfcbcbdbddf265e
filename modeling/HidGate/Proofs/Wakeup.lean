import HidGate.Proofs.Bypass
import HidGate.Proofs.Motion

/-!
# Whether a stealer's byte reaches the listener

A stealer's byte is for the listener that keeps it waiting. While the stealer waits only reads take bytes out of
the pipe: the listener's own, which then gives the read path back and comes to its gate, and that of a client
that holds the read path by an older permit. The latter loses the byte, and a listener that waits behind that
client polls in peace.
-/

namespace HidGate

def Activity.isAwaiting : Activity → Bool
  | .steal .take _ => true
  | _ => false

def Activity.isDraining : Activity → Bool
  | .read .drain _ _ => true
  | _ => false

/-- The thread has read in its cycle and not come past its gate since, or it has ended. -/
def Worker.isSpent : Worker → Bool
  | .working (.leave _) | .working .pause | .working .gate | .finished | .crashed => true
  | _ => false

def Listener.isSpent : Listener → Bool
  | .stopped => true
  | .running _ w => w.isSpent

/-! ## The pipe -/

def Activity.isCalling : Activity → Bool
  | .steal .announce _ | .halt .wake _ => true
  | _ => false

def Activity.isClearing : Activity → Bool
  | .steal .clear _ | .halt .drain _ => true
  | _ => false

namespace Handle

variable {σ : Type} [Endpoint σ] {n : Nat} {client client' : Client} {h h' : Handle σ}

theorem step?_pipe (hs : h.step? n client = some (client', h')) :
    h'.gate.lock.pipe = h.gate.lock.pipe ∨ client.activity.isCalling = true ∨ client.activity.isClearing = true ∨
      client.activity.stage? = some .drain := by
  have of_halt {st : Halt} {next : Option Halt} {closing : Bool} {h' : Handle σ}
      (doing : client.activity = .halt st closing) (step : h.halt? (.client n) st = some (next, h')) :
      h'.gate.lock.pipe = h.gate.lock.pipe ∨ client.activity.isCalling = true ∨
        client.activity.isClearing = true ∨ client.activity.stage? = some .drain := by
    rw [doing]
    rcases halt?_lock step with hl | ⟨rfl, -⟩ | ⟨rfl, -⟩
    · exact .inl (congrArg SoftLock.pipe hl)
    · exact .inr (.inl rfl)
    · exact .inr (.inr (.inl rfl))
  cases clientStep hs with
  | unlocks | leaves => left; split <;> rfl
  | writes => exact .inl (congrArg SoftLock.pipe (Gate.writeReport_lock ..))
  | propagates => exact .inl (congrArg SoftLock.pipe (Gate.propagateReport_lock ..))
  | exchanges => exact .inl (congrArg SoftLock.pipe (Request.perform_lock ..))
  | @stealing st st' errand l doing step =>
    rw [doing]
    cases st with
    | grab =>
      simp only [Steal.step?, Option.map_eq_some_iff, SoftLock.grab?_eq_some] at step
      obtain ⟨l, ⟨-, rfl⟩, step⟩ := step
      cases step; exact .inl rfl
    | announce => exact .inr (.inl rfl)
    | take =>
      simp only [Steal.step?, Option.map_eq_some_iff, SoftLock.acquire?_eq_some] at step
      obtain ⟨l, ⟨-, rfl⟩, step⟩ := step
      cases step; exact .inl rfl
    | clear => exact .inr (.inr (.inl rfl))
    | ungrab => cases step
  | @reading st buffer propagate next g doing step =>
    rw [doing]
    rcases step.lock with ⟨-, hl⟩ | ⟨rfl, -⟩
    · exact .inl (congrArg SoftLock.pipe hl)
    · exact .inr (.inr (.inr rfl))
  | halting doing step => exact of_halt doing step
  | halted doing step => exact of_halt doing step
  | _ => exact .inl rfl

theorem of_awaiting (hs : h.step? n client = some (client', h')) (hw : client'.activity.isAwaiting = true) :
    ∃ errand, client.activity = .steal .announce errand := by
  cases clientStep hs with
  | @stealing st st' errand l doing step =>
    cases st with
    | announce => exact ⟨errand, doing⟩
    | grab | take =>
      simp only [Steal.step?, Option.map_eq_some_iff] at step
      obtain ⟨l', -, step⟩ := step
      cases step; cases hw
    | clear => cases step; cases hw
    | ungrab => cases step
  | @stolen errand => cases errand <;> cases hw
  | @reading st buffer propagate next => rcases next with st | (f | report) | _ <;> cases hw
  | @halted st closing => cases closing <;> cases hw
  | _ => cases hw

end Handle

namespace Duty

variable {σ : Type} [Endpoint σ] {d : Duty} {g g' : Gate σ} {w : Worker}

theorem step?_spent {wanted : Bool} (h : d.step? wanted g = some (w, g')) (hg : g.lock.grabber ≠ none) :
    ((Worker.working d).isSpent = true → w.isSpent = true) ∧
      (g'.lock.pipe = g.lock.pipe ∨ d = .read .drain ∧ w.isSpent = true ∧ g'.lock.pipe.isEmpty = true) := by
  cases dutyStep h with
  | goesOn | exits | acquires | passes => exact ⟨by simp [Worker.isSpent], .inl rfl⟩
  | @reads st next g₁ step =>
    refine ⟨by simp [Worker.isSpent], ?_⟩
    rcases step.lock with ⟨-, hl⟩ | ⟨rfl, rfl, hl⟩
    · left
      have pipe := congrArg SoftLock.pipe hl
      rcases next with st | result | _ <;> exact pipe
    · refine .inr ⟨rfl, rfl, ?_⟩
      rw [ofRead, hl, SoftLock.drained, Pipe.drain_eq]
      rfl
  | drained | bears | fails | resumes => exact ⟨fun _ => rfl, .inl rfl⟩
  | grabs free => exact absurd free hg

end Duty

namespace System

variable {σ : Type} {s t : System σ} {n : Nat}

def isAwaiting (s : System σ) (n : Nat) : Bool := s.clients[n]?.any (·.activity.isAwaiting)

theorem isAwaiting_iff : s.isAwaiting n = true ↔ ∃ c errand, s.clients[n]? = some c ∧
    c.activity = .steal .take errand := by
  rw [isAwaiting, Option.any_eq_true]
  constructor
  · rintro ⟨c, hc, hw⟩
    cases ha : c.activity with
    | steal st errand =>
      rw [ha] at hw
      cases st with
      | take => exact ⟨c, errand, hc, ha⟩
      | _ => cases hw
    | _ => rw [ha] at hw; cases hw
  · rintro ⟨c, errand, hc, ha⟩
    exact ⟨c, hc, by rw [ha]; rfl⟩

theorem isAwaiting_turn_self {c : Client} (hc : s.clients[n]? = some c) (u : Turn σ) :
    (s.turn n u).isAwaiting n = u.1.activity.isAwaiting := by
  have := getElem?_set_at hc u.1
  simp [isAwaiting, turn, this]

theorem isAwaiting_turn_of_ne {m : Nat} (hm : m ≠ n) (u : Turn σ) : (s.turn m u).isAwaiting n = s.isAwaiting n := by
  simp [isAwaiting, turn, List.getElem?_set_ne hm]

theorem isBidding_of_isAwaiting (hw : s.isAwaiting n = true) : s.isBidding n = true := by
  obtain ⟨c, errand, hc, ha⟩ := isAwaiting_iff.mp hw
  exact isBidding_iff.mpr ⟨c, errand, hc, .inr ha⟩

theorem Sound.isListening_of_awaiting (hs : Sound s) (hw : s.isAwaiting n = true) : s.isListening = true := by
  obtain ⟨c, errand, hc, ha⟩ := isAwaiting_iff.mp hw
  have := (hs.fits n c hc).activity
  rwa [ha] at this

theorem Sound.quiet_of_awaiting (hs : Sound s) (hw : s.isAwaiting n = true) {m : Nat} {d : Client}
    (hd : s.clients[m]? = some d) : d.activity.isCalling = false ∧ d.activity.isClearing = false := by
  have hb := isBidding_of_isAwaiting hw
  have shared := hs.shared_of_bidding hb hd
  cases ha : d.activity with
  | steal st errand =>
    have alone : 0 < d.activity.grabs → m = n := by
      intro hg
      have := hs.grabber_of_client_grabs hd hg
      rw [hs.grabber_of_bidding hb] at this; cases this
      rfl
    obtain ⟨c, errand', hc, hac⟩ := isAwaiting_iff.mp hw
    cases st with
    | announce | clear =>
      have := alone (by rw [ha]; exact Nat.one_pos)
      rw [this, hc] at hd; cases hd
      rw [hac] at ha; cases ha
    | _ => exact ⟨rfl, rfl⟩
  | halt st closing => rw [ha] at shared; cases shared
  | _ => exact ⟨rfl, rfl⟩

theorem not_isSpent_of_stage {st : ReadStage} (h : s.stage? .listener = some st) :
    s.handle.listener.isSpent = false := by
  obtain ⟨wanted, hl⟩ := stage?_listener_iff.mp h
  rw [hl]; rfl

def holderDrains (s : System σ) : Bool := s.clients.any (·.activity.isDraining)

variable [Endpoint σ] [Surroundings σ] {e : Event σ}

theorem Sound.pipe_of_awaiting (hs : Sound s) (hw : s.isAwaiting n = true) (h : Cause s e t) :
    (s.handle.listener.isSpent = true → t.handle.listener.isSpent = true) ∧
      (t.lock.pipe = s.lock.pipe ∨ (∃ m, s.stage? (.client m) = some .drain) ∨
        t.handle.listener.isSpent = true ∧ t.lock.pipe.isEmpty = true) := by
  have hb := isBidding_of_isAwaiting hw
  cases h with
  | ask => exact ⟨id, .inl rfl⟩
  | @listener wanted d w g hl step =>
    have hg : s.handle.gate.lock.grabber ≠ none := by
      rw [show s.handle.gate.lock.grabber = _ from hs.grabber_of_bidding hb]; simp
    obtain ⟨spent, pipe⟩ := Duty.step?_spent step hg
    refine ⟨?_, ?_⟩
    · intro h; rw [hl] at h; exact spent h
    · rcases pipe with pipe | ⟨-, pipe⟩
      · exact .inl pipe
      · exact .inr (.inr pipe)
  | @listenerLate wanted d w g hl late =>
    obtain ⟨rfl, rfl, rfl⟩ := Duty.expire?_eq_some late
    exact ⟨fun _ => rfl, .inl rfl⟩
  | @client m client client' h' hc step =>
    have same := (Handle.step?_steering step).eq_of_shared (hs.shared_of_bidding hb hc)
    refine ⟨fun h => by rw [turn, same]; exact h, ?_⟩
    obtain ⟨calling, clearing⟩ := hs.quiet_of_awaiting hw hc
    rcases Handle.step?_pipe step with pipe | h | h | h
    · exact .inl pipe
    · rw [calling] at h; cases h
    · rw [clearing] at h; cases h
    · exact .inr (.inl ⟨m, by simp [stage?, hc, h]⟩)
  | @clientLate m client client' h' hc late =>
    obtain ⟨_, _, -, -, rfl⟩ := Handle.expire?_eq_some late
    exact ⟨id, .inl rfl⟩
  | incident i => exact ⟨id, .inl rfl⟩

theorem Step.drained (h : Step s e t) {p : Party} (hp : s.stage? p = some .drain) :
    t.stage? p = some .drain ∨ t.lock.pipe.isEmpty = true := by
  by_cases same : t.stage? p = some .drain
  · exact .inl same
  · right
    rcases h.of_leaves hp same with ⟨next, g, -, step, -, pipe, -⟩ | ⟨hst, -⟩
    · cases step
      rw [pipe, SoftLock.drained, Pipe.drain_eq]
      rfl
    · cases hst

/-! ## Along a wait -/

omit [Endpoint σ] [Surroundings σ] in
theorem holderDrains_iff : s.holderDrains = true ↔ ∃ m, s.stage? (.client m) = some .drain := by
  rw [holderDrains, List.any_eq_true]
  constructor
  · rintro ⟨c, hc, hd⟩
    obtain ⟨m, hm⟩ := List.mem_iff_getElem?.mp hc
    refine ⟨m, ?_⟩
    cases ha : c.activity with
    | read st buffer propagate =>
      rw [ha] at hd
      cases st with
      | drain => exact stage?_client_iff.mpr ⟨c, buffer, propagate, hm, ha⟩
      | _ => cases hd
    | _ => rw [ha] at hd; cases hd
  · rintro ⟨m, hm⟩
    obtain ⟨c, buffer, propagate, hc, ha⟩ := stage?_client_iff.mp hm
    exact ⟨c, List.mem_of_getElem? hc, by rw [ha]; rfl⟩

/-- As long as no holder drains the pipe, there is a byte in it for a listener that has not read yet. -/
theorem Sound.kept_along {tr : Trace σ} (hs : Sound s) (hw : s.isAwaiting n = true) (h : Follows s tr)
    (still : ∀ x ∈ tr, x.2.isAwaiting n = true) (hd : s.holderDrains = false)
    (hds : ∀ x ∈ tr, x.2.holderDrains = false)
    (hk : s.lock.pipe.isEmpty = false ∨ s.handle.listener.isSpent = true) :
    (final s tr).lock.pipe.isEmpty = false ∨ (final s tr).handle.listener.isSpent = true := by
  induction tr generalizing s with
  | nil => exact hk
  | cons x tr ih =>
    obtain ⟨e, t⟩ := x
    obtain ⟨st, h⟩ := h
    refine ih (hs.step st.cause) (still (e, t) List.mem_cons_self) h
      (fun x hx => still x (List.mem_cons_of_mem _ hx)) (hds (e, t) List.mem_cons_self)
      (fun x hx => hds x (List.mem_cons_of_mem _ hx)) ?_
    -- a byte is only lost to the listener's own read, and that is then behind it
    obtain ⟨spent, pipe⟩ := hs.pipe_of_awaiting hw st.cause
    rcases hk with hk | hk
    · rcases pipe with same | hm | ⟨spent', -⟩
      · left; rw [same]; exact hk
      · rw [holderDrains_iff.mpr hm] at hd; cases hd
      · exact .inr spent'
    · exact .inr (spent hk)

/-- Once a holder has come to drain the pipe, it is empty when that holder is done, and stays so. -/
theorem Sound.lost_along {tr : Trace σ} (hs : Sound s) (hw : s.isAwaiting n = true) (h : Follows s tr)
    (still : ∀ x ∈ tr, x.2.isAwaiting n = true) (hl : s.lock.pipe.isEmpty = true ∨ s.holderDrains = true) :
    (final s tr).lock.pipe.isEmpty = true ∨ (final s tr).holderDrains = true := by
  induction tr generalizing s with
  | nil => exact hl
  | cons x tr ih =>
    obtain ⟨e, t⟩ := x
    obtain ⟨st, h⟩ := h
    refine ih (hs.step st.cause) (still (e, t) List.mem_cons_self) h
      (fun x hx => still x (List.mem_cons_of_mem _ hx)) ?_
    have of_drains : s.holderDrains = true → t.lock.pipe.isEmpty = true ∨ t.holderDrains = true := by
      intro hd
      obtain ⟨m, hm⟩ := holderDrains_iff.mp hd
      rcases st.drained hm with hm | he
      · exact .inr (holderDrains_iff.mpr ⟨m, hm⟩)
      · exact .inl he
    rcases hl with hl | hl
    · rcases (hs.pipe_of_awaiting hw st.cause).2 with same | hm | ⟨-, he⟩
      · left; rw [same]; exact hl
      · exact of_drains (holderDrains_iff.mpr hm)
      · exact .inl he
    · exact of_drains hl

theorem Sound.lost_of_drain {tr : Trace σ} (hs : Sound s) (hw : s.isAwaiting n = true) (h : Follows s tr)
    (still : ∀ x ∈ tr, x.2.isAwaiting n = true)
    (hd : s.holderDrains = true ∨ ∃ x ∈ tr, x.2.holderDrains = true) :
    (final s tr).lock.pipe.isEmpty = true ∨ (final s tr).holderDrains = true := by
  induction tr generalizing s with
  | nil =>
    rcases hd with hd | ⟨x, hx, -⟩
    · exact .inr hd
    · cases hx
  | cons x tr ih =>
    rcases hd with hd | ⟨y, hy, hd⟩
    · exact hs.lost_along hw h still (.inr hd)
    · obtain ⟨e, t⟩ := x
      obtain ⟨st, h⟩ := h
      apply ih (hs.step st.cause) (still (e, t) List.mem_cons_self) h
        (fun x hx => still x (List.mem_cons_of_mem _ hx))
      rcases List.mem_cons.mp hy with rfl | hy
      · exact .inl hd
      · exact .inr ⟨y, hy, hd⟩

/-- Client `n` announces itself with the step from `s` to `t` and waits all along `tr`. -/
structure Waits (n : Nat) (s t : System σ) (tr : Trace σ) : Prop where
  reachable : Reachable s
  bidding : s.isBidding n = true
  announce : Step s (.move (.run (.client n))) t
  awaiting : t.isAwaiting n = true
  follows : Follows t tr
  still : ∀ x ∈ tr, x.2.isAwaiting n = true

theorem Waits.sound {tr : Trace σ} (h : Waits n s t tr) : Sound t := (h.reachable.step h.announce).sound

theorem Waits.byte {tr : Trace σ} (h : Waits n s t tr) : t.lock.pipe.isEmpty = false := by
  have awaiting := h.awaiting
  cases h.announce.cause with
  | @client _ client client' h' hc step =>
    have hb' := isBidding_of_isAwaiting awaiting
    rw [isBidding_turn_self hc] at hb'
    rw [lock, turn, step_of_bidding hc step h.bidding hb', SoftLock.interrupt]
    exact Pipe.notify_not_empty _

theorem Step.announces (h : Step s e t) (before : s.isAwaiting n = false) (hw : t.isAwaiting n = true) :
    e = .move (.run (.client n)) ∧ s.isBidding n = true := by
  have other : s.isAwaiting n = t.isAwaiting n → False := by
    intro same
    rw [before, hw] at same; cases same
  cases h.cause with
  | @ask m c client hc =>
    by_cases hm : m = n
    · subst hm
      have asked := isAwaiting_turn_self hc ({ client with activity := .enter c, reply := none }, s.handle)
      cases asked.symm.trans hw
    · exact (other (isAwaiting_turn_of_ne hm (_, s.handle)).symm).elim
  | listener => exact (other rfl).elim
  | listenerLate => exact (other rfl).elim
  | @client m client client' h' hc step =>
    by_cases hm : m = n
    · subst hm
      rw [isAwaiting_turn_self hc] at hw
      obtain ⟨errand, ha⟩ := Handle.of_awaiting step hw
      exact ⟨rfl, isBidding_iff.mpr ⟨client, errand, hc, .inl ha⟩⟩
    · exact (other (isAwaiting_turn_of_ne hm _).symm).elim
  | @clientLate m client client' h' hc late =>
    by_cases hm : m = n
    · subst hm
      rw [isAwaiting_turn_self hc] at hw
      obtain ⟨_, _, -, rfl, -⟩ := Handle.expire?_eq_some late
      cases hw
    · exact (other (isAwaiting_turn_of_ne hm _).symm).elim
  | incident => exact (other rfl).elim

theorem Reachable.waits {u : System σ} (hu : Reachable u) (hw : u.isAwaiting n = true) :
    ∃ s t tr, Waits n s t tr ∧ final t tr = u := by
  induction hu with
  | start endpoint config k =>
    obtain ⟨c, errand, hc, ha⟩ := isAwaiting_iff.mp hw
    rw [List.eq_of_mem_replicate (List.mem_of_getElem? hc)] at ha
    cases ha
  | @step v w e hv st ih =>
    cases before : v.isAwaiting n with
    | true =>
      obtain ⟨s, t, tr, waits, rfl⟩ := ih before
      refine ⟨s, t, tr ++ [(e, w)], ⟨waits.reachable, waits.bidding, waits.announce, waits.awaiting, ?_, ?_⟩, ?_⟩
      · exact follows_append.mpr ⟨waits.follows, st, trivial⟩
      · intro x hx
        rcases List.mem_append.mp hx with hx | hx
        · exact waits.still x hx
        · rw [List.mem_singleton.mp hx]; exact hw
      · rw [final_append]; rfl
    | false =>
      obtain ⟨rfl, bidding⟩ := st.announces before hw
      exact ⟨v, w, [], ⟨hv, bidding, st, hw, trivial, by simp⟩, rfl⟩

/-! ## The wake-up -/

theorem poll_ends {p : Party} (hp : s.stage? p = some .poll) (hb : s.lock.pipe.isEmpty = false) :
    ∃ v, Step s (.move (.run p)) v ∧ v.stage? p ≠ some .poll := by
  have hr : ∃ next g, ReadStage.poll.step? p (s.propagates p) s.handle.gate = some (next, g) := by
    have hb : s.handle.gate.lock.pipe.isEmpty = false := hb
    simp only [ReadStage.step?, Gate.poll?, hb]
    split
    · exact ⟨_, _, rfl⟩
    · exact ⟨_, _, rfl⟩
  obtain ⟨next, g, hr⟩ := hr
  obtain ⟨v, hv, -⟩ := step_of_stage hp hr
  refine ⟨v, hv, ?_⟩
  obtain ⟨next, g, step, goes, -⟩ := hv.reads hp
  rw [goes]
  cases step <;> simp [ReadNext.stage?]

/-- Let the listener poll while a stealer waits. Then there is a byte in the pipe, and the poll ends at once,
unless a client that had the read path has drained the pipe since the stealer announced itself: in that case
there is none. -/
theorem wakeup_kept_iff {u : System σ} (hu : Reachable u) (hw : u.isAwaiting n = true)
    (hp : u.stage? .listener = some .poll) :
    (∃ s t tr, Waits n s t tr ∧ final t tr = u) ∧
      ∀ (s t : System σ) (tr : Trace σ), Waits n s t tr → final t tr = u →
        (u.lock.pipe.isEmpty = false ↔ ∀ x ∈ t :: tr.map Prod.snd, x.holderDrains = false) ∧
        ((∀ x ∈ t :: tr.map Prod.snd, x.holderDrains = false) →
          ∃ v, Step u (.move (.run .listener)) v ∧ v.stage? .listener ≠ some .poll) := by
  refine ⟨hu.waits hw, ?_⟩
  rintro s t tr waits rfl
  have kept : (∀ x ∈ t :: tr.map Prod.snd, x.holderDrains = false) → (final t tr).lock.pipe.isEmpty = false := by
    intro hd
    have hds : ∀ x ∈ tr, x.2.holderDrains = false := fun x hx =>
      hd x.2 (List.mem_cons_of_mem _ (List.mem_map_of_mem hx))
    rcases waits.sound.kept_along waits.awaiting waits.follows waits.still (hd t List.mem_cons_self) hds
      (.inl waits.byte) with hk | hk
    · exact hk
    · rw [not_isSpent_of_stage hp] at hk; cases hk
  refine ⟨⟨?_, kept⟩, fun hd => poll_ends hp (kept hd)⟩
  intro hb x hx
  cases hd : x.holderDrains with
  | false => rfl
  | true =>
    exfalso
    have drained : t.holderDrains = true ∨ ∃ y ∈ tr, y.2.holderDrains = true := by
      rcases List.mem_cons.mp hx with rfl | hx
      · exact .inl hd
      · obtain ⟨y, hy, rfl⟩ := List.mem_map.mp hx
        exact .inr ⟨y, hy, hd⟩
    rcases waits.sound.lost_of_drain waits.awaiting waits.follows waits.still drained with he | hm
    · rw [he] at hb; cases hb
    · -- the read path would have two holders
      obtain ⟨m, hm⟩ := holderDrains_iff.mp hm
      have listening := hu.sound.isListening_of_awaiting hw
      cases hu.sound.stage_unique listening hm hp

/-- A listener that is about to take the read path does so past a stealer that has announced itself. It finds the
stealer's byte. -/
theorem wakeup_kept_of_passing :
    let s := after (start (.fresh Bench.fresh .standard) 1) [.move (.ask 0 .start), .move (.run (.client 0)),
      .move (.run .listener), .move (.ask 0 .lockEvents), .move (.run (.client 0)), .move (.run (.client 0))]
    let t := after s [.move (.run (.client 0))]
    let tr := play t [.move (.run .listener)]
    let u := final t tr
    u.isAwaiting 0 = true ∧ u.stage? .listener = some .poll ∧
      (u.lock.pipe.isEmpty = false ↔ ∀ x ∈ t :: tr.map Prod.snd, x.holderDrains = false) ∧
      ∃ v, Step u (.move (.run .listener)) v ∧ v.stage? .listener ≠ some .poll := by
  intro s t tr u
  have hs : Reachable s := (Reachable.start Bench.fresh .standard 1).after _
  have waits : Waits 0 s t tr := ⟨hs, by decide +kernel, step_after (by decide +kernel), by decide +kernel,
    follows_play _ _, by decide +kernel⟩
  have wakeup := wakeup_kept_iff (n := 0) (u := u) ((hs.step waits.announce).follows waits.follows)
    (by decide +kernel) (by decide +kernel)
  obtain ⟨kept, ends⟩ := wakeup.2 s t tr waits rfl
  exact ⟨by decide +kernel, by decide +kernel, kept, ends (by decide +kernel)⟩

/-- A stealer's byte can be lost. Client 0 has stolen the read path, and the listener waits to take it again.
Client 1 announces itself; client 0 reads, is interrupted, and gives the read path back; the listener takes it.
Now the listener polls an empty pipe until its time is up, and client 1 waits. -/
theorem wakeup_lost_to_holder :
    let u := after (start (.fresh Bench.fresh .standard) 2) [.move (.ask 0 .start), .move (.run (.client 0)),
      .move (.ask 0 .lockEvents), .move (.run (.client 0)), .move (.run (.client 0)), .move (.run (.client 0)),
      .move (.run (.client 0)), .move (.run (.client 0)), .move (.run (.client 0)), .move (.run .listener),
      .move (.ask 1 .lockEvents), .move (.run (.client 1)), .move (.run (.client 1)), .move (.run (.client 1)),
      .move (.ask 0 (.read ⟨0, true⟩ [0] true)), .move (.run (.client 0)), .move (.run (.client 0)),
      .move (.run (.client 0)), .move (.ask 0 .unlock), .move (.run (.client 0)), .move (.run .listener)]
    Reachable u ∧ u.isAwaiting 1 = true ∧ u.stage? .listener = some .poll ∧ u.lock.pipe.isEmpty = true ∧
      (u.run? .listener).isNone = true ∧ (u.run? (.client 1)).isNone = true := by
  intro u
  exact ⟨(Reachable.start Bench.fresh .standard 2).after _, by decide +kernel, by decide +kernel, by decide +kernel,
    by decide +kernel, by decide +kernel⟩

end System

end HidGate
