import HidGate.Proofs.Ownership

/-!
# How often a stealer is passed by

Between taking the right to announce and having the read path a stealer can be passed by once, and only by a
listener that was already past the point where it would have had to wait: that point lies behind each of its
reads, so a listener that gives the read path back comes to a halt there.
-/

namespace HidGate

/-- The listener has passed the right to announce for its coming cycle, or not begun its first one: nothing but
the read path stands before its next read. -/
def Worker.isPastGate : Worker → Bool
  | .working .check | .working .acquire => true
  | _ => false

def Listener.isPastGate : Listener → Bool
  | .stopped => false
  | .running _ w => w.isPastGate

def Activity.isBidding : Activity → Bool
  | .steal .announce _ | .steal .take _ => true
  | _ => false

namespace Duty

variable {σ : Type} [Endpoint σ]

theorem step?_gated {wanted : Bool} {d : Duty} {g g' : Gate σ} {w : Worker}
    (h : d.step? wanted g = some (w, g')) (hg : g.lock.grabber ≠ none) (hp : d ≠ .pass) :
    (w.isPastGate = true → (Worker.working d).isPastGate = true) ∧
      (g'.lock.reader = g.lock.reader ∨ g'.lock.reader = none ∨
        g'.lock.reader = some .listener ∧ (Worker.working d).isPastGate = true ∧ w.isPastGate = false) := by
  cases dutyStep h with
  | goesOn | exits => exact ⟨fun _ => rfl, .inl rfl⟩
  | acquires => exact ⟨fun _ => rfl, .inr (.inr ⟨rfl, rfl, rfl⟩)⟩
  | @reads st next g₁ step =>
    have hl : g₁.lock.reader = g.lock.reader := by
      rcases step.lock with ⟨-, hl⟩ | ⟨-, -, hl⟩ <;> rw [hl]; rfl
    cases next with
    | stage st => exact ⟨by simp [ofRead, Worker.isPastGate], .inl hl⟩
    | ended result => exact ⟨by simp [ofRead, Worker.isPastGate], .inl hl⟩
    | crashed => exact ⟨by simp [ofRead, Worker.isPastGate], .inr (.inl rfl)⟩
  | drained | bears | fails => exact ⟨by simp [Worker.isPastGate], .inr (.inl rfl)⟩
  | resumes => exact ⟨by simp [Worker.isPastGate], .inl rfl⟩
  | grabs free => exact absurd free hg
  | passes => exact absurd rfl hp

end Duty

namespace System

variable {σ : Type} {s t : System σ}

def isBidding (s : System σ) (n : Nat) : Bool := s.clients[n]?.any (·.activity.isBidding)

theorem isBidding_iff {n : Nat} :
    s.isBidding n = true ↔ ∃ c errand, s.clients[n]? = some c ∧
      (c.activity = .steal .announce errand ∨ c.activity = .steal .take errand) := by
  rw [isBidding, Option.any_eq_true]
  constructor
  · rintro ⟨c, hc, hb⟩
    cases ha : c.activity with
    | steal st errand =>
      rw [ha] at hb
      cases st with
      | announce => exact ⟨c, errand, hc, .inl ha⟩
      | take => exact ⟨c, errand, hc, .inr ha⟩
      | _ => cases hb
    | _ => rw [ha] at hb; cases hb
  · rintro ⟨c, errand, hc, ha⟩
    refine ⟨c, hc, ?_⟩
    rcases ha with ha | ha <;> rw [ha] <;> rfl

theorem isBidding_turn_self {n : Nat} {c : Client} (hc : s.clients[n]? = some c) (u : Turn σ) :
    (s.turn n u).isBidding n = u.1.activity.isBidding := by
  have := getElem?_set_at hc u.1
  simp [isBidding, turn, this]

def takers [Surroundings σ] : System σ → Trace σ → List Party
  | _, [] => []
  | s, (_, t) :: tr => (if t.lock.reader = s.lock.reader then [] else t.lock.reader.toList) ++ takers t tr

/-! ## While a stealer bids -/

section
variable {n : Nat}

theorem Sound.grabber_of_bidding (hs : Sound s) (hb : s.isBidding n = true) :
    s.lock.grabber = some (.client n) := by
  obtain ⟨c, errand, hc, ha⟩ := isBidding_iff.mp hb
  apply hs.grabber_of_client_grabs hc
  rcases ha with ha | ha <;> rw [ha] <;> exact Nat.one_pos

theorem Sound.shared_of_bidding (hs : Sound s) (hb : s.isBidding n = true) {m : Nat} {d : Client}
    (hd : s.clients[m]? = some d) : d.activity.isExclusive = false := by
  obtain ⟨c, errand, hc, ha⟩ := isBidding_iff.mp hb
  by_cases hm : m = n
  · subst hm
    rw [hc] at hd; cases hd
    rcases ha with ha | ha <;> rw [ha] <;> rfl
  · refine hs.shared_of_busy hc ?_ hd hm
    rcases ha with ha | ha <;> rw [ha] <;> simp

theorem Sound.not_isPastGate (hs : Sound s) (hr : s.lock.reader = some .listener) :
    s.handle.listener.isPastGate = false := by
  have hk : s.handle.listener.holds = 1 := by
    have := hs.reader .listener
    rwa [if_pos hr] at this
  cases hl : s.handle.listener with
  | stopped => rfl
  | running wanted w =>
    rw [hl] at hk
    cases w with
    | working d => cases d <;> first | rfl | cases hk
    | _ => rfl

variable [Endpoint σ]

theorem step_of_bidding {client client' : Client} {h' : Handle σ} (hc : s.clients[n]? = some client)
    (step : s.handle.step? n client = some (client', h')) (hb : s.isBidding n = true)
    (hb' : client'.activity.isBidding = true) : h'.gate.lock = s.lock.interrupt := by
  obtain ⟨c, errand, hc', ha⟩ := isBidding_iff.mp hb
  rw [hc] at hc'; cases hc'
  rcases ha with ha | ha
  · simp only [Handle.step?, ha, Steal.step?, Option.map_some, Option.some.injEq] at step
    cases step; rfl
  · simp only [Handle.step?, ha, Steal.step?, Option.map_eq_some_iff] at step
    obtain ⟨⟨l, next⟩, ⟨l', -, hl⟩, step⟩ := step
    cases hl; cases step; cases hb'

theorem Sound.reader_of_client (hs : Sound s) {m : Nat} {client client' : Client} {h' : Handle σ}
    (hc : s.clients[m]? = some client) (step : s.handle.step? m client = some (client', h'))
    (hg : s.lock.grabber = some (.client n)) (hm : m ≠ n) :
    h'.gate.lock.reader = s.lock.reader ∨ h'.gate.lock.reader = none := by
  cases Handle.step?_locking step with
  | keep lock | grab _ lock | ungrab lock | interrupt lock | drain lock => rw [lock]; exact .inl rfl
  | give lock => rw [lock]; exact .inr rfl
  | take _ turn =>
    rcases turn with h | h
    · cases h
    · have := hs.grabber_of_client_grabs hc h
      rw [hg] at this; cases this
      exact absurd rfl hm

theorem listener_of_bids {client client' : Client} {h' : Handle σ}
    (step : s.handle.step? n client = some (client', h')) (hb : client'.activity.isBidding = true) :
    h'.listener = s.handle.listener := by
  cases Handle.clientStep step with
  | stealing => rfl
  | @stolen errand => cases errand <;> cases hb
  | @reading st buffer propagate next => rcases next with st | (f | report) | _ <;> cases hb
  | @halted st closing => cases closing <;> cases hb
  | _ => cases hb

variable [Surroundings σ] {e : Event σ}

/-- While a stealer bids, only a listener past its gate comes to have the read path, and no listener passes. -/
theorem Sound.gated (hs : Sound s) (h : Cause s e t) (hb : s.isBidding n = true) (hb' : t.isBidding n = true) :
    (t.handle.listener.isPastGate = true → s.handle.listener.isPastGate = true) ∧
      (t.lock.reader = s.lock.reader ∨ t.lock.reader = none ∨
        t.lock.reader = some .listener ∧ s.handle.listener.isPastGate = true ∧
          t.handle.listener.isPastGate = false) := by
  have hg := hs.grabber_of_bidding hb
  cases h with
  | ask => exact ⟨id, .inl rfl⟩
  | @listener wanted d w g hl hd =>
    have hp : d ≠ .pass := by
      -- a listener that passes may announce, but that right is the stealer's
      rintro rfl
      have := hs.grabber_of_grabs (p := .listener) (by simp [grabs, hl, Listener.grabs, Worker.grabs])
      rw [hg] at this; cases this
    have := Duty.step?_gated hd (by rw [show s.handle.gate.lock.grabber = _ from hg]; simp) hp
    rw [show s.handle.listener.isPastGate = (Worker.working d).isPastGate by rw [hl]; rfl]
    exact this
  | @listenerLate wanted d w g hl hd =>
    obtain ⟨rfl, rfl, rfl⟩ := Duty.expire?_eq_some hd
    exact ⟨by simp [work, Listener.isPastGate, Worker.isPastGate], .inl rfl⟩
  | @client m client client' h' hc step =>
    have hl := (Handle.step?_steering step).eq_of_shared (hs.shared_of_bidding hb hc)
    refine ⟨fun hp => by rwa [show (s.turn m (client', h')).handle.listener = _ from hl] at hp, ?_⟩
    by_cases hm : m = n
    · subst hm
      rw [isBidding_turn_self hc] at hb'
      exact .inl (by rw [lock, turn, step_of_bidding hc step hb hb']; rfl)
    · rcases hs.reader_of_client hc step hg hm with h | h
      · exact .inl h
      · exact .inr (.inl h)
  | @clientLate m client client' h' hc late =>
    obtain ⟨_, _, -, -, rfl⟩ := Handle.expire?_eq_some late
    exact ⟨id, .inl rfl⟩
  | incident i => exact ⟨id, .inl rfl⟩

/-! ## Along a trace -/

/-- Once the listener has come to the gate, nobody has the read path before the stealer. -/
theorem takers_of_gated {tr : Trace σ} (hs : Sound s) (hb : s.isBidding n = true)
    (hp : s.handle.listener.isPastGate = false) (h : Follows s tr) (hw : ∀ x ∈ tr, x.2.isBidding n = true) :
    takers s tr = [] := by
  induction tr generalizing s with
  | nil => rfl
  | cons x tr ih =>
    obtain ⟨e, t⟩ := x
    obtain ⟨st, h⟩ := h
    have hb' := hw (e, t) List.mem_cons_self
    obtain ⟨hpast, hr⟩ := hs.gated st.cause hb hb'
    have hp' : t.handle.listener.isPastGate = false := by
      cases hq : t.handle.listener.isPastGate with
      | false => rfl
      | true => rw [hpast hq] at hp; cases hp
    rw [takers, ih (hs.step st.cause) hb' hp' h fun x hx => hw x (List.mem_cons_of_mem _ hx), List.append_nil]
    rcases hr with hr | hr | ⟨-, hpast, -⟩
    · rw [if_pos hr]
    · rw [hr]; split <;> rfl
    · rw [hpast] at hp; cases hp

theorem takers_of_bidding {tr : Trace σ} (hs : Sound s) (hb : s.isBidding n = true) (h : Follows s tr)
    (hw : ∀ x ∈ tr, x.2.isBidding n = true) :
    takers s tr = [] ∨ takers s tr = [.listener] ∧ s.handle.listener.isPastGate = true := by
  induction tr generalizing s with
  | nil => exact .inl rfl
  | cons x tr ih =>
    obtain ⟨e, t⟩ := x
    obtain ⟨st, h⟩ := h
    have hb' := hw (e, t) List.mem_cons_self
    have hw' : ∀ x ∈ tr, x.2.isBidding n = true := fun x hx => hw x (List.mem_cons_of_mem _ hx)
    obtain ⟨hpast, hr⟩ := hs.gated st.cause hb hb'
    have rest := ih (hs.step st.cause) hb' h hw'
    rw [takers]
    by_cases hsame : t.lock.reader = s.lock.reader
    · rw [if_pos hsame, List.nil_append]
      exact rest.imp id fun ⟨ht, hp⟩ => ⟨ht, hpast hp⟩
    · rw [if_neg hsame]
      rcases hr with hr | hr | ⟨hr, hp, hp'⟩
      · exact absurd hr hsame
      · rw [hr, Option.toList_none, List.nil_append]
        exact rest.imp id fun ⟨ht, hp⟩ => ⟨ht, hpast hp⟩
      · -- the listener has used up its one pass
        right
        rw [hr, takers_of_gated (hs.step st.cause) hb' hp' h hw']
        exact ⟨rfl, hp⟩

/-- From the step with which a stealer takes the right to announce until it has the read path, others come to
have it at most once: the listener, if it was past its gate. Once the listener has it, nobody else does before
the stealer. -/
theorem bypass_at_most_once {tr : Trace σ} (hs : Reachable s)
    (grab : Step s (.move (.run (.client n))) t) (hb : t.isBidding n = true) (h : Follows t tr)
    (hw : ∀ x ∈ tr, x.2.isBidding n = true) :
    (takers t tr = [] ∨ takers t tr = [.listener] ∧ s.handle.listener.isPastGate = true) ∧
      ∀ pre post, tr = pre ++ post → (final t pre).lock.reader = some .listener → takers (final t pre) post = [] := by
  have ht := hs.step grab
  constructor
  · have hl : t.handle.listener = s.handle.listener := by
      cases grab.cause with
      | client hc step =>
        rw [isBidding_turn_self hc] at hb
        exact listener_of_bids step hb
    have := takers_of_bidding ht.sound hb h hw
    rwa [hl] at this
  · rintro pre post rfl hr
    obtain ⟨hpre, hpost⟩ := follows_append.mp h
    have hu := ht.follows hpre
    exact takers_of_gated hu.sound
      (final_of_forall (P := fun u => u.isBidding n = true) hb fun x hx => hw x (List.mem_append_left _ hx))
      (hu.sound.not_isPastGate hr) hpost fun x hx => hw x (List.mem_append_right _ hx)

end

/-- A listener that is about to take the read path passes by a stealer that has only taken the right to
announce; then it reads, gives the read path back and stands at its gate. -/
theorem bypass_by_listener :
    let s := after (start (.fresh Bench.fresh .standard) 1) [.move (.ask 0 .start), .move (.run (.client 0)),
      .incident (.arrive [.report (.whole [1])]), .move (.ask 0 .lockEvents), .move (.run (.client 0)),
      .move (.run .listener)]
    let t := after s [.move (.run (.client 0))]
    let tr := play t [.move (.run .listener), .move (.run (.client 0)), .move (.run .listener),
      .move (.run .listener), .move (.run .listener)]
    takers t tr = [.listener] ∧ (final t tr).handle.listener.isPastGate = false ∧
      ((takers t tr = [] ∨ takers t tr = [.listener] ∧ s.handle.listener.isPastGate = true) ∧
        ∀ pre post, tr = pre ++ post → (final t pre).lock.reader = some .listener →
          takers (final t pre) post = []) := by
  exact ⟨by decide, by decide, bypass_at_most_once (n := 0) ((Reachable.start _ _ _).after _) ⟨rfl, rfl⟩ (by decide)
    (follows_play _ _) (by decide)⟩

end System

end HidGate
