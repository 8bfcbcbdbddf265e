import HidGate.Proofs.Conduct

/-!
# Who owns what

The invariant of all runs. Whoever stands where a lock is held is its holder, and nobody else is. While the
listener runs, every permit is exclusive and every read is under one; while it does not, no client holds either
lock. A client that starts, stops or closes the handle is alone with it.
-/

namespace HidGate

namespace System

variable {σ : Type}

/-- Locks are held where the holder's place says so, and every client keeps to its conduct. -/
structure Sound (s : System σ) : Prop where
  reader : ∀ p, s.holds p = if s.lock.reader = some p then 1 else 0
  grabber : ∀ p, s.grabs p = if s.lock.grabber = some p then 1 else 0
  fits : ∀ (n : Nat) (c : Client), s.clients[n]? = some c → c.Fits s.isListening
  /-- Whoever has the handle for itself holds no permit, and nobody else does anything. -/
  alone : ∀ (n : Nat) (c : Client), s.clients[n]? = some c → c.activity.isExclusive = true →
    c.permits = [] ∧ ∀ (m : Nat) (d : Client), s.clients[m]? = some d → m ≠ n → d.isAside = true

variable {s t : System σ}

/-! ## Places -/

theorem getElem?_set_at {n : Nat} {c : Client} (h : s.clients[n]? = some c) (c' : Client) :
    (s.clients.set n c')[n]? = some c' := by
  rw [List.getElem?_set_self' , h]; rfl

theorem at_turn {n m : Nat} {c d : Client} {u : Turn σ} (h : s.clients[n]? = some c)
    (hd : (s.turn n u).clients[m]? = some d) : m = n ∧ d = u.1 ∨ m ≠ n ∧ s.clients[m]? = some d := by
  by_cases hm : m = n
  · subst hm
    have now : (s.turn m u).clients[m]? = some u.1 := getElem?_set_at h u.1
    rw [now] at hd
    cases hd
    exact .inl ⟨rfl, rfl⟩
  · have still : (s.turn n u).clients[m]? = s.clients[m]? := List.getElem?_set_ne fun h => hm h.symm
    exact .inr ⟨hm, still.symm.trans hd⟩

theorem holds_of_at {n : Nat} {c : Client} (h : s.clients[n]? = some c) :
    s.holds (.client n) = c.holds ∧ s.grabs (.client n) = c.activity.grabs := by
  simp [holds, grabs, h]

theorem counts_at_turn {n : Nat} {c : Client} (h : s.clients[n]? = some c) (t : Turn σ) :
    (s.turn n t).holds (.client n) = t.1.holds ∧ (s.turn n t).grabs (.client n) = t.1.activity.grabs :=
  holds_of_at (getElem?_set_at h t.1)

theorem counts_of_turn {n : Nat} (t : Turn σ) (hl : t.2.listener.holds = s.handle.listener.holds)
    (hg : t.2.listener.grabs = s.handle.listener.grabs) {q : Party} (hq : q ≠ .client n) :
    (s.turn n t).holds q = s.holds q ∧ (s.turn n t).grabs q = s.grabs q := by
  cases q with
  | listener => exact ⟨hl, hg⟩
  | client m =>
    have hm : n ≠ m := fun h => hq (by rw [h])
    simp [holds, grabs, turn, List.getElem?_set_ne hm]

/-! ## The locks -/

section
variable [Endpoint σ] [Surroundings σ] {e : Event σ}

/-- Each step acts on the lock for one party, and leaves the counts of the others. -/
theorem Cause.locking (h : Cause s e t) :
    ∃ p, Locking p s.lock (s.holds p) (s.grabs p) t.lock (t.holds p) (t.grabs p) ∧
      ∀ q, q ≠ p → t.holds q = s.holds q ∧ t.grabs q = s.grabs q := by
  cases h with
  | @ask n c client hc idle admitted honored =>
    have hi := Client.isIdle_iff.mp idle
    refine ⟨.client n, ?_, fun q hq => counts_of_turn ⟨_, s.handle⟩ rfl rfl hq⟩
    have h1 := holds_of_at hc
    have h2 := counts_at_turn hc ({ client with activity := .enter c, reply := none }, s.handle)
    refine .keep rfl ?_ ?_
    · rw [h1.1]; exact h2.1.trans (by simp [Client.holds, hi, Activity.holds])
    · rw [h1.2]; exact h2.2.trans (by simp [hi, Activity.grabs])
  | @listener wanted d w g hl hd =>
    refine ⟨.listener, ?_, fun q hq => ?_⟩
    · have := Duty.step?_locking hd
      simp only [holds, grabs, work, hl, Listener.holds, Listener.grabs]
      exact this
    · cases q with
      | listener => exact absurd rfl hq
      | client m => exact ⟨rfl, rfl⟩
  | @listenerLate wanted d w g hl hd =>
    refine ⟨.listener, ?_, fun q hq => ?_⟩
    · have := Duty.expire?_locking hd
      simp only [holds, grabs, work, hl, Listener.holds, Listener.grabs]
      exact this
    · cases q with
      | listener => exact absurd rfl hq
      | client m => exact ⟨rfl, rfl⟩
  | @client n client client' h' hc hs =>
    have hk := (Handle.step?_steering hs).counts
    refine ⟨.client n, ?_, fun q hq => counts_of_turn _ hk.1 hk.2 hq⟩
    rw [(holds_of_at hc).1, (holds_of_at hc).2, (counts_at_turn hc _).1, (counts_at_turn hc _).2]
    exact Handle.step?_locking hs
  | @clientLate n client client' h' hc hs =>
    obtain ⟨buffer, propagate, doing, rfl, rfl⟩ := Handle.expire?_eq_some hs
    refine ⟨.client n, ?_, fun q hq => counts_of_turn _ rfl rfl hq⟩
    rw [(holds_of_at hc).1, (holds_of_at hc).2, (counts_at_turn hc _).1, (counts_at_turn hc _).2,
      Client.holds_of_activity doing, doing]
    exact .keep rfl rfl rfl
  | incident i => exact ⟨.listener, .keep rfl rfl rfl, fun q _ => ⟨rfl, rfl⟩⟩

end

end System

theorem Locking.reader {p : Party} {l l' : SoftLock} {k g k' g' : Nat} (h : Locking p l k g l' k' g')
    (hk : k = if l.reader = some p then 1 else 0) :
    (k' = if l'.reader = some p then 1 else 0) ∧ ∀ q, q ≠ p → (l'.reader = some q ↔ l.reader = some q) := by
  cases h with
  | keep lock holds => rw [lock, holds]; exact ⟨hk, fun _ _ => Iff.rfl⟩
  | take free turn lock holds =>
    rw [free, if_neg (by simp)] at hk
    rw [lock, holds, hk, free]
    exact ⟨by simp, fun q hq => by simp [hq.symm]⟩
  | give lock holds =>
    have hr : l.reader = some p := by
      by_cases hr : l.reader = some p
      · exact hr
      · rw [if_neg hr] at hk; omega
    rw [if_pos hr] at hk
    have hk' : k' = 0 := by omega
    rw [lock, hk', hr]
    exact ⟨rfl, fun q hq => by simp [SoftLock.release, hq.symm]⟩
  | grab free lock holds => rw [lock, holds]; exact ⟨hk, fun _ _ => Iff.rfl⟩
  | ungrab lock holds => rw [lock, holds]; exact ⟨hk, fun _ _ => Iff.rfl⟩
  | interrupt lock holds => rw [lock, holds]; exact ⟨hk, fun _ _ => Iff.rfl⟩
  | drain lock holds => rw [lock, holds]; exact ⟨hk, fun _ _ => Iff.rfl⟩

theorem Locking.grabber {p : Party} {l l' : SoftLock} {k g k' g' : Nat} (h : Locking p l k g l' k' g')
    (hg : g = if l.grabber = some p then 1 else 0) :
    (g' = if l'.grabber = some p then 1 else 0) ∧ ∀ q, q ≠ p → (l'.grabber = some q ↔ l.grabber = some q) := by
  cases h with
  | keep lock _ grabs => rw [lock, grabs]; exact ⟨hg, fun _ _ => Iff.rfl⟩
  | take _ _ lock _ grabs => rw [lock, grabs]; exact ⟨hg, fun _ _ => Iff.rfl⟩
  | give lock _ grabs => rw [lock, grabs]; exact ⟨hg, fun _ _ => Iff.rfl⟩
  | grab free lock _ grabs =>
    rw [free, if_neg (by simp)] at hg
    rw [lock, grabs, hg, free]
    exact ⟨by simp, fun q hq => by simp [hq.symm]⟩
  | ungrab lock _ grabs =>
    have hr : l.grabber = some p := by
      by_cases hr : l.grabber = some p
      · exact hr
      · rw [if_neg hr] at hg; omega
    rw [if_pos hr] at hg
    have hg' : g' = 0 := by omega
    rw [lock, hg', hr]
    exact ⟨rfl, fun q hq => by simp [SoftLock.ungrab, hq.symm]⟩
  | interrupt lock _ grabs => rw [lock, grabs]; exact ⟨hg, fun _ _ => Iff.rfl⟩
  | drain lock _ grabs => rw [lock, grabs]; exact ⟨hg, fun _ _ => Iff.rfl⟩

namespace System

variable {σ : Type} {s t : System σ}

/-! ## Every step keeps the invariant -/

theorem isAside_of_admits {c : Call} (h : s.admits c = true) (hx : c.isExclusive = true) {n : Nat} {d : Client}
    (hd : s.clients[n]? = some d) : d.isAside = true := by
  simp only [admits, hx, Bool.and_eq_true, Bool.not_true, Bool.false_or] at h
  exact List.all_eq_true.mp h.2 d (List.mem_of_getElem? hd)

theorem shared_of_admits {c : Call} (h : s.admits c = true) {n : Nat} {d : Client}
    (hd : s.clients[n]? = some d) : d.activity.isExclusive = false := by
  simp only [admits, Bool.and_eq_true, Bool.not_eq_true', List.any_eq_false] at h
  simpa using h.1.2 d (List.mem_of_getElem? hd)

/-- The locks are in order and a client has turned from `client` to `client'`, which fits, while the others are
as they were. -/
theorem Sound.of_turn {n : Nat} {client client' : Client} {h' : Handle σ} (hs : Sound s)
    (hc : s.clients[n]? = some client)
    (reader : ∀ p, (s.turn n (client', h')).holds p = if h'.gate.lock.reader = some p then 1 else 0)
    (grabber : ∀ p, (s.turn n (client', h')).grabs p = if h'.gate.lock.grabber = some p then 1 else 0)
    (fits : client'.Fits h'.listener.isRunning)
    (listener : client.activity.isExclusive = false → h'.listener = s.handle.listener)
    (others : ∀ (m : Nat) (d : Client), s.clients[m]? = some d → m ≠ n → d.activity.isExclusive = false)
    (exclusive : client'.activity.isExclusive = true → client'.permits = [] ∧
      ∀ (m : Nat) (d : Client), s.clients[m]? = some d → m ≠ n → d.isAside = true) :
    Sound (s.turn n (client', h')) := by
  have at_n : (s.turn n (client', h')).clients[n]? = some client' := getElem?_set_at hc client'
  have at_m : ∀ m, m ≠ n → (s.turn n (client', h')).clients[m]? = s.clients[m]? := fun m hm =>
    List.getElem?_set_ne (fun h => hm h.symm)
  refine ⟨reader, grabber, fun m d hd => ?_, fun m d hd hx => ?_⟩
  · by_cases hm : m = n
    · subst hm
      rw [at_n] at hd; cases hd; exact fits
    · rw [at_m m hm] at hd
      cases hx : client.activity.isExclusive with
      | true => exact Client.Fits.of_isAside ((hs.alone n client hc hx).2 m d hd hm) _
      | false =>
        have := hs.fits m d hd
        rwa [show s.isListening = h'.listener.isRunning by rw [listener hx]; rfl] at this
  · by_cases hm : m = n
    · subst hm
      rw [at_n] at hd; cases hd
      refine ⟨(exclusive hx).1, fun j d hd hj => ?_⟩
      rw [at_m j hj] at hd
      exact (exclusive hx).2 j d hd hj
    · rw [at_m m hm] at hd
      rw [others m d hd hm] at hx; cases hx

theorem Sound.reader_of_holds (hs : Sound s) {p : Party} (h : 0 < s.holds p) : s.lock.reader = some p := by
  have := hs.reader p
  by_cases hr : s.lock.reader = some p
  · exact hr
  · rw [if_neg hr] at this; omega

theorem Sound.grabber_of_grabs (hs : Sound s) {p : Party} (h : 0 < s.grabs p) : s.lock.grabber = some p := by
  have := hs.grabber p
  by_cases hr : s.lock.grabber = some p
  · exact hr
  · rw [if_neg hr] at this; omega

theorem Sound.reader_eq_none (hs : Sound s) (h : ∀ p, s.holds p = 0) : s.lock.reader = none := by
  cases hr : s.lock.reader with
  | none => rfl
  | some p =>
    have := hs.reader p
    rw [if_pos hr, h p] at this; cases this

theorem Sound.grabber_eq_none (hs : Sound s) (h : ∀ p, s.grabs p = 0) : s.lock.grabber = none := by
  cases hg : s.lock.grabber with
  | none => rfl
  | some p =>
    have := hs.grabber p
    rw [if_pos hg, h p] at this; cases this

theorem Sound.reader_of_client_holds (hs : Sound s) {n : Nat} {c : Client} (hc : s.clients[n]? = some c)
    (h : 0 < c.holds) : s.lock.reader = some (.client n) := by
  apply hs.reader_of_holds
  rw [(holds_of_at hc).1]
  exact h

theorem Sound.grabber_of_client_grabs (hs : Sound s) {n : Nat} {c : Client} (hc : s.clients[n]? = some c)
    (h : 0 < c.activity.grabs) : s.lock.grabber = some (.client n) := by
  apply hs.grabber_of_grabs
  rw [(holds_of_at hc).2]
  exact h

theorem Sound.shared_of_busy (hs : Sound s) {n : Nat} {client : Client} (hc : s.clients[n]? = some client)
    (busy : client.activity ≠ .idle) {m : Nat} {d : Client} (hd : s.clients[m]? = some d) (hm : m ≠ n) :
    d.activity.isExclusive = false := by
  cases hx : d.activity.isExclusive with
  | false => rfl
  | true => exact absurd (Client.isAside_iff.mp ((hs.alone m d hd hx).2 n client hc (Ne.symm hm))).1 busy

theorem sound_start (endpoint : σ) (config : Config) (n : Nat) : Sound (start (.fresh endpoint config) n) := by
  have hc : ∀ (m : Nat) (c : Client), (start (Handle.fresh endpoint config) n).clients[m]? = some c → c = .fresh :=
    fun m c h => List.eq_of_mem_replicate (List.mem_of_getElem? h)
  refine ⟨fun p => ?_, fun p => ?_, fun m c h => ?_, fun m c h hx => ?_⟩
  · cases p with
    | listener => rfl
    | client m =>
      cases h : (start (Handle.fresh endpoint config) n).clients[m]? with
      | none => simp only [holds, h]; rfl
      | some c => rw [(holds_of_at h).1, hc m c h]; rfl
  · cases p with
    | listener => rfl
    | client m =>
      cases h : (start (Handle.fresh endpoint config) n).clients[m]? with
      | none => simp only [grabs, h]; rfl
      | some c => rw [(holds_of_at h).2, hc m c h]; rfl
  · rw [hc m c h]; exact Client.Fits.of_isAside rfl _
  · rw [hc m c h] at hx; cases hx

variable [Endpoint σ] [Surroundings σ] {e : Event σ}

theorem Sound.locks (hs : Sound s) (h : Cause s e t) :
    (∀ p, t.holds p = if t.lock.reader = some p then 1 else 0) ∧
      ∀ p, t.grabs p = if t.lock.grabber = some p then 1 else 0 := by
  obtain ⟨p, hl, others⟩ := h.locking
  obtain ⟨hr, hro⟩ := hl.reader (hs.reader p)
  obtain ⟨hg, hgo⟩ := hl.grabber (hs.grabber p)
  constructor
  · intro q
    by_cases hq : q = p
    · rw [hq]; exact hr
    · rw [(others q hq).1, hs.reader q]
      simp only [hro q hq]
  · intro q
    by_cases hq : q = p
    · rw [hq]; exact hg
    · rw [(others q hq).2, hs.grabber q]
      simp only [hgo q hq]

theorem Sound.step (hs : Sound s) (h : Cause s e t) : Sound t := by
  obtain ⟨reader, grabber⟩ := hs.locks h
  cases h with
  | @ask n c client hc idle admitted honored =>
    have hi := Client.isIdle_iff.mp idle
    have hf := hs.fits n client hc
    refine @Sound.of_turn σ s n client _ s.handle hs hc reader grabber ⟨hf.permits, ?_⟩ (fun _ => rfl)
      (fun m d hd _ => shared_of_admits admitted hd) fun hx => ⟨?_, fun m d hd _ => isAside_of_admits admitted hx hd⟩
    · cases c with
      | read permit buffer propagate =>
        intro hg
        simpa [honors, hg, hc] using honored
      | _ => trivial
    · exact (Client.isAside_iff.mp (isAside_of_admits admitted hx hc)).2
  | @listener wanted d w g hl hd =>
    refine ⟨reader, grabber, fun n c hc => ?_, hs.alone⟩
    have := hs.fits n c hc
    rwa [show s.isListening = true by rw [isListening, hl]; rfl] at this
  | @listenerLate wanted d w g hl hd =>
    refine ⟨reader, grabber, fun n c hc => ?_, hs.alone⟩
    have := hs.fits n c hc
    rwa [show s.isListening = true by rw [isListening, hl]; rfl] at this
  | @client n client client' h' hc step =>
    have busy : client.activity ≠ .idle := fun h0 => by simp [Handle.step?, h0] at step
    have alone := hs.alone n client hc
    refine hs.of_turn hc reader grabber (Handle.step?_fits (hs.fits n client hc) (fun hx => (alone hx).1) step)
      (Handle.step?_steering step).eq_of_shared (fun m d => hs.shared_of_busy hc busy) fun hx => ?_
    -- it had the handle for itself before, and the others are as they were
    obtain ⟨hx, hp⟩ := Handle.step?_exclusive step hx
    rw [hp]
    exact alone hx
  | @clientLate n client client' h' hc late =>
    obtain ⟨buffer, propagate, doing, rfl, rfl⟩ := Handle.expire?_eq_some late
    have busy : client.activity ≠ .idle := by rw [doing]; simp
    refine hs.of_turn hc reader grabber ⟨(hs.fits n client hc).permits, trivial⟩ (fun _ => rfl)
      (fun m d => hs.shared_of_busy hc busy) fun hx => ?_
    cases hx
  | incident i => exact ⟨reader, grabber, hs.fits, hs.alone⟩

theorem Reachable.sound (h : Reachable s) : Sound s := by
  induction h with
  | start endpoint config n => exact sound_start endpoint config n
  | step _ st ih => exact ih.step st.cause

end System

end HidGate
