import HidGate.Proofs.Ownership

/-!
# Reads under way

Where each party is in a read. While the listener runs, whoever is in a read has the read path, so that at most
one party is in one.
-/

namespace HidGate

def Activity.stage? : Activity → Option ReadStage
  | .read st _ _ => some st
  | _ => none

def Worker.stage? : Worker → Option ReadStage
  | .working (.read st) => some st
  | _ => none

def Listener.stage? : Listener → Option ReadStage
  | .stopped => none
  | .running _ w => w.stage?

def ReadStage.report? : ReadStage → Option Bytes
  | .hand report => some report
  | _ => none

namespace System

variable {σ : Type} {s t : System σ}

def stage? (s : System σ) : Party → Option ReadStage
  | .listener => s.handle.listener.stage?
  | .client n => s.clients[n]?.bind (·.activity.stage?)

theorem stage?_client_iff {n : Nat} {st : ReadStage} :
    s.stage? (.client n) = some st ↔
      ∃ c buffer propagate, s.clients[n]? = some c ∧ c.activity = .read st buffer propagate := by
  simp only [stage?, Option.bind_eq_some_iff]
  constructor
  · rintro ⟨c, hc, hst⟩
    cases ha : c.activity with
    | read st' buffer propagate => rw [ha] at hst; cases hst; exact ⟨c, buffer, propagate, hc, ha⟩
    | _ => rw [ha] at hst; cases hst
  · rintro ⟨c, buffer, propagate, hc, ha⟩
    exact ⟨c, hc, by rw [ha]; rfl⟩

theorem stage?_listener_iff {st : ReadStage} :
    s.stage? .listener = some st ↔ ∃ wanted, s.handle.listener = .running wanted (.working (.read st)) := by
  simp only [stage?]
  constructor
  · intro h
    cases hl : s.handle.listener with
    | stopped => rw [hl] at h; cases h
    | running wanted w =>
      rw [hl] at h
      cases w with
      | working d =>
        cases d with
        | read st' => cases h; exact ⟨wanted, rfl⟩
        | _ => cases h
      | _ => cases h
  · rintro ⟨wanted, hl⟩
    rw [hl]; rfl

theorem Sound.reader_of_stage (hs : Sound s) (hl : s.isListening = true) {p : Party} {st : ReadStage}
    (h : s.stage? p = some st) : s.lock.reader = some p := by
  cases p with
  | listener =>
    obtain ⟨wanted, hw⟩ := stage?_listener_iff.mp h
    apply hs.reader_of_holds
    simp [holds, hw, Listener.holds, Worker.holds]
  | client n =>
    obtain ⟨c, buffer, propagate, hc, ha⟩ := stage?_client_iff.mp h
    have hf := hs.fits n c hc
    rw [hl] at hf
    exact hs.reader_of_client_holds hc (hf.holds_of_read ha)

theorem Sound.stage_unique (hs : Sound s) (hl : s.isListening = true) {p q : Party} {st st' : ReadStage}
    (hp : s.stage? p = some st) (hq : s.stage? q = some st') : p = q := by
  have := (hs.reader_of_stage hl hp).symm.trans (hs.reader_of_stage hl hq)
  exact Option.some.inj this

theorem Sound.isListening_of_stage [Endpoint σ] [Surroundings σ] {e : Event σ} (hs : Sound s) (h : Step s e t)
    (hl : s.isListening = true) {p : Party} {st : ReadStage} (hp : s.stage? p = some st) :
    t.isListening = true := by
  cases h.cause with
  | ask => exact hl
  | listener => rfl
  | listenerLate => rfl
  | clientLate hc late =>
    obtain ⟨_, _, -, -, rfl⟩ := Handle.expire?_eq_some late
    exact hl
  | incident => exact hl
  | @client n client client' h' hc step =>
    have steering := Handle.step?_steering step
    cases steering with
    | keep same => rw [isListening, turn, same]; exact hl
    | start _ _ after => rw [isListening, turn, after]; rfl
    | clear _ _ _ _ _ after => rw [isListening, turn, after]; rfl
    | join closing wanted w doing before ended =>
      -- the joining client is alone, and the thread it joins has ended
      exfalso
      cases p with
      | listener =>
        obtain ⟨wanted', hw⟩ := stage?_listener_iff.mp hp
        rw [before] at hw
        rcases ended with rfl | rfl <;> cases hw
      | client m =>
        obtain ⟨d, buffer, propagate, hd, ha⟩ := stage?_client_iff.mp hp
        by_cases hm : m = n
        · subst hm
          rw [hc] at hd; cases hd
          rw [doing] at ha; cases ha
        · have aside := (hs.alone n client hc (by rw [doing]; rfl)).2 m d hd hm
          rw [(Client.isAside_iff.mp aside).1] at ha; cases ha

end System

end HidGate
