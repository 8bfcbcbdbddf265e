import HidGate.Proofs.Motion

/-!
# The queue of an endpoint in memory

Items leave the queue at its front, when a poll fails or a read comes, and arrive at its end. So what was taken
and what is still there make up what came in, in order.
-/

namespace HidGate

/-! ## What polls and reads meet -/

namespace Bench

def Item.answer? : Item → Option (Except SystemError Reading)
  | .report r => some (.ok r)
  | .readFault n => some (.error (.code n))
  | .pollFault _ => none

variable {b b' : Bench}

theorem pollFault?_eq_some {n : Int} :
    b.pollFault? = some (n, b') ↔ ∃ rest, b.queue = .pollFault n :: rest ∧ b' = b.advance (.pollFault n) rest := by
  unfold pollFault?
  split
  · rename_i m rest hq
    rw [hq]
    constructor
    · intro h; cases h; exact ⟨rest, rfl, rfl⟩
    · rintro ⟨rest', h, rfl⟩; cases h; rfl
  · rename_i hq
    constructor
    · intro h; cases h
    · rintro ⟨rest, h, -⟩; exact absurd h (hq n rest)

theorem fetch?_eq_some {answer : Except SystemError Reading} :
    b.fetch? = some (answer, b') ↔
      ∃ x rest, b.queue = x :: rest ∧ x.answer? = some answer ∧ b' = b.advance x rest := by
  unfold fetch?
  constructor
  · intro h
    split at h
    · rename_i r rest hq; cases h; exact ⟨.report r, rest, hq, rfl, rfl⟩
    · rename_i n rest hq; cases h; exact ⟨.readFault n, rest, hq, rfl, rfl⟩
    · cases h
  · rintro ⟨x, rest, hq, hx, rfl⟩
    rw [hq]
    cases x <;> cases hx <;> rfl

theorem front_of_ready (h : Endpoint.ready b = true) :
    ∃ x rest answer, b.queue = x :: rest ∧ Item.answer? x = some answer := by
  obtain ⟨⟨answer, b'⟩, hf⟩ := Option.isSome_iff_exists.mp h
  obtain ⟨x, rest, hq, hx, -⟩ := fetch?_eq_some.mp hf
  exact ⟨x, rest, answer, hq, hx⟩

/-! ## What left and what came -/

/-- The items `T` left the queue, and the items `A` arrived. -/
structure Moved (T A : List Item) (b b' : Bench) : Prop where
  taken : b'.taken = b.taken ++ T
  queue : T ++ b'.queue = b.queue ++ A

theorem Moved.refl (b : Bench) : Moved [] [] b b := ⟨by simp, by simp⟩

theorem Moved.trans {T A T' A' : List Item} {b'' : Bench} (h : Moved T A b b') (h' : Moved T' A' b' b'') :
    Moved (T ++ T') (A ++ A') b b'' := by
  constructor
  · rw [h'.taken, h.taken, List.append_assoc]
  · rw [List.append_assoc, h'.queue, ← List.append_assoc, h.queue, List.append_assoc]

theorem Moved.advance {x : Item} {rest : List Item} (hq : b.queue = x :: rest) :
    Moved [x] [] b (b.advance x rest) :=
  ⟨rfl, by rw [hq]; simp [Bench.advance]⟩

theorem Moved.befall (i : Incident) (b : Bench) : Moved [] i.items b (befall i b) := by
  cases i with
  | arrive items => exact ⟨by simp [Bench.befall, arrive], rfl⟩
  | answer features => exact ⟨by simp [Bench.befall], by simp [Bench.befall, Incident.items]⟩
  | accept rule => exact ⟨by simp [Bench.befall], by simp [Bench.befall, Incident.items]⟩

end Bench

open Bench (Moved)

theorem Touch.moved {b b' : Bench} (h : Touch b b') : Moved [] [] b b' := by
  cases h with
  | keep => exact .refl b
  | write report =>
    simp only [Endpoint.write, Bench.write]
    split <;> exact ⟨by simp, by simp⟩
  | get scratch =>
    exact ⟨by simp [Endpoint.getFeature, Bench.getFeature], by simp [Endpoint.getFeature, Bench.getFeature]⟩
  | set report =>
    simp only [Endpoint.setFeature, Bench.setFeature]
    split <;> exact ⟨by simp, by simp⟩

/-! ## Along a trace -/

def Event.items : Event Bench → List Bench.Item
  | .move _ => []
  | .incident i => i.items

namespace System

def produced (tr : Trace Bench) : List Bench.Item := tr.flatMap (·.1.items)

variable {s t : System Bench} {e : Event Bench} {p : Party}

theorem Sound.moved_of_still (hs : Sound s) (hl : s.isListening = true) (h : Step s e t) {st st' : ReadStage}
    (hp : s.stage? p = some st) (hp' : t.stage? p = some st') (hn : st'.report? = none) :
    Moved [] e.items s.endpoint t.endpoint := by
  cases h.motion with
  | @read q st₁ next g at_q step endpoint _ _ goes =>
    have hq : q = p := hs.stage_unique hl at_q hp
    subst hq
    rw [hp'] at goes
    rw [endpoint, step.endpoint_of_stage goes.symm hn]
    exact .refl _
  | late _ endpoint => rw [endpoint]; exact .refl _
  | propagate _ _ endpoint => rw [endpoint]; exact .refl _
  | aside _ gate => exact gate.endpoint.moved
  | incident i endpoint => rw [endpoint]; exact .befall i _

end System

end HidGate
