import HidGate.System
import HidGate.Bench

/-!
# Runs

A system starts with a fresh handle and idle clients. From then on moves come in any order, and the endpoint
changes by itself as its surroundings like. The one thing asked of the clients is that they read only under a
permit they hold: without the permit at hand there is no such call.
-/

namespace HidGate

class Surroundings (σ : Type) where
  Incident : Type
  befall : Incident → σ → σ

inductive Event (σ : Type) [Surroundings σ]
  | move (m : Move)
  | incident (i : Surroundings.Incident σ)

abbrev Trace (σ : Type) [Surroundings σ] := List (Event σ × System σ)

namespace System

variable {σ : Type}

def lock (s : System σ) : SoftLock := s.handle.gate.lock

def endpoint (s : System σ) : σ := s.handle.gate.endpoint

def journal (s : System σ) : List Entry := s.handle.gate.journal

/-- The handle's listener is started and not yet stopped; its thread may have ended. -/
def isListening (s : System σ) : Bool := s.handle.listener.isRunning

def withEndpoint (s : System σ) (endpoint : σ) : System σ :=
  { s with handle := s.handle.onGate { s.handle.gate with endpoint } }

variable [Endpoint σ] [Surroundings σ]

/-! ## Steps -/

def happen? (s : System σ) : Event σ → Option (System σ)
  | .move m => s.next m
  | .incident i => some (s.withEndpoint (Surroundings.befall i s.handle.gate.endpoint))

/-- A call to read comes with a permit that the client holds, or with one of another device. -/
def honors (s : System σ) : Event σ → Bool
  | .move (.ask n (.read permit _ _)) =>
    !permit.guards Handle.number || s.clients[n]?.any (·.permits.contains permit)
  | _ => true

def Step (s : System σ) (e : Event σ) (t : System σ) : Prop := s.honors e = true ∧ s.happen? e = some t

theorem step_of_turn {s : System σ} {n : Nat} {c : Client} {u : Turn σ} (hc : s.clients[n]? = some c)
    (goes : s.handle.step? n c = some u) : Step s (.move (.run (.client n))) (s.turn n u) :=
  ⟨rfl, by simp only [happen?, next, run?, hc, Option.bind_some, goes, Option.map_some]⟩

inductive Cause (s : System σ) : Event σ → System σ → Prop
  | ask {n : Nat} {c : Call} {client : Client} (at_n : s.clients[n]? = some client) (idle : client.isIdle = true)
      (admitted : s.admits c = true) (honored : s.honors (.move (.ask n c)) = true) :
      Cause s (.move (.ask n c))
        { s with clients := s.clients.set n { client with activity := .enter c, reply := none } }
  | listener {wanted : Bool} {d : Duty} {w : Worker} {g : Gate σ}
      (on_duty : s.handle.listener = .running wanted (.working d))
      (step : d.step? wanted s.handle.gate = some (w, g)) :
      Cause s (.move (.run .listener)) (s.work wanted (w, g))
  | client {n : Nat} {client client' : Client} {h : Handle σ} (at_n : s.clients[n]? = some client)
      (step : s.handle.step? n client = some (client', h)) :
      Cause s (.move (.run (.client n))) (s.turn n (client', h))
  | listenerLate {wanted : Bool} {d : Duty} {w : Worker} {g : Gate σ}
      (on_duty : s.handle.listener = .running wanted (.working d))
      (late : d.expire? s.handle.gate = some (w, g)) :
      Cause s (.move (.expire .listener)) (s.work wanted (w, g))
  | clientLate {n : Nat} {client client' : Client} {h : Handle σ} (at_n : s.clients[n]? = some client)
      (late : s.handle.expire? client = some (client', h)) :
      Cause s (.move (.expire (.client n))) (s.turn n (client', h))
  | incident (i : Surroundings.Incident σ) :
      Cause s (.incident i) (s.withEndpoint (Surroundings.befall i s.handle.gate.endpoint))

theorem Step.cause {s t : System σ} {e : Event σ} (h : Step s e t) : Cause s e t := by
  obtain ⟨hh, h⟩ := h
  cases e with
  | incident i => cases h; exact .incident i
  | move m =>
    cases m with
    | ask n c =>
      simp only [happen?, next, ask?] at h
      split at h
      · rename_i client hc
        split at h
        · rename_i ha
          rw [Bool.and_eq_true] at ha
          cases h
          exact .ask hc ha.1 ha.2 hh
        · cases h
      · cases h
    | run p =>
      cases p with
      | listener =>
        simp only [happen?, next, run?] at h
        split at h
        · rename_i hl
          obtain ⟨⟨w, g⟩, hd, rfl⟩ := Option.map_eq_some_iff.mp h
          exact .listener hl hd
        · cases h
      | client n =>
        simp only [happen?, next, run?] at h
        obtain ⟨client, hc, h⟩ := Option.bind_eq_some_iff.mp h
        obtain ⟨⟨client', h'⟩, hs, rfl⟩ := Option.map_eq_some_iff.mp h
        exact .client hc hs
    | expire p =>
      cases p with
      | listener =>
        simp only [happen?, next, expire?] at h
        split at h
        · rename_i hl
          obtain ⟨⟨w, g⟩, hd, rfl⟩ := Option.map_eq_some_iff.mp h
          exact .listenerLate hl hd
        · cases h
      | client n =>
        simp only [happen?, next, expire?] at h
        obtain ⟨client, hc, h⟩ := Option.bind_eq_some_iff.mp h
        obtain ⟨⟨client', h'⟩, hs, rfl⟩ := Option.map_eq_some_iff.mp h
        exact .clientLate hc hs

/-- The states that can come about, whatever the endpoint, the settings and the number of clients. -/
inductive Reachable : System σ → Prop
  | start (endpoint : σ) (config : Config) (n : Nat) : Reachable (start (.fresh endpoint config) n)
  | step {s t : System σ} {e : Event σ} : Reachable s → Step s e t → Reachable t

/-! ## Traces -/

def Follows : System σ → Trace σ → Prop
  | _, [] => True
  | s, (e, t) :: tr => Step s e t ∧ Follows t tr

def final : System σ → Trace σ → System σ
  | s, [] => s
  | _, (_, t) :: tr => final t tr

def play : System σ → List (Event σ) → Trace σ
  | _, [] => []
  | s, e :: es =>
    if s.honors e then
      match s.happen? e with
      | some t => (e, t) :: play t es
      | none => []
    else []

theorem follows_play (s : System σ) (es : List (Event σ)) : Follows s (s.play es) := by
  induction es generalizing s with
  | nil => trivial
  | cons e es ih =>
    rw [play]
    split
    · rename_i hh
      split
      · rename_i t ht; exact ⟨⟨hh, ht⟩, ih t⟩
      · trivial
    · trivial

theorem map_fst_play {s : System σ} {es : List (Event σ)} (all : (s.play es).length = es.length) :
    (s.play es).map Prod.fst = es := by
  induction es generalizing s with
  | nil => rfl
  | cons e es ih =>
    rw [play] at all ⊢
    split at all
    · rename_i honored
      split at all
      · rename_i t ht
        rw [if_pos honored, List.map_cons, ih (Nat.succ.inj all)]
      · cases all
    · cases all

theorem Reachable.follows {s : System σ} (hs : Reachable s) :
    ∀ {tr : Trace σ}, Follows s tr → Reachable (final s tr)
  | [], _ => hs
  | (_, _) :: _, h => (hs.step h.1).follows h.2

def after (s : System σ) (es : List (Event σ)) : System σ := final s (s.play es)

theorem Reachable.after {s : System σ} (hs : Reachable s) (es : List (Event σ)) : Reachable (s.after es) :=
  hs.follows (follows_play s es)

theorem step_after {s : System σ} {e : Event σ} (h : (s.honors e && (s.happen? e).isSome) = true) :
    Step s e (s.after [e]) := by
  rw [Bool.and_eq_true] at h
  obtain ⟨hh, hs⟩ := h
  obtain ⟨t, ht⟩ := Option.isSome_iff_exists.mp hs
  have : s.after [e] = t := by simp [System.after, play, hh, ht, final]
  exact ⟨hh, by rw [this]; exact ht⟩

omit [Endpoint σ] in
theorem final_of_forall {P : System σ → Prop} {s : System σ} (hs : P s) :
    ∀ {tr : Trace σ}, (∀ x ∈ tr, P x.2) → P (final s tr)
  | [], _ => hs
  | (e, t) :: _, h => final_of_forall (h (e, t) List.mem_cons_self) fun x hx => h x (List.mem_cons_of_mem _ hx)

omit [Endpoint σ] in
theorem final_append (s : System σ) (tr tr' : Trace σ) : final s (tr ++ tr') = final (final s tr) tr' := by
  induction tr generalizing s with
  | nil => rfl
  | cons x tr ih => exact ih x.2

theorem follows_append {s : System σ} {tr tr' : Trace σ} :
    Follows s (tr ++ tr') ↔ Follows s tr ∧ Follows (final s tr) tr' := by
  induction tr generalizing s with
  | nil => simp [Follows, final]
  | cons x tr ih => obtain ⟨e, t⟩ := x; simp only [List.cons_append, Follows, final, ih, and_assoc]

end System

/-! ## The endpoint in memory -/

namespace Bench

inductive Incident
  | arrive (items : List Item)
  | answer (features : FeatureTable)
  | accept (rule : WriteRule)

def befall : Incident → Bench → Bench
  | .arrive items, b => b.arrive items
  | .answer features, b => { b with features }
  | .accept writeRule, b => { b with writeRule }

def Incident.items : Incident → List Item
  | .arrive items => items
  | _ => []

end Bench

instance : Surroundings Bench where
  Incident := Bench.Incident
  befall := Bench.befall

end HidGate
