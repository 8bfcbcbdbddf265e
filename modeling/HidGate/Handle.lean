import HidGate.Config
import HidGate.Listener

/-!
# Handles

A handle is a gate with its settings and its listener.
-/

namespace HidGate

/-- A handle over an endpoint; `released` counts how often the endpoint was let go. -/
structure Handle (σ : Type) where
  gate : Gate σ
  config : Config
  listener : Listener
  released : Nat

def Handle.number : Nat := 0

namespace Handle

variable {σ : Type}

def fresh (endpoint : σ) (config : Config) : Handle σ := ⟨.fresh endpoint, config, .stopped, 0⟩

def make (pipeFault : Option Int) (config : Config) (endpoint : σ) : Except (Fault × Notice) (Handle σ) :=
  match pipeFault with
  | some n => .error (.setup (.tabled n), .setupFailed (.tabled n))
  | none => .ok (fresh endpoint config)

def onGate (h : Handle σ) (g : Gate σ) : Handle σ := { h with gate := g }

def withLock (h : Handle σ) (l : SoftLock) : Handle σ := { h with gate := { h.gate with lock := l } }

def note (who : Party) (n : Notice) (h : Handle σ) : Handle σ := h.onGate (h.gate.note who n)

@[simp] theorem note_lock (who : Party) (n : Notice) (h : Handle σ) : (h.note who n).gate.lock = h.gate.lock := rfl

@[simp] theorem note_listener (who : Party) (n : Notice) (h : Handle σ) : (h.note who n).listener = h.listener :=
  rfl

end Handle

end HidGate
