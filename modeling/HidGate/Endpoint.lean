import HidGate.Fault

/-!
# Endpoints

What stands behind a handle: something that can be polled, read, written, and asked for feature reports. Any
type of states with these operations will do; nothing is assumed about the bytes it writes or the counts it
claims.
-/

namespace HidGate

/-- One read of an endpoint: the bytes it stored, and the count it claims. -/
structure Reading where
  stored : Bytes
  claimed : Nat
  deriving DecidableEq, Repr

/-- The report of a read: as many bytes as are claimed, out of a zeroed buffer. -/
def Reading.report (r : Reading) : Bytes := r.stored.window maxRead r.claimed

def Reading.whole (data : Bytes) : Reading := ⟨data, min data.length maxRead⟩

class Endpoint (σ : Type) where
  /-- A poll that fails, if the next one does: its error number, and the state after it. -/
  pollFault? : σ → Option (Int × σ)
  /-- One read; there is no result while the endpoint has nothing to read. -/
  fetch? : σ → Option (Except SystemError Reading × σ)
  write : Bytes → σ → Except SystemError Nat × σ
  /-- A feature request for the report that the first byte names: the count claimed, and the bytes put to
  the front of the buffer. -/
  getFeature : Bytes → σ → Except SystemError (Nat × Bytes) × σ
  /-- A feature report that is set: the outcome, and what is then at the front of the buffer it is sent from, as far as
  the endpoint has written there. It may do so even if it fails. -/
  setFeature : Bytes → σ → (Except SystemError Nat × Bytes) × σ
  /-- How many polls and reads may go by before the endpoint has nothing left. -/
  backlog : σ → Nat

def Endpoint.ready {σ : Type} [Endpoint σ] (s : σ) : Bool := (Endpoint.fetch? s).isSome

end HidGate
