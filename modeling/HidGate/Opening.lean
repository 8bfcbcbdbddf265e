import HidGate.Node
import HidGate.Handle

/-!
# Opening a node

Four things can fail, in this order: the path may be empty, the file may not open, the driver may not say who
the device is, and the interrupt pipe may not be made. The first that fails ends it, and a file that was open
by then is let go.
-/

namespace HidGate

inductive Attempt
  | file
  | identity
  | pipe
  deriving DecidableEq, Repr

/-- What opening came to: a handle or a fault, what was tried, what was put on record, and the file that was
let go if one was open by then. -/
structure Opening where
  result : Except Fault (Handle Node)
  attempts : List Attempt
  notices : List Notice
  dropped : Option Node

namespace Opening

def unopened (f : Fault) (attempts : List Attempt) : Opening := ⟨.error f, attempts, [], none⟩

def letGo (f : Fault) (attempts : List Attempt) (notices : List Notice) (node : Node) : Opening :=
  ⟨.error f, attempts, notices, some node⟩

def identified (config : Config) (pipeFault : Option Int) (node : Node) : Opening :=
  match node.identify with
  | (.error e, node) =>
    letGo (.io e) [.file, .identity] [.unidentified node.path (.io e)] node
  | (.ok identity, node) =>
    let opened := Notice.opened node.path identity
    match Handle.make pipeFault config node with
    | .error (f, n) => letGo f [.file, .identity, .pipe] [opened, n] node
    | .ok h => ⟨.ok h, [.file, .identity, .pipe], [opened], none⟩

/-- Opens the node at a path, with the driver that stands behind the file there. `find` says what a path leads
to in the end: an attempt that a signal interrupts is made again, so it is no outcome. -/
def run (find : String → Except SystemError Place) (driver : Node.Driver) (config : Config)
    (pipeFault : Option Int) (path : String) : Opening :=
  if path.isEmpty then unopened (.invalidArgument .noNode) []
  else
    match find path with
    | .error e => unopened (.io e) [.file]
    | .ok place =>
      match Node.Medium.of? place with
      | none => unopened (.io (.code Errno.isDirectory)) [.file]
      | some medium => identified config pipeFault (.opened path medium driver)

end Opening

/-! ## Questions to an open node -/

namespace Handle

def path (h : Handle Node) : String := h.gate.endpoint.path

/-- Asks who the device is, without the lock. -/
def info (h : Handle Node) : Except Fault Identity × Handle Node :=
  let (result, endpoint) := h.gate.endpoint.identify
  (result.mapError .io, h.onGate { h.gate with endpoint })

end Handle

end HidGate
