import HidGate.Monitor.Run

/-!
# The program

Carries out the command line it is given. Files are opened and read here; no driver is asked, so a file that
opens is taken for one that does not answer.
-/

namespace HidGate.Main

def systemError : IO.Error → SystemError
  | .alreadyExists _ n _ | .invalidArgument _ n _ | .permissionDenied _ n _ | .resourceExhausted _ n _
  | .inappropriateType _ n _ | .noSuchThing _ n _ => .code n.toNat
  | .interrupted _ n _ | .noFileOrDirectory _ n _ => .code n.toNat
  | .otherError n _ | .resourceBusy n _ | .resourceVanished n _ | .unsupportedOperation n _
  | .hardwareFault n _ | .unsatisfiedConstraints n _ | .illegalOperation n _ | .protocolError n _
  | .timeExpired n _ => .code n.toNat
  | .unexpectedEof => .text "unexpected end of file"
  | .userError s => .text s

def found {α : Type} (place : α → Place) (look : IO α) : IO (Except SystemError Place) := do
  try return .ok (place (← look))
  catch e => return .error (systemError e)

def document (path : String) : IO (Except SystemError Place) :=
  found (fun content => .regular content.data.toList) (IO.FS.readBinFile path)

def device (path : String) : IO (Except SystemError Place) :=
  found (fun _ => .null) (IO.FS.Handle.mk path .readWrite)

def look (options : Monitor.Options) : IO (String → Except SystemError Place) := do
  let node ← device options.command.node
  match options.config with
  | none => return fun _ => node
  | some path =>
    let settings ← document path
    return fun p => if p = path then settings else node

def driver : Node.Driver := ⟨none, .empty⟩

def transcript (args : List String) : IO Monitor.Transcript := do
  match Monitor.read args with
  | .ok options => return Monitor.run (← look options) driver args
  | .error _ => return Monitor.run (fun _ => .error (.code Errno.notFound)) driver args

def aborted : Nat := 134

end HidGate.Main

def main (args : List String) : IO UInt32 := do
  let t ← HidGate.Main.transcript args
  for record in t.output do IO.println record.text
  match t.message with
  | some m => IO.eprintln m
  | none => if t.exit = some 2 then IO.eprintln HidGate.Monitor.usage
  return UInt32.ofNat (t.exit.getD HidGate.Main.aborted)
