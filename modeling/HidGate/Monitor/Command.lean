import HidGate.Report
import HidGate.Text.HexByte

/-!
# Commands of the monitor

Five commands, each with the values it takes, and how the text of a value is checked.
-/

namespace HidGate.Monitor

inductive Verb
  | info
  | listen
  | getFeature
  | setFeature
  | write
  deriving DecidableEq, Repr

inductive Slot
  | path
  | byte
  | size
  /-- One byte or more; the last slot of its command. -/
  | bytes
  deriving DecidableEq, Repr

def Verb.all : List Verb := [.info, .listen, .getFeature, .setFeature, .write]

def Verb.name : Verb → String
  | .info => "info"
  | .listen => "listen"
  | .getFeature => "get-feature"
  | .setFeature => "set-feature"
  | .write => "write"

def Verb.ofName? (s : String) : Option Verb := Verb.all.find? (·.name == s)

def Verb.slots : Verb → List Slot
  | .info => [.path]
  | .listen => [.path]
  | .getFeature => [.path, .byte, .size]
  | .setFeature => [.path, .byte, .bytes]
  | .write => [.path, .bytes]

def Slot.label : Slot → String
  | .path => "<NODE>"
  | .byte => "<REPORT_ID>"
  | .size => "<LEN>"
  | .bytes => "<DATA>..."

inductive Value
  | path (p : String)
  | byte (b : UInt8)
  | size (n : Nat)
  | bytes (bs : Bytes)
  deriving DecidableEq, Repr

inductive Command
  | info (node : String)
  | listen (node : String)
  | getFeature (node : String) (id : UInt8) (length : Nat)
  | setFeature (node : String) (id : UInt8) (data : Bytes)
  | write (node : String) (data : Bytes)
  deriving DecidableEq, Repr

structure Options where
  command : Command
  config : Option String
  verbose : Bool
  deriving DecidableEq, Repr

def Command.of? : Verb → List Value → Option Command
  | .info, [.path node] => some (.info node)
  | .listen, [.path node] => some (.listen node)
  | .getFeature, [.path node, .byte id, .size length] => some (.getFeature node id length)
  | .setFeature, [.path node, .byte id, .bytes data] => some (.setFeature node id data)
  | .write, [.path node, .bytes data] => some (.write node data)
  | _, _ => none

/-! ## Checking -/

inductive Refusal
  | byte (slot : Slot) (text : String) (flaw : HexByte.Flaw)
  | usage
  deriving DecidableEq, Repr

def readByte (slot : Slot) (s : String) : Except Refusal UInt8 :=
  (HexByte.read s.toList).mapError (.byte slot s)

def sizeBound : Nat := 0x10000000000000000

def decimal? (s : List Char) : Option Nat :=
  if s.isEmpty || !s.all Char.isDigit then none
  else some (s.foldl (fun n c => n * 10 + (c.toNat - '0'.toNat)) 0)

def readSize? (s : String) : Option Nat :=
  (decimal? (match s.toList with
    | '+' :: r => r
    | r => r)).filter (· < sizeBound)

def readPath? (s : String) : Option String := if s.isEmpty then none else some s

def Slot.check : Slot → List String → Except Refusal Value
  | .path, [s] => ((readPath? s).map Value.path).elim (.error .usage) .ok
  | .size, [s] => ((readSize? s).map Value.size).elim (.error .usage) .ok
  | .byte, [s] => (readByte .byte s).map .byte
  | .bytes, texts => (texts.mapM (readByte .bytes)).map .bytes
  | _, _ => .error .usage

end HidGate.Monitor
