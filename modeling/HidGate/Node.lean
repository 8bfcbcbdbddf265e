import HidGate.Endpoint
import HidGate.Feature
import HidGate.FileTree
import HidGate.Identity
import HidGate.Text.Hex

/-!
# An endpoint that is a file

A file opened for reading and writing, with the answers of the driver behind it to control requests. What is
read and written depends on what kind of file it is; a pipe is both ends of the device at once.
-/

namespace HidGate

namespace Node

/-- Bytes in a pipe. A read ends with a packet, and what did not fit of it is lost. -/
structure Chunk where
  data : Bytes
  isPacket : Bool
  deriving DecidableEq, Repr

inductive Medium
  | pipe (queue : List Chunk)
  | regular (content : Bytes) (offset : Nat)
  | null
  | zero
  | full
  deriving DecidableEq, Repr

/-- The answers of a driver: an identity or an error number, and features. A driver without an answer is no
driver of such a device. -/
structure Driver where
  identity : Option (Except Int RawIdentity)
  features : FeatureTable

inductive Control
  | identify
  | getFeature (scratch : Bytes)
  | setFeature (report : Bytes)
  deriving DecidableEq, Repr

/-- The code of a control request: its direction and the size of its argument, then its number. -/
def Control.code : Control → Nat
  | .identify => 0x80084803
  | .getFeature scratch => 0xc0004807 + scratch.length * 0x10000
  | .setFeature report => 0xc0004806 + report.length * 0x10000

def Control.argument : Control → Bytes
  | .identify => []
  | .getFeature scratch => scratch
  | .setFeature report => report

def Control.text (c : Control) : String :=
  "0x" ++ String.ofList (Hex.fixed .lower 8 c.code)
    ++ (if c.argument.isEmpty then "" else " " ++ Hex.plain c.argument)

end Node

open Node in
structure Node where
  path : String
  medium : Medium
  driver : Driver
  requests : List Control
  writes : List Bytes

namespace Node

/-! ## Media -/

def packets (data : List Bytes) : List Chunk := (data.filter (!·.isEmpty)).map (⟨·, true⟩)

/-- What a place is once it is open; a folder cannot be opened for writing. -/
def Medium.of? : Place → Option Medium
  | .folder => none
  | .regular content => some (.regular content 0)
  | .fifo data => some (.pipe (packets data))
  | .null => some .null
  | .zero => some .zero
  | .full => some .full

/-- Up to `room` bytes out of a pipe: all chunks of the stream that fit, and at most one packet. -/
def takeChunks (room : Nat) : List Chunk → Bytes × List Chunk
  | [] => ([], [])
  | c :: rest =>
    if c.isPacket then (c.data.take room, rest)
    else if c.data.length < room then
      let (more, rest) := takeChunks (room - c.data.length) rest
      (c.data ++ more, rest)
    else (c.data.take room, if c.data.length = room then rest else ⟨c.data.drop room, false⟩ :: rest)

def overwrite (content : Bytes) (offset : Nat) (data : Bytes) : Bytes :=
  content.take offset ++ data ++ content.drop (offset + data.length)

def Medium.fetch? : Medium → Option (Bytes × Medium)
  | .pipe [] => none
  | .pipe queue => let (data, rest) := takeChunks maxRead queue; some (data, .pipe rest)
  | .regular content offset =>
    let data := (content.drop offset).take maxRead
    some (data, .regular content (offset + data.length))
  | .null => some ([], .null)
  | .zero => some (.filled maxRead 0, .zero)
  | .full => some (.filled maxRead 0, .full)

def Medium.write (data : Bytes) : Medium → Except SystemError Nat × Medium
  | .pipe queue => (.ok data.length, .pipe (queue ++ [⟨data, false⟩]))
  | .regular content offset =>
    (.ok data.length, .regular (overwrite content offset data) (offset + data.length))
  | .full => (.error (.code Errno.noSpace), .full)
  | m => (.ok data.length, m)

/-- Packets put into a pipe from outside; nothing else takes any. -/
def Medium.arrive (data : List Bytes) : Medium → Medium
  | .pipe queue => .pipe (queue ++ packets data)
  | m => m

def Medium.drain : Medium → Bytes × Medium
  | .pipe queue => (queue.flatMap (·.data), .pipe [])
  | m => ([], m)

def Medium.backlog : Medium → Nat
  | .pipe queue => queue.length
  | .regular content offset => (content.length - offset) / maxRead + 1
  | _ => 1

/-! ## Control requests -/

/-- A call gives back 32 bits. Minus one says that it failed, here for no known reason; of other negative
counts the sign goes on to the left. -/
def count (n : Nat) : Except SystemError Nat :=
  match (n : Int).bmod 0x100000000 with
  | -1 => .error (.tabled 0)
  | k => .ok (k % 0x10000000000000000).toNat

def opened (path : String) (medium : Medium) (driver : Driver) : Node := ⟨path, medium, driver, [], []⟩

def ask (c : Control) (n : Node) : Node := { n with requests := n.requests ++ [c] }

/-- Asks the driver who the device is. A file without a driver does not take the request. -/
def identify (n : Node) : Except SystemError Identity × Node :=
  match n.driver.identity with
  | none => (.error (.tabled Errno.notTerminal), n)
  | some (.error e) => (.error (.tabled e), n.ask .identify)
  | some (.ok raw) => (.ok (.ofRaw raw), n.ask .identify)

def getFeature (scratch : Bytes) (n : Node) : Except SystemError (Nat × Bytes) × Node :=
  (((n.driver.features.get scratch).mapError .tabled).bind fun (k, data) => (count k).map (·, data),
    n.ask (.getFeature scratch))

def setFeature (report : Bytes) (n : Node) : (Except SystemError Nat × Bytes) × Node :=
  let (answer, data) := n.driver.features.set report
  (((answer.mapError .tabled).bind count, data), n.ask (.setFeature report))

def fetch? (n : Node) : Option (Except SystemError Reading × Node) :=
  n.medium.fetch?.map fun (data, medium) => (.ok (.whole data), { n with medium })

def write (data : Bytes) (n : Node) : Except SystemError Nat × Node :=
  let (result, medium) := n.medium.write data
  (result, { n with medium, writes := n.writes ++ [data] })

end Node

instance : Endpoint Node where
  pollFault? := fun _ => none
  fetch? := Node.fetch?
  write := Node.write
  getFeature := Node.getFeature
  setFeature := Node.setFeature
  backlog := fun n => n.medium.backlog

end HidGate
