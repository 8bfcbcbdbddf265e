import HidGate.Monitor.Arguments
import HidGate.Monitor.Report
import HidGate.Opening
import HidGate.Session
import HidGate.Text.Visible

/-!
# Running a command

A command opens one node, works on it in a session, and closes it whichever way it ends. What it prints and
what it logs is read off the session's journal.
-/

namespace HidGate.Monitor

/-- Which buffers can be had. An empty one needs no memory. -/
structure Memory where
  grants : Nat → Bool
  grants_zero : grants 0 = true

/-- All that a process can address is there for it: 47 bits of an address are its own. -/
def Memory.addressable : Memory := ⟨fun length => length < 0x800000000000, rfl⟩

/-- How a command ends. A crash still closes the node; running out of memory does not. -/
inductive Finish
  | done
  | failed (report : String)
  | crashed
  | exhausted
  deriving DecidableEq, Repr

inductive Output
  | logged (n : Notice)
  | printed (s : String)
  deriving DecidableEq, Repr

/-- What a record shows. A terminal is kept from acting on what is logged. -/
def Output.text : Output → String
  | .logged n => n.level.name ++ " " ++ Visible.text n.text
  | .printed s => s

/-- What the monitor leaves behind: its status, unless a signal ended it, its output in order, what it was
refused or failed for, and the node it had opened. -/
structure Transcript where
  exit : Option Nat
  output : List Output
  message : Option String
  node : Option Node

structure Work where
  finish : Finish
  out : List String
  session : Session Node

/-! ## Commands -/

/-- A call made by the command; one that could never return would count as a crash. -/
def call (c : Call) (s : Session Node) : Reply × Session Node :=
  (Session.call? c s).getD (⟨.crash none, []⟩, s)

def remark (level : Level) (text : String) (s : Session Node) : Session Node :=
  { s with handle := s.handle.note (.client 0) (.remark level text) }

def failure (doing : String) : Outcome → Finish
  | .fault f => .failed (reportFault doing f)
  | _ => .crashed

def info (node : String) (s : Session Node) : Work :=
  match s.handle.info with
  | (.ok identity, h) => ⟨.done, [node ++ ": " ++ identity.text], { s with handle := h }⟩
  | (.error f, h) => ⟨.failed (reportBare f), [], { s with handle := h }⟩

def watch (s : Session Node) : Outcome × Session Node :=
  let s := (call (.register (some (.observer fun _ => .accept))) s).2
  let (r, s) := call .start s
  (r.outcome, s)

def close (s : Session Node) : Session Node := (call .close s).2

def listen (node : String) (s : Session Node) : Work :=
  match watch s with
  | (.done, s) =>
    let s := remark .info ("Listening on " ++ node ++ " (Ctrl-C to stop)") s
    ⟨.done, [], remark .info "Listener stopped" (close s)⟩
  | (_, s) => ⟨.crashed, [], s⟩

def longestBuffer : Nat := 0x7fffffffffffffff

def named (id : UInt8) : String := "0x" ++ String.ofList (Hex.byte .lower id)

def fetch (id : UInt8) (length : Nat) (s : Session Node) : Work :=
  let doing := "GET_FEATURE " ++ named id ++ " failed"
  match Fault.checkLength length maxBuffer with
  | some f => ⟨failure doing (.fault f), [], s⟩
  | none =>
    let (r, s) := call (.request .feature ⟨.get, id, .filled length 0⟩) s
    match r.outcome with
    | .count n => ⟨.done, [Hex.spaced (r.buffer.take n)], s⟩
    | o => ⟨failure doing o, [], s⟩

/-- The buffer is made before anything is said about its length. -/
def getFeature (memory : Memory) (id : UInt8) (length : Nat) (s : Session Node) : Work :=
  match watch s with
  | (.done, s) =>
    if longestBuffer < length then ⟨.crashed, [], s⟩
    else if memory.grants length then fetch id length s
    else ⟨.exhausted, [], s⟩
  | (_, s) => ⟨.crashed, [], s⟩

def setFeature (id : UInt8) (data : Bytes) (s : Session Node) : Work :=
  let (r, s) := call (.request .feature ⟨.set, id, id :: data⟩) s
  match r.outcome with
  | .count n => ⟨.done, [], remark .info ("Sent " ++ toString n ++ " byte feature report") s⟩
  | o => ⟨failure ("SET_FEATURE " ++ named id ++ " failed") o, [], s⟩

def write (data : Bytes) (s : Session Node) : Work :=
  let (r, s) := call (.write data) s
  match r.outcome with
  | .done => ⟨.done, [], remark .info ("Wrote " ++ toString data.length ++ " byte output report") s⟩
  | o => ⟨failure "Output report write failed" o, [], s⟩

def Command.node : Command → String
  | .info node => node
  | .listen node => node
  | .getFeature node _ _ => node
  | .setFeature node _ _ => node
  | .write node _ => node

def work (memory : Memory) (s : Session Node) : Command → Work
  | .info node => info node s
  | .listen node => listen node s
  | .getFeature _ id length => getFeature memory id length s
  | .setFeature _ id data => setFeature id data s
  | .write _ data => write data s

/-! ## Transcripts -/

/-- A level is shown from `info` on, and from `debug` on if more is asked for. -/
def shows (verbose : Bool) : Level → Bool
  | .trace => false
  | .debug => verbose
  | _ => true

def Output.isShown (verbose : Bool) : Output → Bool
  | .logged n => shows verbose n.level
  | .printed _ => true

def listenLine (report : Bytes) : String := aligned 4 report.length ++ " | " ++ Hex.spaced report

def Command.onReport (r : Bytes) : Command → Option Output
  | .listen _ => some (.printed (listenLine r))
  | .getFeature .. => some (.logged (.remark .debug ("input: " ++ Hex.spaced r)))
  | _ => none

def outputOf (command : Command) (e : Entry) : Option Output :=
  e.notice?.map .logged <|> e.report?.bind (command.onReport ·)

def logged (verbose : Bool) (notices : List Notice) : List Output :=
  (notices.map .logged).filter (·.isShown verbose)

def Finish.exit : Finish → Option Nat
  | .done => some 0
  | .failed _ => some 1
  | .crashed => some 101
  | .exhausted => none

def Finish.message? : Finish → Option String
  | .failed report => some report
  | _ => none

def unopened (exit : Nat) (output : List Output) (message : Option String) : Transcript :=
  ⟨some exit, output, message, none⟩

def Work.closed (w : Work) : Session Node :=
  match w.finish with
  | .exhausted => w.session
  | _ => close w.session

/-- What a command prints of its own comes between its work and the closing. -/
def Work.transcript (options : Options) (opened : List Notice) (w : Work) : Transcript :=
  let before := w.session.handle.gate.journal
  let after := w.closed.handle.gate.journal.drop before.length
  let output := opened.map .logged ++ before.filterMap (outputOf options.command) ++ w.out.map .printed
    ++ after.filterMap (outputOf options.command)
  ⟨w.finish.exit, output.filter (·.isShown options.verbose), w.finish.message?,
    some (Session.endpoint w.closed)⟩

/-! ## The monitor -/

def settings (find : String → Except SystemError Place) : Option String → Except Config.LoadFault Config
  | none => .ok .standard
  | some path => Config.load path ((find path).bind Place.bytes)

def perform (find : String → Except SystemError Place) (driver : Node.Driver) (memory : Memory)
    (options : Options) : Transcript :=
  match settings find options.config with
  | .error f => unopened 1 [] (some (reportLoad f))
  | .ok config =>
    let node := options.command.node
    let opening := Opening.run find driver config none node
    match opening.result with
    | .error f =>
      ⟨some 1, logged options.verbose opening.notices, some (reportFault ("Failed to open " ++ node) f),
        opening.dropped⟩
    | .ok h => (work memory (.of h) options.command).transcript options opening.notices

def version : String := "hidraw-monitor 0.1.0"

def usage : String :=
  "Usage: hidraw-monitor [-v] [-c FILE] <info|listen|get-feature|set-feature|write> NODE ..."

/-- Carries out a command line. `find` says what a path leads to, and `driver` stands behind the node. -/
def run (find : String → Except SystemError Place) (driver : Node.Driver) (args : List String)
    (memory : Memory := .addressable) : Transcript :=
  match read args with
  | .error .version => unopened 0 [.printed version] none
  | .error .help => unopened 0 [.printed usage] none
  | .error (.refused why) => unopened 2 [] why.message?
  | .ok options => perform find driver memory options

end HidGate.Monitor
