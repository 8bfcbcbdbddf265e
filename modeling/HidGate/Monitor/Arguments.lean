import HidGate.Monitor.Command

/-!
# Reading a command line

Arguments are read from left to right, first those before the command's name, then those after it. Two options
may stand on either side: `-c` with a path, and `-v`; what stands after the name wins. A value is held until
the next argument shows that it is complete, and is checked then: the first thing found wrong is what the
command line is refused for, and an unknown option comes before the value that is held.
-/

namespace HidGate.Monitor

inductive Ending
  | refused (why : Refusal)
  | version
  | help
  deriving DecidableEq, Repr

/-! ## Arguments -/

inductive Argument
  | separator
  | long (name : String) (value : Option String)
  | short (letters : List Char)
  | plain (s : String)
  deriving DecidableEq, Repr

def splitEquals (s : List Char) : List Char × Option (List Char) :=
  (s.takeWhile (· != '='), if s.contains '=' then some ((s.dropWhile (· != '=')).drop 1) else none)

def Argument.of (s : String) : Argument :=
  match s.toList with
  | ['-', '-'] => .separator
  | '-' :: '-' :: r =>
    let (name, value) := splitEquals r
    .long (String.ofList name) (value.map String.ofList)
  | '-' :: c :: r => .short (c :: r)
  | _ => .plain s

/-! ## State -/

/-- Texts taken from the line and not checked yet. An option may still lack its value. -/
inductive Held
  | nothing
  | config (path : Option String)
  | slot (k : Slot) (texts : List String)
  deriving DecidableEq, Repr

/-- One side of the command's name: its options, what is held, the slots not begun, and the values checked.
`literal` says that a separator was met, after which there are no options. -/
structure Side where
  config : Option String
  verbose : Bool
  held : Held
  free : List Slot
  values : List Value
  literal : Bool

namespace Side

def start (free : List Slot) : Side := ⟨none, false, .nothing, free, [], false⟩

def refuse {α : Type} : Except Ending α := .error (.refused .usage)

def setConfig (path : Option String) (s : Side) : Except Ending Side :=
  match path.bind readPath?, s.config with
  | some p, none => .ok { s with config := some p }
  | _, _ => refuse

def addValue (v : Value) (values : List Value) : List Value :=
  match v, values.getLast? with
  | .bytes more, some (.bytes bs) => values.dropLast ++ [.bytes (bs ++ more)]
  | v, _ => values ++ [v]

def settle (s : Side) : Except Ending Side :=
  let rest := { s with held := .nothing }
  match s.held with
  | .nothing => .ok rest
  | .config path => rest.setConfig path
  | .slot k texts =>
    match k.check texts with
    | .ok v => .ok { rest with values := addValue v s.values }
    | .error r => .error (.refused r)

/-! ## Steps -/

def setVerbose (s : Side) : Except Ending Side := do
  let s ← s.settle
  if s.verbose then refuse else return { s with verbose := true }

def takeConfig (path : Option String) (s : Side) : Except Ending Side := do
  let s ← s.settle
  match path with
  | some p => s.setConfig (some p)
  | none => return { s with held := .config none }

def attached : List Char → Option String
  | [] => none
  | '=' :: r => some (String.ofList r)
  | r => some (String.ofList r)

/-- Help may be asked for on either side, the version before the command's name only. -/
def letterEnding? (top : Bool) (c : Char) : Option Ending :=
  if c = 'h' then some .help else if top ∧ c = 'V' then some .version else none

def wordEnding? (top : Bool) (name : String) : Option Ending :=
  if name = "help" then some .help else if top ∧ name = "version" then some .version else none

/-- Ends the line, unless what is held is wrong. What is no ending is unknown, and comes before that. -/
def conclude (e : Option Ending) (s : Side) : Except Ending Side :=
  match e with
  | some e => s.settle.bind fun _ => .error e
  | none => refuse

def letters (top : Bool) : List Char → Side → Except Ending Side
  | [], s => .ok s
  | c :: r, s =>
    if c = 'v' then s.setVerbose.bind (letters top r)
    else if c = 'c' then s.takeConfig (attached r)
    else s.conclude (letterEnding? top c)

def word (top : Bool) (name : String) (value : Option String) (s : Side) : Except Ending Side :=
  if name = "config" then s.takeConfig value
  else if value.isSome then refuse
  else if name = "verbose" then s.setVerbose
  else s.conclude (wordEnding? top name)

/-- A text for the next slot. Bytes gather until something else comes. -/
def take (text : String) (s : Side) : Except Ending Side :=
  match s.free, s.held with
  | [], _ => refuse
  | .bytes :: _, .slot .bytes texts => .ok { s with held := .slot .bytes (texts ++ [text]) }
  | .bytes :: _, _ => s.settle.map fun s => { s with held := .slot .bytes [text] }
  | k :: free, _ => s.settle.map fun s => { s with held := .slot k [text], free }

def step (top : Bool) (arg : String) (s : Side) : Except Ending Side :=
  if s.literal then s.take arg
  else
    match Argument.of arg, s.held with
    | .separator, _ => .ok { s with literal := true }
    | .long name value, _ => s.word top name value
    | .short cs, _ => letters top cs s
    | .plain text, .config none => .ok { s with held := .config (some text) }
    | .plain text, _ => s.take text

def awaits (s : Side) : Bool := s.held == .config none

end Side

/-! ## The whole line -/

def readCommand (verb : Verb) (args : List String) : Except Ending (Command × Side) := do
  let s ← args.foldlM (fun s arg => s.step false arg) (Side.start verb.slots)
  let s ← s.settle
  match Command.of? verb s.values with
  | some c => return (c, s)
  | none => Side.refuse

/-- The command's name and what follows. Help is asked for by the names of commands. -/
def readName (top : Side) (name : String) (rest : List String) : Except Ending Options :=
  match Verb.ofName? name with
  | some verb => do
    let (command, s) ← readCommand verb rest
    let top ← top.settle
    return ⟨command, s.config <|> top.config, top.verbose || s.verbose⟩
  | none =>
    if name = "help" && rest.all (fun n => (Verb.ofName? n).isSome) then .error .help else Side.refuse

def readLine (top : Side) : List String → Except Ending Options
  | [] => Side.refuse
  | arg :: rest =>
    match Argument.of arg with
    | .plain name =>
      if top.literal then Side.refuse
      else if top.awaits then (top.step true arg).bind (readLine · rest)
      else readName top name rest
    | _ => (top.step true arg).bind (readLine · rest)

def read (args : List String) : Except Ending Options := readLine (Side.start []) args

end HidGate.Monitor
