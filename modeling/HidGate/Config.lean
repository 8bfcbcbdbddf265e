import HidGate.Fault
import HidGate.Toml.Document

/-!
# Settings of a handle

Three settings, each with a default. They are read from a TOML document, where a key that is missing keeps
its default and an unknown key is passed over, and they are written as one.
-/

namespace HidGate

/-- How long a read waits, how long the listener pauses after a failed read, both in milliseconds, and the
name of the listener's thread. -/
structure Config where
  pollTimeout : UInt64
  errorBackoff : UInt64
  threadName : String
  deriving DecidableEq, Repr

namespace Config

def standard : Config := ⟨1000, 100, "hidraw-events"⟩

/-! ## Durations -/

def longestPoll : Nat := 2147483647

/-- The wait a poll is asked for: the setting, or the longest one if that is exceeded. -/
def pollArgument (c : Config) : Nat := min c.pollTimeout.toNat longestPoll

def split (ms : UInt64) : Nat × Nat := (ms.toNat / 1000, ms.toNat % 1000 * 1000000)

/-! ## Reading -/

def pollTimeoutKey : String := "poll_timeout_ms"
def errorBackoffKey : String := "error_backoff_ms"
def threadNameKey : String := "thread_name"

/-- A document's integers, and so its times, stay below this number. -/
def integerBound : Nat := 0x8000000000000000

/-- A time: the default if there is no value, and no result if the value is none. -/
def time? (default : UInt64) : Option Toml.Value → Option UInt64
  | none => some default
  | some (.integer n) => if 0 ≤ n ∧ n < integerBound then some (UInt64.ofNat n.toNat) else none
  | some _ => none

def name? (default : String) : Option Toml.Value → Option String
  | none => some default
  | some (.string s) => some s
  | some _ => none

/-- The settings in a top-level table. Each field depends on its own key alone. -/
def ofTable? (t : Toml.Table) : Option Config := do
  let pollTimeout ← time? standard.pollTimeout (t.lookup pollTimeoutKey)
  let errorBackoff ← time? standard.errorBackoff (t.lookup errorBackoffKey)
  let threadName ← name? standard.threadName (t.lookup threadNameKey)
  return ⟨pollTimeout, errorBackoff, threadName⟩

/-- The settings in a document; there is no result if it is not well-formed or a setting has a value of
another type. -/
def parse (text : String) : Option Config := (Toml.Document.parse text.toList).bind ofTable?

/-! ## Writing -/

def line (key : String) (value : List Char) : List Char := key.toList ++ " = ".toList ++ value ++ ['\n']

def decimal (n : UInt64) : List Char := Nat.toDigits 10 n.toNat

/-- Why settings cannot be written: a time is too great for an integer of TOML, or the name has a run of
quotes that the writer cannot count. -/
inductive WriteFault
  | outOfRange
  | longRun
  deriving DecidableEq, Repr

def write (c : Config) : Except WriteFault String :=
  if c.pollTimeout.toNat < integerBound ∧ c.errorBackoff.toNat < integerBound then
    match Toml.Quoted.write? c.threadName.toList with
    | some name =>
      .ok (String.ofList (line pollTimeoutKey (decimal c.pollTimeout)
        ++ line errorBackoffKey (decimal c.errorBackoff) ++ line threadNameKey name))
    | none => .error .longRun
  else .error .outOfRange

/-! ## Files -/

inductive LoadFault
  | unreadable (path : String) (cause : SystemError)
  | malformed (path : String)
  deriving DecidableEq, Repr

def LoadFault.message : LoadFault → String
  | .unreadable path _ => "Failed to read config " ++ path
  | .malformed path => "Failed to parse config " ++ path

def notText : SystemError := .text "stream did not contain valid UTF-8"

def text? (content : Bytes) : Option String := String.fromUTF8? ⟨content.toArray⟩

def load (path : String) (content : Except SystemError Bytes) : Except LoadFault Config :=
  match content with
  | .error e => .error (.unreadable path e)
  | .ok bs =>
    match text? bs with
    | none => .error (.unreadable path notText)
    | some s =>
      match parse s with
      | none => .error (.malformed path)
      | some c => .ok c

end Config

end HidGate
