import HidGate.Report
import HidGate.Errno

/-!
# Faults

What an operation on a device fails with: seven kinds, each with its message, the negative number a C caller
is given, and whether a bounded read is expected to end that way now and then.
-/

namespace HidGate

inductive SystemError
  | code (n : Int)
  | text (s : String)
  deriving DecidableEq, Repr

namespace SystemError

def message : SystemError → String
  | .code n => Errno.text n ++ " (os error " ++ toString n ++ ")"
  | .text s => s

/-- The error of a call that reports its number through the table of named numbers: a number outside the
table is lost and becomes zero. -/
def tabled (n : Int) : SystemError := .code (if Errno.named n then n else 0)

/-- The number, or that of an input/output error where there is none. -/
def number : SystemError → Int
  | .code n => n
  | .text _ => Errno.inputOutput

end SystemError

inductive Misuse
  | length (len max : Nat)
  | foreignLock
  | noNode
  | other (reason : String)
  deriving DecidableEq, Repr

def Misuse.message : Misuse → String
  | .length len max => "report length " ++ toString len ++ " outside 1..=" ++ toString max
  | .foreignLock => "events lock was taken on another device"
  | .noNode => "no device node given"
  | .other reason => reason

inductive Fault
  | invalidArgument (what : Misuse)
  | unsupported (kind : ReportKind)
  | io (cause : SystemError)
  | timeout
  | interrupted
  | setup (cause : SystemError)
  | shortWrite (written expected : Nat)
  deriving DecidableEq, Repr

namespace Fault

def message : Fault → String
  | .invalidArgument what => "Invalid argument: " ++ what.message
  | .unsupported kind => "Unsupported report kind: " ++ kind.name
  | .io cause => "I/O error: " ++ cause.message
  | .timeout => "Timed out waiting for an input report"
  | .interrupted => "Read interrupted by a pending lock request"
  | .setup cause => "Failed to initialize hidraw handle: " ++ cause.message
  | .shortWrite written expected =>
    "Incomplete write: " ++ toString written ++ " of " ++ toString expected ++ " bytes"

def source : Fault → Option SystemError
  | .io cause => some cause
  | .setup cause => some cause
  | _ => none

def code : Fault → Int
  | .invalidArgument _ => Errno.invalid
  | .unsupported _ => Errno.unsupported
  | .io cause => cause.number
  | .timeout => Errno.timedOut
  | .interrupted => Errno.interrupted
  | .setup cause => cause.number
  | .shortWrite _ _ => Errno.inputOutput

/-- The number handed to a C caller: the code negated. The least number of 32 bits has no negative among
them. -/
def errno? (f : Fault) : Option Int := if f.code = -0x80000000 then none else some (-f.code)

/-- Timeouts and interruptions are expected outcomes of a bounded read. -/
def isTransient : Fault → Bool
  | .timeout => true
  | .interrupted => true
  | _ => false

/-- A report or buffer must have between 1 and `max` bytes. -/
def checkLength (len max : Nat) : Option Fault :=
  if len < 1 || max < len then some (.invalidArgument (.length len max)) else none

theorem checkLength_eq_none {len max : Nat} : checkLength len max = none ↔ 1 ≤ len ∧ len ≤ max := by
  simp only [checkLength, Bool.or_eq_true, decide_eq_true_eq]
  split <;> simp <;> omega

end Fault

end HidGate
