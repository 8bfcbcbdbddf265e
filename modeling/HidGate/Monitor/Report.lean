import HidGate.Config
import HidGate.Monitor.Command
import HidGate.Text.Unstyled

/-!
# Error reports

What the monitor prints when it fails: what it was about to do, and the causes under it, numbered if there are
several. A command line is refused in a message that is written for a terminal and shown without its
sequences.
-/

namespace HidGate.Monitor

def aligned (width n : Nat) : String :=
  let digits := Nat.toDigits 10 n
  String.ofList (List.replicate (width - digits.length) ' ' ++ digits)

def numbered (causes : List String) : List String :=
  causes.zipIdx.map fun (cause, i) => "\n" ++ aligned 5 i ++ ": " ++ cause

def causeLines : List String → String
  | [] => ""
  | [cause] => "\n\nCaused by:\n    " ++ cause
  | causes => "\n\nCaused by:" ++ String.join (numbered causes)

def report (head : String) (causes : List String) : String := "Error: " ++ head ++ causeLines causes

def causesOf (f : Fault) : List String := f.message :: (f.source.map (·.message)).toList

def reportFault (doing : String) (f : Fault) : String := report doing (causesOf f)

def reportBare (f : Fault) : String := report f.message ((f.source.map (·.message)).toList)

/-! ## Refusals -/

def styled (codes : List String) (s : String) : String :=
  String.join (codes.map ("\x1b[" ++ · ++ "m")) ++ s ++ "\x1b[0m"

def strong : List String := ["1"]
def alarming : List String := ["1", "31"]
def doubtful : List String := ["33"]

def refusalText (label text flaw : String) : String :=
  styled alarming "error:" ++ " invalid value '" ++ styled doubtful text ++ "' for '" ++ styled strong label
    ++ "': " ++ flaw ++ "\n\nFor more information, try '" ++ styled strong "--help" ++ "'.\n"

/-- The message of a refusal as it is shown. Only that of a byte is worded here. -/
def Refusal.message? : Refusal → Option String
  | .byte slot text flaw =>
    let reason := "invalid hex byte '" ++ text ++ "': " ++ flaw.text
    some (String.ofList (Unstyled.keep (refusalText slot.label text reason).toList))
  | .usage => none

/-! ## Settings -/

def malformed : String := "TOML parse error"

def reportLoad (f : Config.LoadFault) : String :=
  report f.message [match f with
    | .unreadable _ cause => cause.message
    | .malformed _ => malformed]

end HidGate.Monitor
