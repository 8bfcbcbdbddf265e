import HidGate.Fault
import HidGate.Identity
import HidGate.Text.Hex

/-!
# Notices

What the handle, its listener and its clients put on record, and the line each notice is shown as.
-/

namespace HidGate

inductive Level
  | error
  | warn
  | info
  | debug
  | trace
  deriving DecidableEq, Repr

def Level.name : Level → String
  | .error => "ERROR"
  | .warn => "WARN"
  | .info => "INFO"
  | .debug => "DEBUG"
  | .trace => "TRACE"

inductive Notice
  | opened (path : String) (identity : Identity)
  | unidentified (path : String) (why : Fault)
  | setupFailed (cause : SystemError)
  | received (report : Bytes)
  | sent (report : Bytes)
  /-- A feature reply, as much of it as was copied. -/
  | got (id : UInt8) (reply : Bytes)
  | setting (id : UInt8) (report : Bytes)
  | publishing (length : Nat)
  | rejected (why : Fault)
  | listening (thread : String)
  | listenerStarted
  | listenerExiting
  | listenerStopped
  | listenerCrashed
  | listenerDrained (length : Nat)
  | listenerFailed (why : Fault)
  /-- A line of a program that uses the handle. -/
  | remark (level : Level) (text : String)
  deriving DecidableEq, Repr

namespace Notice

def level : Notice → Level
  | .unidentified .. | .setupFailed _ => .error
  | .rejected _ | .listenerCrashed | .listenerFailed _ => .warn
  | .opened .. | .listening _ | .listenerStarted | .listenerExiting | .listenerStopped => .debug
  | .received _ | .sent _ | .got .. | .setting .. | .publishing _ | .listenerDrained _ => .trace
  | .remark level _ => level

def front (report : Bytes) : String := Hex.listed (report.take 16)

def number (id : UInt8) : String := "0x" ++ String.ofList (Hex.byte .upper id)

def text : Notice → String
  | .opened path identity => "Opened " ++ path ++ " (" ++ identity.text ++ ")"
  | .unidentified path why => "Error while getting info from " ++ path ++ ": " ++ why.message
  | .setupFailed cause => "Error while initializing hidraw: " ++ cause.message
  | .received report => "hidraw rx " ++ toString report.length ++ " bytes: " ++ front report
  | .sent report => "hidraw tx " ++ toString report.length ++ " bytes: " ++ front report
  | .got id reply => "GET_FEATURE " ++ number id ++ ": " ++ front reply
  | .setting id report => "SET_FEATURE " ++ number id ++ ": " ++ front report
  | .publishing length => "Broadcasting " ++ toString length ++ " byte report"
  | .rejected why => "Input report handler failed: " ++ why.message
  | .listening thread => "hidraw listener running as " ++ thread
  | .listenerStarted => "hidraw listener started"
  | .listenerExiting => "hidraw listener exiting"
  | .listenerStopped => "hidraw listener stopped"
  | .listenerCrashed => "hidraw listener thread panicked"
  | .listenerDrained length => "Listener drained a " ++ toString length ++ " byte report"
  | .listenerFailed why => "hidraw listener read error: " ++ why.message
  | .remark _ text => text

def line (n : Notice) : String := n.level.name ++ " " ++ n.text

end Notice

end HidGate
