import HidGate.Notice
import HidGate.SoftLock
import HidGate.Broadcast
import HidGate.Endpoint

/-!
# The gate

An endpoint behind its soft lock, with the one handler that reports are handed to. Every call and every cycle
of the listener works on it. The journal holds what happened, oldest first: notices, and reports handed over.
-/

namespace HidGate

/-! ## Handlers -/

inductive Verdict
  | accept
  | reject (why : Fault)
  | crash
  deriving DecidableEq, Repr

/-- A hearer judges each report, after those that it has heard; a broadcast sends it on to its readers. -/
inductive Handler
  | hearer (judge : List Bytes → Bytes → Verdict)
  | broadcast

/-- A hearer that remembers nothing. -/
def Handler.observer (judge : Bytes → Verdict) : Handler := .hearer fun _ => judge

structure Registration where
  number : Nat
  handler : Handler

/-! ## The journal -/

inductive Recipient
  | nobody
  | observer (number : Nat)
  | broadcast (number : Nat)
  deriving DecidableEq, Repr

inductive Entry
  | notice (who : Party) (what : Notice)
  | handed (who : Party) (recipient : Recipient) (report : Bytes)
  deriving DecidableEq, Repr

def Entry.notice? : Entry → Option Notice
  | .notice _ n => some n
  | .handed .. => none

def Entry.report? : Entry → Option Bytes
  | .notice .. => none
  | .handed _ _ report => some report

/-! ## The state -/

abbrev Feed := Channel Unit Bytes

/-- `heard` are the reports handed over since the handler was registered. `registered` counts the handlers so far, and
`feed` is the channel of the latest broadcasting one. -/
structure Gate (σ : Type) where
  endpoint : σ
  lock : SoftLock
  handler : Option Registration
  heard : List Bytes
  registered : Nat
  feed : Option Feed
  journal : List Entry

namespace Gate

variable {σ : Type}

def fresh (endpoint : σ) : Gate σ := ⟨endpoint, .free, none, [], 0, none, []⟩

def enter (e : Entry) (g : Gate σ) : Gate σ := { g with journal := g.journal ++ [e] }

def note (who : Party) (n : Notice) (g : Gate σ) : Gate σ := g.enter (.notice who n)

/-- A broadcasting handler gets a channel with one reader. A channel is closed when its handler goes. -/
def feedFor (h : Option Handler) (old : Option Feed) : Option Feed :=
  match h with
  | some .broadcast => some (Channel.fresh.subscribe ())
  | _ => old.map Channel.close

def register (h : Option Handler) (g : Gate σ) : Gate σ :=
  { g with
    handler := h.map (⟨g.registered, ·⟩)
    heard := []
    registered := if h.isSome then g.registered + 1 else g.registered
    feed := feedFor h g.feed }

/-- Hands a report to the registered handler. Without one there is nobody to refuse it. -/
def hand (who : Party) (report : Bytes) (g : Gate σ) : Verdict × Gate σ :=
  let heard := g.heard ++ [report]
  match g.handler with
  | none => (.accept, { g.enter (.handed who .nobody report) with heard })
  | some ⟨k, .hearer judge⟩ => (judge g.heard report, { g.enter (.handed who (.observer k) report) with heard })
  | some ⟨k, .broadcast⟩ =>
    (.accept, { (g.note who (.publishing report.length)).enter (.handed who (.broadcast k) report) with
      heard, feed := g.feed.map (·.publish report) })

/-! ### What stays -/

@[simp] theorem note_lock (who : Party) (n : Notice) (g : Gate σ) : (g.note who n).lock = g.lock := rfl

@[simp] theorem note_endpoint (who : Party) (n : Notice) (g : Gate σ) : (g.note who n).endpoint = g.endpoint := rfl

@[simp] theorem note_handler (who : Party) (n : Notice) (g : Gate σ) : (g.note who n).handler = g.handler := rfl

@[simp] theorem note_heard (who : Party) (n : Notice) (g : Gate σ) : (g.note who n).heard = g.heard := rfl

@[simp] theorem note_journal (who : Party) (n : Notice) (g : Gate σ) :
    (g.note who n).journal = g.journal ++ [.notice who n] := rfl

@[simp] theorem register_lock (h : Option Handler) (g : Gate σ) : (g.register h).lock = g.lock := rfl

@[simp] theorem register_endpoint (h : Option Handler) (g : Gate σ) : (g.register h).endpoint = g.endpoint := rfl

@[simp] theorem register_journal (h : Option Handler) (g : Gate σ) : (g.register h).journal = g.journal := rfl

@[simp] theorem hand_lock (who : Party) (report : Bytes) (g : Gate σ) : (g.hand who report).2.lock = g.lock := by
  unfold hand; split <;> rfl

@[simp] theorem hand_endpoint (who : Party) (report : Bytes) (g : Gate σ) :
    (g.hand who report).2.endpoint = g.endpoint := by
  unfold hand; split <;> rfl

@[simp] theorem hand_handler (who : Party) (report : Bytes) (g : Gate σ) :
    (g.hand who report).2.handler = g.handler := by
  unfold hand; split <;> rfl

@[simp] theorem hand_heard (who : Party) (report : Bytes) (g : Gate σ) :
    (g.hand who report).2.heard = g.heard ++ [report] := by
  unfold hand; split <;> rfl

end Gate

end HidGate
