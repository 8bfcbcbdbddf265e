/-!
# Broadcast

A channel that fans items out to any number of readers. It keeps the last 256 items; a reader that falls
further behind is told how many it missed and then stands at the oldest item kept. Without a reader nothing
is kept.
-/

namespace HidGate

/-- A channel with readers named by `ι`. Items are counted from 0; a reader stands at the number of the item
it takes next. -/
structure Channel (ι α : Type) where
  sent : Nat
  kept : List α
  isOpen : Bool
  readers : List (ι × Nat)

inductive Receipt (α : Type)
  | item (a : α)
  | lagged (missed : Nat)
  | empty
  | closed
  deriving DecidableEq, Repr

namespace Channel

variable {ι α : Type} [DecidableEq ι]

def capacity : Nat := 256

def fresh : Channel ι α := ⟨0, [], true, []⟩

def position? (c : Channel ι α) (r : ι) : Option Nat := c.readers.lookup r

def place (c : Channel ι α) (r : ι) (n : Nat) : Channel ι α :=
  { c with readers := (r, n) :: c.readers.filter (·.1 ≠ r) }

/-- A new reader sees the items sent from now on; one of the same name is replaced. -/
def subscribe (c : Channel ι α) (r : ι) : Channel ι α := c.place r c.sent

def unsubscribe (c : Channel ι α) (r : ι) : Channel ι α :=
  { c with readers := c.readers.filter (·.1 ≠ r) }

/-- Sends an item. Beyond the capacity the oldest item is overwritten. -/
def publish (c : Channel ι α) (a : α) : Channel ι α :=
  if c.readers.isEmpty then c
  else { c with sent := c.sent + 1, kept := (c.kept ++ [a]).drop (c.kept.length + 1 - capacity) }

def close (c : Channel ι α) : Channel ι α := { c with isOpen := false }

def unread? (c : Channel ι α) (r : ι) : Option Nat := (c.position? r).map (c.sent - ·)

def next (c : Channel ι α) (n : Nat) : Receipt α × Nat :=
  let behind := c.sent - n
  if capacity < behind then (.lagged (behind - capacity), c.sent - capacity)
  else if behind = 0 then (if c.isOpen then .empty else .closed, n)
  else match c.kept[c.kept.length - behind]? with
    | some a => (.item a, n + 1)
    | none => (.empty, n)

def receive? (c : Channel ι α) (r : ι) : Option (Receipt α × Channel ι α) :=
  (c.position? r).map fun n => ((c.next n).1, c.place r (c.next n).2)

def receiveUpTo : Nat → Channel ι α → ι → List (Receipt α) × Channel ι α
  | 0, c, _ => ([], c)
  | fuel + 1, c, r =>
    match c.receive? r with
    | none => ([], c)
    | some (.empty, c) => ([.empty], c)
    | some (.closed, c) => ([.closed], c)
    | some (x, c) =>
      let rest := receiveUpTo fuel c r
      (x :: rest.1, rest.2)

/-- A reader takes all there is. A notice of items missed comes at most once, before the items kept. -/
def receiveAll (c : Channel ι α) (r : ι) : List (Receipt α) × Channel ι α :=
  receiveUpTo (min c.sent capacity + 2) c r

end Channel

end HidGate
