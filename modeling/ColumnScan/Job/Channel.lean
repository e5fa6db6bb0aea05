/-!
# Result channels

A channel carries results from a job to one reader. It may be bounded, and the reader may go away.
A channel of capacity zero keeps nothing: it is full whenever no reader is waiting.
-/

set_option autoImplicit false

namespace ColumnScan

/-- A channel as its sender sees it. -/
structure Channel (β : Type) where
  /-- The most results that the channel keeps, if there is a limit. -/
  capacity : Option Nat := none
  /-- The results that were sent and not received yet, the oldest first. -/
  queued : List β := []
  isOpen : Bool := true
deriving DecidableEq

/-- What became of an attempt to send. -/
inductive SendOutcome where
  | sent
  | full
  | closed
deriving DecidableEq

namespace Channel

variable {β : Type}

def isFull (channel : Channel β) : Bool :=
  match channel.capacity with
  | none => false
  | some capacity => capacity ≤ channel.queued.length

/-- Try to send without waiting. A reader that is gone matters before a lack of room. -/
def trySend (channel : Channel β) (result : β) : SendOutcome × Channel β :=
  if !channel.isOpen then (.closed, channel)
  else if channel.isFull then (.full, channel)
  else (.sent, { channel with queued := channel.queued ++ [result] })

def receive (channel : Channel β) : Option β × Channel β :=
  match channel.queued with
  | [] => (none, channel)
  | result :: rest => (some result, { channel with queued := rest })

/-- The reader goes away; what it did not receive is lost. -/
def close (channel : Channel β) : Channel β := { channel with queued := [], isOpen := false }

end Channel

end ColumnScan
