import ApiDouble.Replay.Runner

/-!
# Batches

The requests of one operation, replayed one after the other. A batch moves in small steps, between
which other batches may move and the test may be cancelled: the next request is sent, or skipped if
the test is cancelled by then; a call that is out gets its reply, or is given up because the test is
cancelled.

`run` goes on until nothing is left or a call stays without a reply.
-/

namespace ApiDouble.Replay

/-- A list of requests being replayed. `calling` says that the first of the waiting ones was sent.
-/
structure Batch where
  plan : Plan
  waiting : List Message
  calling : Bool := false
  outcomes : List Outcome := []

namespace Batch

def isDone (b : Batch) : Bool := b.waiting.isEmpty

/-- The next request: sent, which gives the call, or skipped. None if there is none, or if one is
out already. -/
def send? (cancelled : Bool) (b : Batch) : Option (Option Call × Batch) :=
  match b.calling, b.waiting with
  | false, request :: rest =>
    if cancelled then
      some (none, { b with waiting := rest, outcomes := b.outcomes ++ [.skipped request] })
    else some (some (b.plan.call request), { b with calling := true })
  | _, _ => none

/-- Ends the call that is out. -/
def settle? (outcome : Message → Outcome) (b : Batch) : Option Batch :=
  match b.calling, b.waiting with
  | true, request :: rest =>
    some { b with waiting := rest, calling := false, outcomes := b.outcomes ++ [outcome request] }
  | _, _ => none

/-- The reply to the call that is out. -/
def receive? (reply : Reply) (elapsed : UInt64) (b : Batch) : Option Batch :=
  b.settle? fun request => b.plan.outcome request reply elapsed

/-- Gives up the call that is out, which only a cancelled test does. -/
def abandon? (cancelled : Bool) (b : Batch) : Option Batch :=
  if cancelled then b.settle? Outcome.skipped else none

end Batch

/-! ## Running -/

/-- What becomes of a call: a reply after some time, or silence. -/
inductive CallEnd
  | replied (reply : Reply) (elapsed : UInt64)
  | silent

/-- What sends calls. -/
abbrev Transport (m : Type → Type) := Call → m CallEnd

/-- Where a batch is kept while it runs, and the token of its test. -/
structure Seat (m : Type → Type) where
  isCancelled : m Bool
  read : m Batch
  write : Batch → m Unit

variable {m : Type → Type} [Monad m]

/-- Moves a batch on for at most so many requests. Says whether it came to its end. -/
def Seat.run (seat : Seat m) (transport : Transport m) : Nat → m Bool
  | 0 => return (← seat.read).isDone
  | n + 1 => do
    match (← seat.read).send? (← seat.isCancelled) with
    | none => return (← seat.read).isDone
    | some (none, b) =>
      seat.write b
      seat.run transport n
    | some (some call, b) =>
      seat.write b
      let next ← match ← transport call with
        | .replied reply elapsed => pure ((← seat.read).receive? reply elapsed)
        | .silent => pure ((← seat.read).abandon? (← seat.isCancelled))
      match next with
      | some b =>
        seat.write b
        seat.run transport n
      | none => return false

/-- Moves on a batch whose call stayed without a reply, now that the test may be cancelled. -/
def Seat.resume (seat : Seat m) (transport : Transport m) : m Bool := do
  let b ← seat.read
  match b.abandon? (← seat.isCancelled) with
  | some b =>
    seat.write b
    seat.run transport b.waiting.length
  | none => return b.isDone

/-- Moves on a batch that may have a call out, to which a late reply may have come by now. -/
def Seat.poll (seat : Seat m) (transport late : Transport m) : m Bool := do
  let b ← seat.read
  match b.calling, b.waiting with
  | true, request :: _ =>
    match ← late (b.plan.call request) with
    | .replied reply elapsed =>
      match (← seat.read).receive? reply elapsed with
      | some b =>
        seat.write b
        seat.run transport b.waiting.length
      | none => return false
    | .silent => seat.resume transport
  | _, _ => seat.run transport b.waiting.length

end ApiDouble.Replay
