import HttpRelay.Throttle.Pacing
import HttpRelay.Transport.Feed

/-!
# Throttled Streams

A stream whose reads and writes each draw from a rule set, keyed by one peer. A `Transfer` is a
call under way on one of the two directions. `World.advance` takes its next step; between any two
steps the scheduler, the far side and the other direction may act. `World.resume` takes steps until
the call returns or has to wait.
-/

namespace HttpRelay.Throttle

/-- Why a throttled transfer failed. -/
inductive Error where
  | io (failure : IoFailure)
  /-- The caller gave up while it waited for an allowance. -/
  | cancelled (transferred : Nat)
  | unknownRuleSet (id : RuleSetId)
  deriving DecidableEq, Repr

/-- The text shown for an error. -/
def Error.message : Error → String
  | io failure => "I/O error: " ++ failure.name
  | cancelled transferred => s!"throttled transfer cancelled after {transferred} bytes"
  | unknownRuleSet id => "unknown rule set " ++ id.display

/-- The stream below. -/
structure Inner where
  /-- What the far side sent. -/
  incoming : Feed := {}
  /-- What was written, in pieces, the last one first. -/
  written : List Bytes := []
  /-- How many bytes can be written before a write has to wait, if there is a limit. -/
  room : Option Nat := none
  /-- The write side was shut down, or the far side is gone. -/
  broken : Bool := false
  deriving DecidableEq, Repr

namespace Inner

/-- Everything written so far. -/
def output (inner : Inner) : Bytes := inner.written.reverse.flatten

/-- How many of `count` bytes can be written now. -/
def accepts (inner : Inner) (count : Nat) : Nat := min count (inner.room.getD count)

/-- Write bytes for which there is room. -/
def put (inner : Inner) (bytes : Bytes) : Inner :=
  { inner with
    written := bytes :: inner.written
    room := inner.room.map (· - bytes.length) }

end Inner

/-- A stream with pacing in both directions. -/
structure Stream (α : Type) where
  peer : Peer
  read : Pacing α
  write : Pacing α
  inner : Inner := {}
  deriving DecidableEq, Repr

/-- Which way bytes go. -/
inductive Direction where
  | read
  | write
  deriving DecidableEq, Repr

/-- What a transfer does. -/
inductive Mode where
  /-- Write everything, waiting for allowances, until it is done or cancelled. -/
  | writePaced
  /-- Write everything through the stream. -/
  | writeAll
  /-- Write once through the stream. -/
  | writeOnce
  /-- Shut the write side down. -/
  | shutdown
  /-- Read until the wish is met or the far side sends less, or until cancelled. -/
  | readPaced
  /-- Read the whole wish through the stream. -/
  | readExact
  /-- Read once through the stream. -/
  | readOnce
  deriving DecidableEq, Repr

namespace Mode

/-- The direction that a transfer takes up. -/
def direction : Mode → Direction
  | writePaced | writeAll | writeOnce | shutdown => .write
  | readPaced | readExact | readOnce => .read

/-- Whether a transfer holds its own tickets, and can be cancelled while it waits for one. Any other
asks the stream anew whenever it has waited. -/
def isPaced : Mode → Bool
  | writePaced | readPaced => true
  | _ => false

/-- Whether a transfer goes on until nothing is left to be transferred. -/
def isWhole : Mode → Bool
  | writePaced | writeAll | readPaced | readExact => true
  | _ => false

end Mode

/-- What a transfer waits for. -/
inductive Awaited where
  | ticket (ticket : Nat)
  | input
  | room
  deriving DecidableEq, Repr

/-- How a transfer ended. -/
inductive Outcome where
  | done
  | failed (error : Error)
  deriving DecidableEq, Repr

/-- Where a transfer stands. -/
inductive Phase where
  /-- It looks whether anything is left, and whether that has to wait for allowances. -/
  | ready
  /-- It wishes for an allowance. -/
  | asks
  /-- It looks for what came of a ticket. -/
  | holds (ticket : Nat)
  /-- The stream below is to transfer `limit` bytes. A write has got through `begun` of them. They
  are covered by the allowance, or free. -/
  | moves (limit begun : Nat) (covered : Bool)
  /-- It returns. -/
  | returns (outcome : Outcome)
  deriving DecidableEq, Repr

/-- A call under way. -/
structure Transfer where
  mode : Mode
  /-- Bytes still to be written. -/
  rest : Bytes := []
  /-- Number of bytes still wished for. -/
  want : Nat := 0
  /-- Number of bytes transferred. -/
  moved : Nat := 0
  /-- What was read, in pieces, the last one first. -/
  got : List Bytes := []
  phase : Phase := .ready
  /-- What the transfer waits for; nothing if it did not wait yet. -/
  awaits : Option Awaited := none
  deriving DecidableEq, Repr

namespace Transfer

/-- Number of bytes still to be transferred. -/
def wanted (t : Transfer) : Nat :=
  match t.mode.direction with
  | .read => t.want
  | .write => t.rest.length

/-- What was read, from the front of the buffer on. -/
def data (t : Transfer) : Bytes := t.got.reverse.flatten

/-- Record bytes read. -/
def took (t : Transfer) (data : Bytes) : Transfer :=
  { t with want := t.want - data.length, moved := t.moved + data.length, got := data :: t.got }

/-- Where a read stands behind `count` bytes, of the `limit` that it asked for. -/
def behindRead (t : Transfer) (limit count : Nat) : Phase :=
  match t.mode with
  | .readPaced => if limit ≤ count && 0 < count then .ready else .returns .done
  | .readExact => if count = 0 then .returns (.failed (.io .unexpectedEof)) else .ready
  | _ => .returns .done

/-- Where a write stands behind `count` bytes. -/
def behindWrite (t : Transfer) (count : Nat) : Phase :=
  if t.mode.isWhole && 0 < count then .ready else .returns .done

end Transfer

/-- What a step of a transfer did. -/
inductive Deed (α : Type) where
  /-- It found out where to go on. -/
  | turns
  /-- It parked a request. -/
  | parks (ticket : Nat)
  /-- It took what came of the request for `requested` bytes. -/
  | applies (requested : Nat) (receipt : Receipt α)
  /-- It transferred bytes, of the `limit` that it asked for, and of its allowance or free. -/
  | transfers (limit : Nat) (data : Bytes) (covered : Bool)
  /-- The stream below failed it. -/
  | fails (failure : IoFailure)
  /-- It has to wait. -/
  | waits (awaited : Awaited)
  /-- It returned. -/
  | ends (outcome : Outcome)
  deriving DecidableEq, Repr

/-- Whether a transfer can do nothing more for now. -/
def Deed.isLast {α : Type} : Deed α → Bool
  | waits _ | ends _ => true
  | _ => false

/-- What a transfer works on: the bookkeeping of its direction, the stream below, the scheduler, and
what came of tickets. -/
structure World (α : Type) where
  peer : Peer
  pacing : Pacing α
  inner : Inner
  transfer : Transfer
  scheduler : Scheduler α
  mail : Mail α
  deriving DecidableEq, Repr

namespace World

variable {α : Type} [Quantity α]

/-- Go on elsewhere. -/
def enter (w : World α) (phase : Phase) : World α :=
  { w with transfer := { w.transfer with phase } }

/-- Put off a transfer. One that asks the stream anew begins again; any other stays where it is. -/
def await (w : World α) (awaited : Awaited) : Deed α × World α :=
  let phase := if w.transfer.mode.isPaced then w.transfer.phase else .ready
  (.waits awaited, { w with transfer := { w.transfer with phase, awaits := some awaited } })

/-- Look whether anything is left. A transfer through the stream passes the scheduler by if the rule
set has no budget, and no longer waits for an answer then. -/
def start (w : World α) : Deed α × World α :=
  let mode := w.transfer.mode
  if mode = .shutdown then
    (.turns, { w with inner := { w.inner with broken := true } }.enter (.returns .done))
  else if mode.isWhole && w.transfer.wanted = 0 then (.turns, w.enter (.returns .done))
  else if !mode.isPaced && (w.transfer.wanted = 0 || !w.scheduler.isThrottled w.pacing.ruleSet) then
    (.turns, { w with pacing := { w.pacing with waiting := none } }.enter
      (.moves w.transfer.wanted 0 false))
  else (.turns, w.enter .asks)

/-- Look for what came of a ticket. A paced transfer takes the ticket along; any other leaves it with
its direction. -/
def hold (w : World α) (ticket : Nat) : World α :=
  { w with pacing := { w.pacing with
      waiting := if w.transfer.mode.isPaced then none else some ticket } }.enter (.holds ticket)

/-- Wish for an allowance. What is left of the last one comes first, and then the answer to a
request that waits. -/
def ask (w : World α) : Deed α × World α :=
  if 0 < w.pacing.allowance then
    (.turns, w.enter (.moves (min w.pacing.allowance w.transfer.wanted) 0 true))
  else
    match w.pacing.waiting with
    | some ticket => (.turns, w.hold ticket)
    | none =>
      match w.pacing.park w.peer w.transfer.wanted w.scheduler with
      | (some ticket, pacing, scheduler) => (.parks ticket, { w with pacing, scheduler }.hold ticket)
      | (none, _, _) => (.turns, w.enter (.moves w.transfer.wanted 0 false))

/-- Take what came of a ticket out of the mail. -/
def unload (w : World α) (ticket : Nat) : World α :=
  { w with mail := w.mail.eraseP (·.1 == ticket) }

/-- Look for what came of a ticket. A caller that gives up keeps a grant that has arrived, or leaves
the ticket with its direction. -/
def redeem (w : World α) (ticket : Nat) (cancelled : Bool) : Deed α × World α :=
  let gives := w.transfer.mode.isPaced && cancelled
  let quits : Phase := .returns (.failed (.cancelled w.transfer.moved))
  match w.mail.lookup ticket, gives with
  | none, false => w.await (.ticket ticket)
  | none, true =>
    (.turns, { w with pacing := { w.pacing with waiting := some ticket } }.enter quits)
  | some receipt, false =>
    let pacing := { w.pacing with waiting := none }.receive receipt
    (.applies w.pacing.requested receipt, { w.unload ticket with pacing }.enter .asks)
  | some (.grant allowance), true =>
    let pacing := w.pacing.apply allowance
    (.applies w.pacing.requested (.grant allowance), { w.unload ticket with pacing }.enter quits)
  | some .lost, true => (.turns, (w.unload ticket).enter quits)

/-- Read from the stream below. What a paced transfer reads counts in any case. -/
def pull (w : World α) (limit : Nat) (covered : Bool) : Deed α × World α :=
  match w.inner.incoming.readSome (ε := IoFailure) limit with
  | (.error _, _) => w.await .input
  | (.ok data, incoming) =>
    (.transfers limit data covered,
      { w with
        inner := { w.inner with incoming }
        pacing := if covered || w.transfer.mode.isPaced then w.pacing.spend data.length else w.pacing
        transfer := w.transfer.took data }.enter (w.transfer.behindRead limit data.length))

/-- Write to the stream below. A paced transfer writes the whole of a piece, and accounts for it when
all of it is through. -/
def push (w : World α) (limit begun : Nat) (covered : Bool) : Deed α × World α :=
  if w.inner.broken then (.fails .brokenPipe, w.enter (.returns (.failed (.io .brokenPipe))))
  else if w.inner.room = some 0 && begun < limit then w.await .room
  else
    let count := min (w.inner.accepts (limit - begun)) w.transfer.rest.length
    let data := w.transfer.rest.take count
    let whole := begun + count
    let w' := { w with
      inner := w.inner.put data
      transfer := { w.transfer with rest := w.transfer.rest.drop count } }
    (.transfers (limit - begun) data covered,
      if w.transfer.mode.isPaced && whole < limit && 0 < count then
        w'.enter (.moves limit whole covered)
      else
        let charge := if w.transfer.mode.isPaced || covered then whole else 0
        { w' with
          pacing := w.pacing.spend charge
          transfer := { w'.transfer with moved := w.transfer.moved + whole } }.enter
            (w.transfer.behindWrite count))

/-- The next step of a transfer whose caller may have given up. -/
def advance (cancelled : Bool) (w : World α) : Deed α × World α :=
  match w.transfer.phase with
  | .ready => w.start
  | .asks => w.ask
  | .holds ticket => w.redeem ticket cancelled
  | .moves limit begun covered =>
    match w.transfer.mode.direction with
    | .read => w.pull limit covered
    | .write => w.push limit begun covered
  | .returns outcome => (.ends outcome, w)

/-- How far a phase is from the end of a round, in steps. -/
def remaining (w : World α) : Nat :=
  match w.transfer.phase with
  | .ready => if w.transfer.mode.isWhole && w.transfer.wanted = 0 then 1 else 5
  | .asks => 4
  | .holds _ => 3
  | .moves _ _ _ => 2
  | .returns _ => 0

/-- How many steps a transfer can take before it returns or has to wait, at most: a round takes a
byte, or something out of the mail. -/
def effort (w : World α) : Nat :=
  5 * w.transfer.wanted + 2 * w.mail.length + w.remaining

/-- Take steps, at most `steps` of them, until a transfer returns or has to wait. -/
def resumeWithin (cancelled : Bool) (w : World α) : (steps : Nat) → Deed α × World α
  | 0 => (.turns, w)
  | steps + 1 =>
    let (deed, w) := w.advance cancelled
    if deed.isLast then (deed, w) else w.resumeWithin cancelled steps

/-- Run a transfer until it returns or has to wait. -/
def resume (cancelled : Bool) (w : World α) : Deed α × World α :=
  w.resumeWithin cancelled (w.effort + 1)

/-- Whether a transfer can go on: it has not begun, what it waits for has come, or its caller gives
up while it waits for an allowance. -/
def isReady (cancelled : Bool) (w : World α) : Bool :=
  match w.transfer.awaits with
  | none => true
  | some (.ticket ticket) =>
    (w.mail.lookup ticket).isSome || (cancelled && w.transfer.mode.isPaced)
  | some .input => !w.inner.incoming.arrived.isEmpty || w.inner.incoming.closed
  | some .room => w.inner.broken || w.inner.room != some 0

end World

namespace Stream

variable {α : Type} [Quantity α]

/-- A stream with a rule set for each direction. -/
def split (read write : RuleSetId) (peer : Peer) : Stream α :=
  { peer, read := .start read, write := .start write }

/-- A stream with one rule set for both directions. -/
def paced (ruleSet : RuleSetId) (peer : Peer) : Stream α := split ruleSet ruleSet peer

/-- Everything written so far. -/
def output (st : Stream α) : Bytes := st.inner.output

/-- What a transfer on a stream works on. -/
def world (st : Stream α) (transfer : Transfer) (scheduler : Scheduler α) (mail : Mail α) :
    World α :=
  { peer := st.peer
    pacing := match transfer.mode.direction with
      | .read => st.read
      | .write => st.write
    inner := st.inner
    transfer, scheduler, mail }

/-- The stream behind what a transfer did to it. -/
def behind (st : Stream α) (w : World α) : Stream α :=
  match w.transfer.mode.direction with
  | .read => { st with read := w.pacing, inner := w.inner }
  | .write => { st with write := w.pacing, inner := w.inner }

end Stream

end HttpRelay.Throttle
