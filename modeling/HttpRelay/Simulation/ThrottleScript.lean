import HttpRelay.Throttle.Stream

/-!
# Throttling on a Virtual Clock

A script drives a scheduler and the streams that wait for it, on a clock that moves only when
the script says so. Ticks fire on the way, and after every step each transfer goes on as far as
it can.
-/

namespace HttpRelay.Simulation.ThrottleScript

open HttpRelay.Throttle

/-- A transfer in the queue of its stream. -/
structure Job where
  /-- Index of the stream. -/
  stream : Nat
  transfer : Transfer
  /-- The number by which the transfer can be cancelled. -/
  token : Option Nat
  /-- The caller went away. -/
  aborted : Bool := false
  /-- How the transfer ended, and when. -/
  ended : Option (Outcome × Nat) := none

/-- Whether a job still occupies its stream. -/
def Job.isLive (job : Job) : Bool := !job.aborted && job.ended.isNone

/-- A stream with what was ever handed to its two directions. -/
structure Line (α : Type) where
  stream : Stream α
  /-- Bytes handed to write so far. -/
  handed : Nat := 0
  /-- Bytes fed by the far side so far. -/
  fed : Nat := 0

/-- Everything that a script acts on. -/
structure Stage (α : Type) where
  scheduler : Scheduler α
  lines : List (Line α) := []
  jobs : List Job := []
  /-- Milliseconds since the start. -/
  clock : Nat := 0
  /-- When the last tick fired, or ticking began. -/
  lastTick : Nat := 0
  /-- When the next tick fires. -/
  nextTick : Option Nat := none
  /-- Answers that were not taken yet. -/
  mail : Mail α := []
  /-- Tokens cancelled so far. -/
  cancelled : List Nat := []

/-- A step of a script. -/
inductive Step where
  | setBudget (id : RuleSetId) (value : Int)
  | getBudget (id : RuleSetId)
  | getPending (id : RuleSetId)
  | isThrottled (id : RuleSetId)
  | setBurst (ms : Nat)
  | start
  | shutdown
  | advance (ms : Nat)
  | feed (stream count : Nat)
  | feedEnd (stream : Nat)
  | dropFar (stream : Nat)
  | transfer (stream : Nat) (mode : Mode) (count : Nat) (token : Option Nat)
  | cancel (token : Nat)
  | abort (index : Nat)

/-- What a step answers. -/
inductive Answer where
  | nothing
  | number (n : Nat)
  | flag (b : Bool)
  | failed (error : Error)

variable {α : Type} [Quantity α]

/-- Bytes of the pattern, from an offset on. -/
def pattern (offset count : Nat) : Bytes :=
  (List.range count).map fun i => UInt8.ofNat ((offset + i) % 251)

/-- Whether a job at the head of its queue can go on. -/
def canRun (stage : Stage α) (job : Job) : Bool :=
  job.isLive &&
    (stage.lines[job.stream]?).any fun line =>
      (line.stream.world job.transfer stage.scheduler stage.mail).isReady
        (job.token.any stage.cancelled.contains)

/-- The first job that can go on, given the streams whose queues have a live job in front. -/
def nextJob? (stage : Stage α) (busy : List Nat) (index : Nat) : List Job → Option (Nat × Job)
  | [] => none
  | job :: jobs =>
    if !job.isLive || busy.contains job.stream then nextJob? stage busy (index + 1) jobs
    else if canRun stage job then some (index, job)
    else nextJob? stage (job.stream :: busy) (index + 1) jobs

/-- Run one job as far as it goes. -/
def runJob (stage : Stage α) (index : Nat) (job : Job) : Stage α :=
  match stage.lines[job.stream]? with
  | none => stage
  | some line =>
    let cancelled := job.token.any stage.cancelled.contains
    let (deed, world) := (line.stream.world job.transfer stage.scheduler stage.mail).resume cancelled
    let ended := match deed with
      | .ends outcome => some (outcome, stage.clock)
      | _ => none
    { stage with
      scheduler := world.scheduler
      mail := world.mail
      lines := stage.lines.set job.stream { line with stream := line.stream.behind world }
      jobs := stage.jobs.set index { job with transfer := world.transfer, ended } }

/-- Run jobs until none can go on. A run ends its job or makes it wait for something new. -/
def settleWithin (stage : Stage α) : (runs : Nat) → Stage α
  | 0 => stage
  | runs + 1 =>
    match nextJob? stage [] 0 stage.jobs with
    | none => stage
    | some (index, job) => settleWithin (runJob stage index job) runs

/-- Run jobs until none can go on. -/
def settle (stage : Stage α) : Stage α :=
  settleWithin stage (stage.jobs.length + stage.lines.length + 1)

/-- Hand out the answers to tickets. -/
def post (stage : Stage α) (replies : List (Reply α)) : Stage α :=
  { stage with mail := replies.map (fun reply => (reply.1, .grant reply.2)) ++ stage.mail }

/-- Fire the tick that is due. -/
def fire (stage : Stage α) (due : Nat) : Stage α :=
  let (replies, scheduler) := stage.scheduler.tick (elapsedMillis (due - stage.lastTick))
  settle
    { post stage replies with
      scheduler, clock := due, lastTick := due, nextTick := some (due + scheduler.burst) }

/-- Fire the ticks that are due up to a time, at most `ticks` of them. -/
def advanceTo (target : Nat) (stage : Stage α) : (ticks : Nat) → Stage α
  | 0 => { stage with clock := target }
  | ticks + 1 =>
    match stage.nextTick with
    | some due =>
      if due ≤ target then advanceTo target (fire stage due) ticks
      else { stage with clock := target }
    | none => { stage with clock := target }

/-- Begin to tick, unless that was done before. -/
def beginTicks (stage : Stage α) : Stage α :=
  if stage.scheduler.started then stage
  else
    { stage with
      scheduler := stage.scheduler.start
      lastTick := stage.clock
      nextTick :=
        if stage.scheduler.shutDown then none else some (stage.clock + stage.scheduler.burst) }

/-- Change a line. -/
def onLine (stage : Stage α) (stream : Nat) (f : Line α → Line α) : Stage α :=
  { stage with lines := stage.lines.modify stream f }

/-- Change what is below the stream of a line. -/
def onInner (line : Line α) (f : Inner → Inner) : Line α :=
  { line with stream := { line.stream with inner := f line.stream.inner } }

/-- The error of a rule set that does not exist. -/
def unknown (id : RuleSetId) : Answer := .failed (.unknownRuleSet id)

/-- Queue a transfer. What is written is the next part of the pattern. -/
def queue (stage : Stage α) (stream : Nat) (mode : Mode) (count : Nat) (token : Option Nat) :
    Stage α :=
  let handed := (stage.lines[stream]?.map Line.handed).getD 0
  let writes := mode = .writePaced || mode = .writeAll || mode = .writeOnce
  let transfer : Transfer :=
    if writes then { mode, rest := pattern handed count } else { mode, want := count }
  let stage := { stage with jobs := stage.jobs ++ [{ stream, transfer, token }] }
  if writes then onLine stage stream fun line => { line with handed := line.handed + count }
  else stage

/-- Take a step, without letting the transfers go on. -/
def act (stage : Stage α) : Step → Answer × Stage α
  | .setBudget id value =>
    match stage.scheduler.setBudget? id value with
    | some scheduler => (.nothing, { stage with scheduler })
    | none => (unknown id, stage)
  | .getBudget id =>
    (((stage.scheduler.budget? id).map Answer.number).getD (unknown id), stage)
  | .getPending id =>
    (((stage.scheduler.pending? id).map Answer.number).getD (unknown id), stage)
  | .isThrottled id => (.flag (stage.scheduler.isThrottled id), stage)
  | .setBurst ms => (.nothing, { stage with scheduler := stage.scheduler.setBurst ms })
  | .start => (.nothing, beginTicks stage)
  | .shutdown =>
    let (replies, scheduler) := stage.scheduler.shutdown
    (.nothing, { post stage replies with scheduler, nextTick := none })
  | .advance ms => (.nothing, advanceTo (stage.clock + ms) stage (ms + 1))
  | .feed stream count =>
    (.nothing, onLine stage stream fun line =>
      { onInner line fun inner =>
          { inner with incoming := inner.incoming.push (pattern line.fed count) } with
        fed := line.fed + count })
  | .feedEnd stream =>
    (.nothing, onLine stage stream fun line =>
      onInner line fun inner => { inner with incoming := inner.incoming.close })
  | .dropFar stream =>
    (.nothing, onLine stage stream fun line =>
      onInner line fun inner => { inner with incoming := inner.incoming.close, broken := true })
  | .transfer stream mode count token => (.nothing, queue stage stream mode count token)
  | .cancel token => (.nothing, { stage with cancelled := token :: stage.cancelled })
  | .abort index =>
    (.nothing, { stage with jobs := stage.jobs.modify index ({ · with aborted := true }) })

/-- Take a step, and let the transfers go on. -/
def step (stage : Stage α) (s : Step) : Answer × Stage α :=
  let (answer, stage) := act stage s
  (answer, settle stage)

/-- A stage with its streams, before the first step. -/
def setUp (ruleSets : Nat) (started : Bool) (streams : List (Stream α)) : Stage α :=
  let stage : Stage α :=
    { scheduler := .ofCount ruleSets, lines := streams.map fun stream => { stream } }
  if started then beginTicks stage else stage

end HttpRelay.Simulation.ThrottleScript
