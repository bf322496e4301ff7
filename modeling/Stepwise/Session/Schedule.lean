import Stepwise.Session.System

namespace Stepwise.System

variable {E : Engine}

/-- Lets the thread work until the condition holds, it cannot go on, or the time is over. -/
def workUntil (condition : System E → Bool) : Nat → Nat → System E → System E
  | 0, _, s => s
  | fuel + 1, budget, s =>
    if condition s then s
    else
      match s.work with
      | none => s
      | some (t, elapsed) =>
        if elapsed = 0 then workUntil condition fuel budget t
        else if elapsed < budget then workUntil condition fuel (budget - elapsed) t
        else t

/-- Steps of the thread that no wait exceeds. -/
def patience : Nat := 100000000

/-- Waits poll every ten milliseconds, and at least once. -/
def pollInterval : Nat := 10

/-- The time that a wait with this limit really takes. -/
def polled (limit : Nat) : Nat :=
  max 1 ((limit + pollInterval - 1) / pollInterval) * pollInterval

def phase? (s : System E) (call : Nat) : Option Phase :=
  s.calls[call]?.map (·.phase)

def isReplied (call : Nat) (s : System E) : Bool :=
  match s.phase? call with
  | some (.awaiting none) => false
  | _ => true

def hasExited (s : System E) : Bool :=
  match s.worker with
  | .exited => true
  | _ => false

/-- Takes an operation through its phases.  At most seven of them lead to its return. -/
def finish (call limit : Nat) : Nat → System E → System E
  | 0, s => s
  | n + 1, s =>
    match s.phase? call with
    | some (.awaiting none) =>
      let s := s.workUntil (isReplied call) patience limit
      finish call limit n (if isReplied call s then s else (s.giveUp call).getD s)
    | some .joining =>
      let s := s.workUntil hasExited patience patience
      finish call limit n ((s.advance call).getD s)
    | some (.returned _) => s
    | _ => finish call limit n ((s.advance call).getD s)

/-- Performs an operation with a time limit for requests. -/
def perform (operation : Operation) (cancelled : Bool) (limit : Nat) (s : System E) :
    Result × System E :=
  let call := s.calls.length
  let limit := if cancelled then pollInterval else polled limit
  let s := finish call limit 8 (s.begin operation cancelled)
  match s.phase? call with
  | some (.returned result) => (result, s)
  | _ => (.error .timeout, s)

/-- The events other than `running` that were published so far. -/
def milestones (s : System E) : Nat :=
  (s.session.feed.events.log.filter (· != .running)).length

/-- Lets the script go on until it has halted, ended or gone down since the milestone. -/
def settle (since : Nat) (s : System E) : System E :=
  s.workUntil (fun t => since < t.milestones) patience patience

/-- Waits for the end of an execution; unknown numbers have none. -/
def waitExecution (execution : Nat) (cancelled : Bool) (limit : Nat) (s : System E) :
    Option (Except SessionError Outcome) × System E :=
  let ended (s : System E) : Bool := s.executions[execution]? != some .pending
  let s := s.workUntil ended patience (if cancelled then pollInterval else polled limit)
  match s.executions[execution]? with
  | none => (none, s)
  | some (.ended outcome) => (some (.ok outcome), s)
  | some .lost => (some (.error .engineTerminated), s)
  | some .pending => (some (.error (if cancelled then .cancelled else .timeout)), s)

def takeStop (cancelled : Bool) (limit : Nat) (s : System E) :
    Except TakeError StoppedEvent × System E :=
  let s :=
    if cancelled ∨ limit = 0 then s
    else s.workUntil (·.session.stops.ready) patience limit
  let (result, stops) := s.session.stops.take cancelled
  (result, { s with session := { s.session with stops } })

def tryTakeStop (s : System E) : Except TakeError (Option StoppedEvent) × System E :=
  let (result, stops) := s.session.stops.tryTake
  (result, { s with session := { s.session with stops } })

/-- All events that the receiver without a relay can take. -/
def drainEvents (s : System E) : List SessionEvent × System E :=
  let feed := s.session.feed
  (feed.events.pending,
    { s with session := { s.session with feed := { feed with events := feed.events.discard } } })

/-- What the receiver of a relay gets while its thread passes everything on that it can. -/
def relayed (relay : Nat) : Nat → EventFeed → List SessionEvent
  | 0, _ => []
  | fuel + 1, f =>
    match f.receive? relay with
    | some (e, f) => e :: relayed relay fuel f
    | none =>
      match (f.handOver? relay).or (f.fetch? relay) with
      | some f => relayed relay fuel f
      | none => []

/-- All events that the receiver of a relay can still get.  Each takes three steps at most. -/
def relayedEvents (relay : Nat) (s : System E) : List SessionEvent :=
  relayed relay (3 * s.session.feed.events.log.length + 1) s.session.feed

end Stepwise.System
