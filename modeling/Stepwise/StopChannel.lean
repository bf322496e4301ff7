import Stepwise.StopQueue

namespace Stepwise

/-- How far a wait for a stop has come. -/
inductive Wait.Stage where
  /-- It is about to see whether it has been cancelled. -/
  | looking
  /-- It is about to see how much time is left. -/
  | measuring
  /-- It stays at the queue until a stop comes, but not longer than until then. -/
  | polling (limit : Nat)
  /-- The time is over: it takes what is there. -/
  | trying
  | ended (answer : Except TakeError StoppedEvent)
deriving Repr

def Wait.Stage.isEnded : Wait.Stage → Bool
  | .ended _ => true
  | _ => false

structure Wait where
  receiver : Nat
  deadline : Nat
  cancelled : Bool := false
  stage : Wait.Stage := .looking
deriving Repr

/-- The queue of stops in the hands of any number of threads.  Between two steps of a wait other
stops may come and go, ends of the queue may be cloned and dropped, time passes, and the wait may be
cancelled. -/
structure StopChannel where
  queue : StopQueue := {}
  /-- The time, in nanoseconds. -/
  now : Nat := 0
  /-- The last time that the clock has a word for. -/
  lastTime : Nat := 9223372036854775807999999999
  waits : List Wait := []
deriving Repr

namespace StopChannel

/-- How long a wait stays at the queue before it looks around again. -/
def pollTime : Nat := 10000000

inductive Action where
  | push (sender : Nat) (stop : StoppedEvent)
  | tryTake (receiver : Nat)
  | take (receiver timeout : Nat) (cancelled : Bool)
  | cancel (wait : Nat)
  | advance (wait : Nat)
  /-- The wait has been at the queue long enough, though a stop may just have come. -/
  | expire (wait : Nat)
  | elapse (time : Nat)
  | cloneSender (sender : Nat)
  | dropSender (sender : Nat)
  | cloneReceiver (receiver : Nat)
  | dropReceiver (receiver : Nat)
deriving Repr, DecidableEq

/-- What a step tells the thread that takes it. -/
inductive Told where
  | nothing
  | pushed (stop : StoppedEvent) (accepted : Bool)
  | tried (answer : Except TakeError (Option StoppedEvent))
  | waited (wait : Nat) (answer : Except TakeError StoppedEvent)
  /-- The call takes its thread down before it looks at the queue. -/
  | crashed
deriving Repr

def setStage (c : StopChannel) (wait : Nat) (stage : Wait.Stage) : StopChannel :=
  { c with waits := c.waits.modify wait fun w => { w with stage } }

/-- A wait goes on. -/
def goOn (c : StopChannel) (wait : Nat) (stage : Wait.Stage) : Told × StopChannel :=
  (.nothing, c.setStage wait stage)

/-- A wait ends with what there is to take. -/
def finish (c : StopChannel) (wait : Nat) (cancelled : Bool) : Told × StopChannel :=
  let (answer, queue) := c.queue.take cancelled
  (.waited wait answer, { c with queue }.setStage wait (.ended answer))

/-- The next step of a wait; none while it has to stay at the queue and once it has ended. -/
def advance (c : StopChannel) (wait : Nat) : Option (Told × StopChannel) :=
  match c.waits[wait]? with
  | none => none
  | some w =>
    match w.stage with
    | .looking => some (if w.cancelled then c.finish wait true else c.goOn wait .measuring)
    | .measuring =>
      some (c.goOn wait
        (if w.deadline ≤ c.now then .trying else .polling (min w.deadline (c.now + pollTime))))
    | .polling _ => if c.queue.ready then some (c.finish wait false) else none
    | .trying => some (c.finish wait false)
    | .ended _ => none

def expire (c : StopChannel) (wait : Nat) : Option (Told × StopChannel) :=
  match c.waits[wait]? with
  | none => none
  | some w =>
    match w.stage with
    | .polling limit => if limit ≤ c.now then some (c.goOn wait .looking) else none
    | _ => none

/-- A sending end that somebody holds. -/
def sends (c : StopChannel) (sender : Nat) : Prop :=
  c.queue.senders[sender]? = some true

/-- A receiving end that somebody holds. -/
def receives (c : StopChannel) (receiver : Nat) : Prop :=
  c.queue.receivers[receiver]? = some true

instance (c : StopChannel) (sender : Nat) : Decidable (c.sends sender) :=
  inferInstanceAs (Decidable (_ = _))

instance (c : StopChannel) (receiver : Nat) : Decidable (c.receives receiver) :=
  inferInstanceAs (Decidable (_ = _))

/-- Some wait is going on at the receiving end. -/
def inUse (c : StopChannel) (receiver : Nat) : Bool :=
  c.waits.any fun w => w.receiver == receiver && !w.stage.isEnded

/-- A step with what it tells, if it can be taken: ends are used by who holds them, and nobody drops
an end in the middle of a wait.  A wait begins with its deadline, and there is no wait if the clock
does not reach that far. -/
def step (c : StopChannel) : Action → Option (Told × StopChannel)
  | .push sender stop =>
    if c.sends sender then
      let (accepted, queue) := c.queue.push stop
      some (.pushed stop accepted, { c with queue })
    else none
  | .tryTake receiver =>
    if c.receives receiver then
      let (answer, queue) := c.queue.tryTake
      some (.tried answer, { c with queue })
    else none
  | .take receiver timeout cancelled =>
    if c.receives receiver then
      if c.now + timeout ≤ c.lastTime then
        some (.nothing,
          { c with waits := c.waits ++ [{ receiver, deadline := c.now + timeout, cancelled }] })
      else some (.crashed, c)
    else none
  | .cancel wait =>
    some (.nothing, { c with waits := c.waits.modify wait fun w => { w with cancelled := true } })
  | .advance wait => c.advance wait
  | .expire wait => c.expire wait
  | .elapse time => some (.nothing, { c with now := c.now + time })
  | .cloneSender sender =>
    if c.sends sender then some (.nothing, { c with queue := c.queue.cloneSender }) else none
  | .dropSender sender =>
    if c.sends sender then some (.nothing, { c with queue := c.queue.dropSender sender }) else none
  | .cloneReceiver receiver =>
    if c.receives receiver then some (.nothing, { c with queue := c.queue.cloneReceiver }) else none
  | .dropReceiver receiver =>
    if c.receives receiver ∧ c.inUse receiver = false then
      some (.nothing, { c with queue := c.queue.dropReceiver receiver })
    else none

end StopChannel
end Stepwise
