import Stepwise.Session.Basic

namespace Stepwise

/-- A receiver with a forwarding thread that takes events from the queue and hands them over to its
inbox. -/
structure Relay where
  /-- The forwarding thread still works. -/
  forwarding : Bool := true
  /-- Taken from the queue and not yet handed over. -/
  holding : Option SessionEvent := none
  inbox : List SessionEvent := []
  listening : Bool := true
deriving Repr, DecidableEq

/-- The feed of session events.  Receivers share one queue: every event is taken by one of them. -/
structure EventFeed where
  events : Queue SessionEvent := {}
  relays : List Relay := []
deriving Repr, DecidableEq

namespace EventFeed

def publish (f : EventFeed) (e : SessionEvent) : EventFeed :=
  { f with events := f.events.push e }

/-- A receiver without a relay takes the next event. -/
def take? (f : EventFeed) : Option (SessionEvent × EventFeed) :=
  f.events.pop?.map fun (e, events) => (e, { f with events })

def subscribe (f : EventFeed) : EventFeed :=
  { f with relays := f.relays ++ [{}] }

/-- The receiver goes away; its thread learns of it when it next hands an event over. -/
def unsubscribe (f : EventFeed) (i : Nat) : EventFeed :=
  { f with relays := f.relays.modify i fun r => { r with listening := false } }

/-- The thread of a relay takes the next event of the queue into its hands. -/
def fetch? (f : EventFeed) (i : Nat) : Option EventFeed :=
  match f.relays[i]? with
  | some ⟨true, none, inbox, listening⟩ =>
    f.take?.map fun (e, f) =>
      { f with relays := f.relays.set i ⟨true, some e, inbox, listening⟩ }
  | _ => none

/-- The thread hands its event over, or ends because the receiver has gone. -/
def handOver? (f : EventFeed) (i : Nat) : Option EventFeed :=
  match f.relays[i]? with
  | some ⟨forwarding, some e, inbox, true⟩ =>
    some { f with relays := f.relays.set i ⟨forwarding, none, inbox ++ [e], true⟩ }
  | some ⟨_, some _, inbox, false⟩ =>
    some { f with relays := f.relays.set i ⟨false, none, inbox, false⟩ }
  | _ => none

/-- The receiver takes the next event of its inbox. -/
def receive? (f : EventFeed) (i : Nat) : Option (SessionEvent × EventFeed) :=
  match f.relays[i]? with
  | some ⟨forwarding, holding, e :: inbox, true⟩ =>
    some (e, { f with relays := f.relays.set i ⟨forwarding, holding, inbox, true⟩ })
  | _ => none

end EventFeed
end Stepwise
