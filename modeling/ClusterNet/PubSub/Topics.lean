import ClusterNet.Messaging.Handler
import ClusterNet.PubSub.Balancer
import ClusterNet.TextSet

/-!
# Topics of a node

A node serves a topic while there is a subscription to it. Subscriptions stand in the order in
which they came. A request is answered by one of them, in turns; a notice goes to all of them.
-/

namespace ClusterNet.PubSub

open Messaging

/-- What a message comes to at a subscription. -/
structure Hearing where
  /-- The message as it was understood. It is missing if it was not. -/
  message : Option String
  /-- How long the work on it takes, in milliseconds. -/
  ms : Nat
  effort : Effort

/-- Someone who listens to a topic. -/
structure Subscriber where
  /-- Tells subscribers apart in a log. -/
  label : String
  hear : Bytes → Hearing

/-- Listens by stages: a message is decoded, shown to a log, and then worked on for a while. -/
def Subscriber.ofStages {M : Type} (label : String) (decode : Bytes → Except String M)
    (describe : M → String) (ms : Nat) (work : M → Effort) : Subscriber where
  label
  hear b :=
    match decode b with
    | .ok m => ⟨some (describe m), ms, work m⟩
    | .error text => ⟨none, 0, .failed text⟩

/-- No id is given twice. Ids are counted without an end, like those of listeners. -/
abbrev SubscriptionId := Nat

structure Subscription where
  id : SubscriptionId
  subscriber : Subscriber

structure Topic where
  subscriptions : List Subscription
  balancer : Balancer

abbrev Topics := Table String Topic

namespace Topics

def all (t : Topics) (topic : String) : List Subscription :=
  ((t.get? topic).map (·.subscriptions)).getD []

def names (t : Topics) : TextSet := .ofList t.keys

/-- Adds a subscription at the end. A topic that was not served begins with a new balancer. -/
def add (t : Topics) (topic : String) (s : Subscription) : Topics :=
  match t.get? topic with
  | some state => t.insert topic { state with subscriptions := state.subscriptions ++ [s] }
  | none => t.insert topic ⟨[s], .start⟩

/-- Removes a subscription, and says whether it was there. A topic without subscriptions is not
served any longer. -/
def remove (t : Topics) (topic : String) (id : SubscriptionId) : Bool × Topics :=
  match t.get? topic with
  | none => (false, t)
  | some state =>
    let rest := state.subscriptions.filter fun s => s.id != id
    (decide (rest.length < state.subscriptions.length),
      if rest.isEmpty then t.erase topic else t.insert topic { state with subscriptions := rest })

/-- The subscription whose turn it is. -/
def next (t : Topics) (topic : String) : Option Subscription × Topics :=
  match t.get? topic with
  | none => (none, t)
  | some state =>
    let (s, balancer) := state.balancer.pick state.subscriptions
    (s, t.insert topic { state with balancer })

end Topics

end ClusterNet.PubSub
