import ClusterNet.Messaging.Handler
import ClusterNet.TextSet

/-!
# Routes

A node knows for each subject what to do with the messages that come in. An event service has
two routes for each topic that it serves, and one for the announcements of other members.
-/

namespace ClusterNet.PubSub

/-- Tells an event service from those that were on the same node before it. -/
abbrev ServiceKey := Nat

inductive Route where
  /-- A handler of the application. -/
  | handler (h : Messaging.Handler)
  /-- Takes the announcements of other members. -/
  | announcements (service : ServiceKey)
  /-- Has requests to a topic answered by one subscription. -/
  | requests (service : ServiceKey) (topic : String)
  /-- Tells notices on a topic to every subscription. -/
  | notices (service : ServiceKey) (topic : String)

/-- The routes of a node by their subjects. A subject has one route, the one that came last. -/
abbrev Routes := Table String Route

/-- The subject of announcements. -/
def announcementSubject : String := "raftlink-cluster-event-subscriptions"

/-- The subject of notices on a topic. Requests have the topic itself as their subject. -/
def noticeSubject (topic : String) : String := topic ++ ":notify"

namespace Routes

/-- The subjects, in order. -/
def subjects (r : Routes) : List String := (TextSet.ofList r.keys).items

def addTopic (r : Routes) (service : ServiceKey) (topic : String) : Routes :=
  (r.insert topic (.requests service topic)).insert (noticeSubject topic) (.notices service topic)

def removeTopic (r : Routes) (topic : String) : Routes :=
  (r.erase topic).erase (noticeSubject topic)

end Routes

end ClusterNet.PubSub
