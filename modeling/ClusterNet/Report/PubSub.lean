import ClusterNet.Bench.PubSub
import ClusterNet.Report.Basic
import ClusterNet.Report.Message

/-!
# Reports on event services
-/

namespace ClusterNet.Report

open Bench PubSub
open Json (Value)

instance : Report Announcement where
  report a := .record [field "member" a.member, field "version" a.version,
    field "topics" a.topics]

instance : Report Handle where
  report h := .record [field "id" h.id, field "topic" h.topic]

/-- A message on its way. Announcements are shown as what they say. -/
def transfer (t : EventBench.Run) (x : Transfer) : Value :=
  let announced : Option Announcement :=
    if x.message.subject = announcementSubject then Json.Form.ofBytes? x.message.payload else none
  .array [report x.source.text, report x.message.goal.text, report x.message.subject,
    match announced with
    | some a => report (EventBench.relative t a)
    | none => report x.message.payload]

/-- What a subscriber of a host has heard. -/
instance : Report (String × Heard) where
  report x := .array [report x.1, report x.2.topic, report x.2.label, report x.2.message]

end ClusterNet.Report
