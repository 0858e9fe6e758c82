import ClusterNet.Identifier
import ClusterNet.Json.Record
import ClusterNet.TextSet

/-!
# Announcements

A member announces the topics that it serves. The version grows with every change, so that
of two announcements of one member the later one can be told.
-/

namespace ClusterNet

open Json

instance {named : Named} : Form (Identifier named) where
  write i := .string i.text
  read? v := (Form.read? v).map Identifier.mk

instance : Form TextSet where
  write t := Form.write t.items
  read? v := (Form.read? v).map TextSet.ofList

namespace PubSub

structure Announcement where
  member : MemberId
  version : UInt64
  topics : TextSet
  deriving DecidableEq, Inhabited

instance : Form Announcement where
  write a := .record [("member", Form.write a.member), ("version", Form.write a.version),
    ("topics", Form.write a.topics)]
  read? v := do
    let [member, version, topics] ← fields ["member", "version", "topics"] v | none
    some ⟨← required member, ← required version, ← required topics⟩

end PubSub

end ClusterNet
