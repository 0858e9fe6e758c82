import ClusterNet.Proofs.HostActs
import ClusterNet.Proofs.JsonText
import Mathlib.Data.List.Sort

/-!
# What a member hears of another

A host says which topics it serves when that changes, when a member comes and from time to time.
What it says is always true at that moment. Who hears it keeps the latest it has heard.
-/

namespace ClusterNet

theorem TextSet.ofList_congr {l l' : List String} (h : ∀ x, x ∈ l ↔ x ∈ l') :
    TextSet.ofList l = TextSet.ofList l' := by
  apply TextSet.ext
  refine (TextSet.ofList l).increasing.eq_of_mem_iff (TextSet.ofList l').increasing ?_
  intro x
  rw [TextSet.mem_ofList, TextSet.mem_ofList, h]

end ClusterNet

namespace ClusterNet.PubSub

open ClusterNet.Membership Messaging Json

/-! ## Announcements survive their text -/

theorem faithful_identifier {named : Named} : Faithful (Identifier named) where
  whole i := .string i.text
  read _ := rfl

theorem faithful_textSet : Faithful TextSet where
  whole t := (faithful_list faithful_string).whole t.items
  read t := by
    have hread := (faithful_list faithful_string).read t.items
    change (Form.read? (Form.write t.items) : Option (List String)).map TextSet.ofList = some t
    rw [hread, Option.map_some, TextSet.ofList_items]

theorem faithful_announcement : Faithful Announcement where
  whole a := by
    apply Whole.record
    intro m hm
    simp only [List.mem_cons, List.not_mem_nil, or_false] at hm
    rcases hm with rfl | rfl | rfl
    · exact faithful_identifier.whole a.member
    · exact faithful_uint64.whole a.version
    · exact faithful_textSet.whole a.topics
  read a := by
    have hfields (m v t : Value) : fields ["member", "version", "topics"]
        (.record [("member", m), ("version", v), ("topics", t)]) = some [some m, some v, some t] := rfl
    have hmember := faithful_identifier.required_write a.member
    have hversion := faithful_uint64.required_write a.version
    have htopics := faithful_textSet.required_write a.topics
    unfold Form.read? instFormAnnouncement
    dsimp only
    rw [hfields, Option.bind_eq_bind, Option.bind_some]
    dsimp only
    rw [hmember, hversion, htopics]
    rfl

/-! ## Records -/

namespace Service

variable {s : Service} {a : Announcement} {m : MemberId} {r : Record}

theorem get?_adopt_of_ne (s : Service) (hne : m ≠ a.member) :
    (s.adopt a).records.get? m = s.records.get? m := by
  unfold adopt
  split
  · split
    · exact Table.get?_insert_of_ne s.records hne _
    · rfl
  · exact Table.get?_insert_of_ne s.records hne _

theorem adopt_source (h : (s.adopt a).records.get? m = some r) :
    s.records.get? m = some r ∨ (m = a.member ∧ r = ⟨a.version, a.topics⟩) := by
  by_cases hm : m = a.member
  · subst hm
    unfold adopt at h
    split at h
    · split at h
      · rw [Table.get?_insert_self] at h
        exact .inr ⟨rfl, (Option.some.inj h).symm⟩
      · exact .inl h
    · rw [Table.get?_insert_self] at h
      exact .inr ⟨rfl, (Option.some.inj h).symm⟩
  · rw [get?_adopt_of_ne s hm] at h
    exact .inl h

theorem adopt_grows (a : Announcement) (h : s.records.get? m = some r) :
    ∃ r', (s.adopt a).records.get? m = some r' ∧ r.version ≤ r'.version := by
  by_cases hm : m = a.member
  · subst hm
    unfold adopt
    rw [h]
    dsimp only
    split
    · rename_i hlt
      exact ⟨_, Table.get?_insert_self s.records _ _, UInt64.le_of_lt hlt⟩
    · exact ⟨r, h, UInt64.le_refl _⟩
  · exact ⟨r, by rw [get?_adopt_of_ne s hm, h], UInt64.le_refl _⟩

theorem adopt_covers (s : Service) (a : Announcement) :
    ∃ r, (s.adopt a).records.get? a.member = some r ∧ a.version ≤ r.version := by
  unfold adopt
  split
  · rename_i r hr
    split
    · exact ⟨_, Table.get?_insert_self s.records _ _, UInt64.le_refl _⟩
    · rename_i hlt
      exact ⟨r, hr, UInt64.not_lt.mp hlt⟩
  · exact ⟨_, Table.get?_insert_self s.records _ _, UInt64.le_refl _⟩

theorem distinct_adopt (a : Announcement) (h : s.records.Distinct) : (s.adopt a).records.Distinct := by
  unfold adopt
  split
  · split
    · exact h.insert _ _
    · exact h
  · exact h.insert _ _

theorem mem_ids {ids : List MemberId} :
    m ∈ (TextSet.ofList (ids.map (·.text))).items.map Identifier.mk ↔ m ∈ ids := by
  rw [List.mem_map]
  constructor
  · rintro ⟨text, htext, rfl⟩
    rw [TextSet.mem_ofList] at htext
    obtain ⟨id, hid, rfl⟩ := List.mem_map.mp htext
    exact hid
  · intro hid
    exact ⟨m.text, TextSet.mem_ofList.mpr (List.mem_map.mpr ⟨m, hid, rfl⟩), rfl⟩

theorem mem_own {topic : String} {id : MemberId} :
    m ∈ (if s.topics.contains topic then [id] else []) ↔ s.topics.contains topic = true ∧ m = id := by
  split
  · rename_i hin
    rw [List.mem_singleton, eq_true hin, true_and]
  · rename_i hin
    simp [hin]

/-- The order of the subscribers follows from who they are. -/
theorem subscribers_eq {v : View} {topic : String} {ms : List MemberId}
    (h : ∀ m, m ∈ s.subscribers v topic ↔ m ∈ ms) :
    s.subscribers v topic = (TextSet.ofList (ms.map (·.text))).items.map .mk := by
  unfold subscribers at h ⊢
  dsimp only at h ⊢
  simp only [mem_ids] at h
  rw [TextSet.ofList_congr]
  intro x
  rw [List.mem_map, List.mem_map]
  simp only [h]

/-- The subscribers of a topic are the node itself, if it serves the topic, and the members that look
alive and are known to serve it. -/
theorem mem_subscribers {v : View} {topic : String} (hs : s.records.Distinct) :
    m ∈ s.subscribers v topic ↔ (s.topics.contains topic = true ∧ m = v.localId) ∨
      ∃ r, s.records.get? m = some r ∧ r.topics.contains topic = true ∧ v.isActive m = true := by
  have hremote : m ∈ (s.records.entries.filter fun e => e.2.topics.contains topic && v.isActive e.1).map (·.1) ↔
      ∃ r, s.records.get? m = some r ∧ r.topics.contains topic = true ∧ v.isActive m = true := by
    rw [List.mem_map]
    constructor
    · rintro ⟨e, he, rfl⟩
      obtain ⟨hentry, hboth⟩ := List.mem_filter.mp he
      rw [Bool.and_eq_true] at hboth
      exact ⟨e.2, Table.lookup_of_mem hs hentry, hboth⟩
    · rintro ⟨r, hr, htopic, hactive⟩
      refine ⟨(m, r), List.mem_filter.mpr ⟨Table.mem_of_lookup hr, ?_⟩, rfl⟩
      rw [htopic, hactive]
      rfl
  unfold subscribers
  rw [mem_ids, List.mem_append, mem_own, hremote]

theorem mem_subscribers_of_ne {v : View} {topic : String} (hs : s.records.Distinct) (hm : m ≠ v.localId) :
    m ∈ s.subscribers v topic ↔
      ∃ r, s.records.get? m = some r ∧ r.topics.contains topic = true ∧ v.isActive m = true := by
  rw [mem_subscribers hs]
  constructor
  · rintro (⟨-, heq⟩ | hremote)
    · exact absurd heq hm
    · exact hremote
  · exact .inr

end Service

/-! ## What a host says -/

namespace Host

variable {h h' : Host} {o : Outgoing} {m : MemberId} {r : Record}

/-- What there is to say. -/
def said (h : Host) : Announcement := h.current.announcement h.view.localId

/-- A message says what a host has to say. -/
structure Tells (o : Outgoing) (h : Host) : Prop where
  subject : o.subject = announcementSubject
  payload : o.payload = Form.bytes h.said

theorem mem_announceTo {s : Service} {id : MemberId} {targets : List Address}
    (ho : o ∈ s.announceTo id targets) :
    o.subject = announcementSubject ∧ o.payload = Form.bytes (s.announcement id) := by
  unfold Service.announceTo at ho
  split at ho
  · obtain ⟨a, -, rfl⟩ := List.mem_map.mp ho
    constructor
    · rfl
    · dsimp only
  · exact absurd ho List.not_mem_nil

theorem said_notice (h : Host) (d : Delivery ServiceKey) : (h.notice d).1.said = h.said := by
  unfold notice
  split
  · split
    · rfl
    · rfl
    · rfl
  · rfl

theorem tells_notice {d : Delivery ServiceKey} (ho : o ∈ (h.notice d).2) : Tells o h := by
  unfold notice at ho
  split at ho
  · split at ho
    · unfold Service.welcome at ho
      split at ho
      · exact absurd ho List.not_mem_nil
      · exact ⟨(mem_announceTo ho).1, (mem_announceTo ho).2⟩
    · exact absurd ho List.not_mem_nil
    · exact absurd ho List.not_mem_nil
  · exact absurd ho List.not_mem_nil

theorem said_notices (h : Host) (ds : List (Delivery ServiceKey)) : (h.notices ds).1.said = h.said := by
  rw [fst_notices]
  induction ds generalizing h with
  | nil => rfl
  | cons d ds ih => rw [List.foldl_cons, ih, said_notice]

theorem tells_notices {ds : List (Delivery ServiceKey)} (ho : o ∈ (h.notices ds).2) : Tells o h := by
  have hfold (ps : List Outgoing) (hps : ∀ p ∈ ps, Tells p h)
      (ho : o ∈ (ds.foldl (fun x d => ((x.1.notice d).1, x.2 ++ (x.1.notice d).2)) (h, ps)).2) :
      Tells o h := by
    clear ‹o ∈ (h.notices ds).2›
    induction ds generalizing h ps with
    | nil => exact hps o ho
    | cons d ds ih =>
      have hsaid := said_notice h d
      have hnotice : ∀ p ∈ ps ++ (h.notice d).2, Tells p (h.notice d).1 := by
        intro p hp
        have htells : Tells p h := by
          rcases List.mem_append.mp hp with hp | hp
          · exact hps p hp
          · exact tells_notice hp
        exact ⟨htells.subject, by rw [hsaid, htells.payload]⟩
      have htells := ih _ hnotice ho
      exact ⟨htells.subject, by rw [← hsaid, htells.payload]⟩
  exact hfold [] (fun p hp => absurd hp List.not_mem_nil) ho

theorem tells_start {now : Nat} (ho : o ∈ (h.start now).2) : Tells o (h.start now).1 := by
  unfold start at ho ⊢
  split at ho
  · exact absurd ho List.not_mem_nil
  · rename_i hrunning
    rw [if_neg hrunning]
    have hall : o ∈ Service.announceAll { h.current with
        running := true
        attached := some (h.roster.listeners.add h.current.key).1 } h.view := ho
    exact ⟨(mem_announceTo hall).1, (mem_announceTo hall).2⟩

theorem tells_close {x : Handle} (ho : o ∈ (h.close x).2.2) : Tells o (h.close x).2.1 := by
  unfold close at ho ⊢
  split at ho
  · rename_i hkey
    rw [if_pos hkey]
    unfold Service.close Service.delist at ho ⊢
    dsimp only at ho ⊢
    split at ho
    · rename_i hfound
      rw [if_pos hfound]
      exact ⟨(mem_announceTo ho).1, (mem_announceTo ho).2⟩
    · exact absurd ho List.not_mem_nil
  · exact absurd ho List.not_mem_nil

theorem tells_repeat {now : Nat} (ho : o ∈ ((h.repeat? now).getD (h, [])).2) :
    Tells o ((h.repeat? now).getD (h, [])).1 := by
  unfold repeat? at ho ⊢
  split at ho
  · split at ho
    · rename_i hdue
      rw [if_pos hdue]
      exact ⟨(mem_announceTo ho).1, (mem_announceTo ho).2⟩
    · exact absurd ho List.not_mem_nil
  · exact absurd ho List.not_mem_nil

theorem tells_follow {g : Roster ServiceKey} (ho : o ∈ (h.follow g).2) : Tells o (h.follow g).1 := by
  have htells := tells_notices ho
  have hsaid : (h.follow g).1.said = said { h with roster := { g with log := [] } } := said_notices _ _
  exact ⟨htells.subject, by rw [htells.payload, hsaid]⟩

/-- Whatever a host says is what it has to say afterwards. -/
theorem tells_act {a : HostAct} (ho : o ∈ (h.act a).2) : Tells o (h.act a).1 := by
  cases a with
  | starts now => exact tells_start ho
  | subscribes topic s => exact ⟨(mem_announceTo ho).1, (mem_announceTo ho).2⟩
  | closes x => exact tells_close ho
  | follows g => exact tells_follow ho
  | repeats now => exact tells_repeat ho
  | stops | picks | receives => exact absurd ho List.not_mem_nil

/-! ## What a host knows -/

theorem localId_notice (h : Host) (d : Delivery ServiceKey) :
    (h.notice d).1.view.localId = h.view.localId := by
  unfold notice
  split
  · split
    · rfl
    · rfl
    · rfl
  · rfl

/-- What a host knows of the others is as it was, but for members that have gone. -/
structure Forgets (gone : MemberId → Prop) (h h' : Host) : Prop where
  source : ∀ m r, h'.current.records.get? m = some r → h.current.records.get? m = some r
  kept : ∀ m, ¬ gone m → h'.current.records.get? m = h.current.records.get? m
  distinct : h.current.records.Distinct → h'.current.records.Distinct

theorem forgets_of_eq {gone : MemberId → Prop} (heq : h'.current.records = h.current.records) :
    Forgets gone h h' := by
  refine ⟨?_, ?_, ?_⟩
  · intro m r hr
    rwa [heq] at hr
  · intro m _
    rw [heq]
  · intro hd
    rwa [heq]

theorem forgets_notice (h : Host) (d : Delivery ServiceKey) :
    Forgets (fun m => ∃ x : Member, d.news = .member .removed x ∧ x.id = m) h (h.notice d).1 := by
  unfold notice
  split
  · split
    · exact forgets_of_eq rfl
    · rename_i x hnews
      refine ⟨?_, ?_, fun hd => hd.erase x.id⟩
      · intro m r hr
        change (h.current.records.erase x.id).get? m = some r at hr
        rw [Table.get?_erase] at hr
        split at hr
        · cases hr
        · exact hr
      · intro m hm
        refine Table.get?_erase_of_ne h.current.records ?_
        rintro rfl
        exact hm ⟨x, hnews, rfl⟩
    · exact forgets_of_eq rfl
  · exact forgets_of_eq rfl

/-- A host takes in what comes on the subject of announcements. -/
def Hears (h : Host) : Prop :=
  h.routes.get? announcementSubject = some (.announcements h.current.key)

theorem records_ask (h : Host) (service : ServiceKey) (topic : String) (payload : Bytes) :
    (h.ask service topic payload).2.current.records = h.current.records := by
  have hset (topics : Topics) : (h.setTopics service topics).current.records = h.current.records := by
    unfold setTopics
    split
    · rfl
    · rfl
  unfold ask
  cases hs : ((h.topicsOf service).next topic).1 with
  | none => simp [hs, hset]
  | some s => simp [hs, tell_eq, hset]

theorem localId_receive (h : Host) (r : Wire.Request) : (h.receive r).2.view.localId = h.view.localId := by
  obtain ⟨current, former, heard, heq⟩ := exists_receive h r
  rw [heq]
  rfl

theorem hearBytes_announcement (s : Service) (id : MemberId) (a : Announcement) :
    s.hearBytes id (Form.bytes a) = s.hear id a := by
  unfold Service.hearBytes
  rw [faithful_announcement.ofBytes?_bytes]

theorem records_receive {r : Wire.Request} {a : Announcement} (hr : r.payload = Form.bytes a) :
    (h.receive r).2.current.records = h.current.records ∨
      (h.receive r).2.current.records = (h.current.hear h.view.localId a).records := by
  unfold receive
  split
  · exact .inl rfl
  · exact .inl rfl
  · dsimp only
    split
    · refine .inr ?_
      rw [hr, hearBytes_announcement]
    · exact .inl rfl
  · exact .inl (records_ask h _ _ r.payload)
  · left
    change (h.tellAll _ r.payload _).current.records = _
    rw [tellAll_eq]

theorem records_receive_of_hears {r : Wire.Request} {a : Announcement} (hh : h.Hears)
    (hsubject : r.subject = announcementSubject) (hr : r.payload = Form.bytes a) :
    (h.receive r).2.current.records = (h.current.hear h.view.localId a).records := by
  have hroute : h.routes.get? r.subject = some (.announcements h.current.key) := by
    rw [hsubject]
    exact hh
  unfold receive
  rw [hroute]
  dsimp only
  rw [if_pos rfl, hr, hearBytes_announcement]

theorem Frame.names (a : Frame h h') : h'.current.topics.names = h.current.topics.names := by
  rw [Topics.names, Topics.names, a.topics]

end Host

end ClusterNet.PubSub
