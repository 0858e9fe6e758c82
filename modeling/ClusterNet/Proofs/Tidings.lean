import ClusterNet.Proofs.Announcements
import ClusterNet.Proofs.Isolation

/-!
# Which announcement counts

Of the announcements of a member, the one with the highest version counts. A service keeps its
version along with its topics, and forgets both when the member goes. So the order of versions
reaches back no further than that: what was said before may count again if it is heard late.
-/

namespace ClusterNet.PubSub

open ClusterNet.Membership Messaging Json

/-- What a service learns of the others. -/
inductive Tiding where
  | heard (a : Announcement)
  | gone (m : MemberId)
  /-- Nothing is known of anyone any more. -/
  | lost
  deriving DecidableEq

namespace Tiding

variable {m : MemberId} {a b : Announcement} {as : List Announcement} {ts us : List Tiding} {t : Tiding}

/-- After this a member is unknown. -/
def Clears (m : MemberId) : Tiding → Prop
  | heard _ => False
  | gone x => x = m
  | lost => True

def note (m : MemberId) (as : List Announcement) : Tiding → List Announcement
  | heard a => if a.member = m then as ++ [a] else as
  | gone x => if x = m then [] else as
  | lost => []

/-- What was heard of a member since it was unknown. -/
def lately (m : MemberId) (ts : List Tiding) : List Announcement := ts.foldl (note m) []

theorem lately_concat (m : MemberId) (ts : List Tiding) (t : Tiding) :
    lately m (ts ++ [t]) = note m (lately m ts) t := by
  rw [lately, List.foldl_append]
  rfl

theorem note_of_clears (h : t.Clears m) : note m as t = [] := by
  cases t with
  | heard a => exact h.elim
  | gone x => exact if_pos h
  | lost => rfl

theorem mem_note (h : ¬ t.Clears m) (ha : a ∈ as) : a ∈ note m as t := by
  cases t with
  | heard b =>
    rw [note]
    split
    · exact List.mem_append_left _ ha
    · exact ha
  | gone x =>
    have hne : x ≠ m := h
    rw [note, if_neg hne]
    exact ha
  | lost => exact absurd trivial h

/-- What came before a member was unknown is not recent. -/
theorem lately_append_of_clears (h : ∃ t ∈ us, Clears m t) : lately m (ts ++ us) = lately m us := by
  induction us using List.reverseRecOn with
  | nil => simp at h
  | append_singleton us u ih =>
    rw [← List.append_assoc, lately_concat, lately_concat]
    by_cases hu : u.Clears m
    · rw [note_of_clears hu, note_of_clears hu]
    · rw [ih]
      obtain ⟨t, ht, hclears⟩ := h
      rcases List.mem_append.mp ht with ht | ht
      · exact ⟨t, ht, hclears⟩
      · rw [List.mem_singleton.mp ht] at hclears
        exact absurd hclears hu

theorem mem_lately_append (h : ∀ t ∈ us, ¬ Clears m t) (ha : a ∈ lately m ts) : a ∈ lately m (ts ++ us) := by
  induction us using List.reverseRecOn with
  | nil => rwa [List.append_nil]
  | append_singleton us u ih =>
    rw [← List.append_assoc, lately_concat]
    apply mem_note
    · exact h u (List.mem_append_right _ List.mem_cons_self)
    · exact ih fun t ht => h t (List.mem_append_left _ ht)

end Tiding

open Tiding

/-! ## The first of the highest -/

/-- Among announcements it is the first of those with the highest version. -/
def Leads (a : Announcement) (as : List Announcement) : Prop :=
  ∃ before after, as = before ++ a :: after ∧
    (∀ b ∈ before, b.version < a.version) ∧ ∀ b ∈ after, b.version ≤ a.version

variable {a b : Announcement} {as : List Announcement} {m : MemberId} {ts : List Tiding}

theorem Leads.mem (h : Leads a as) : a ∈ as := by
  obtain ⟨before, after, rfl, -, -⟩ := h
  exact List.mem_append_right _ List.mem_cons_self

theorem Leads.le (h : Leads a as) (hb : b ∈ as) : b.version ≤ a.version := by
  obtain ⟨before, after, rfl, hbefore, hafter⟩ := h
  rcases List.mem_append.mp hb with hb | hb
  · exact UInt64.le_of_lt (hbefore b hb)
  · rcases List.mem_cons.mp hb with rfl | hb
    · exact UInt64.le_refl _
    · exact hafter b hb

theorem Leads.concat_of_le (h : Leads a as) (hle : b.version ≤ a.version) : Leads a (as ++ [b]) := by
  obtain ⟨before, after, rfl, hbefore, hafter⟩ := h
  refine ⟨before, after ++ [b], by simp, hbefore, ?_⟩
  intro c hc
  rcases List.mem_append.mp hc with hc | hc
  · exact hafter c hc
  · rwa [List.mem_singleton.mp hc]

theorem leads_concat (h : ∀ b ∈ as, b.version < a.version) : Leads a (as ++ [a]) :=
  ⟨as, [], rfl, h, fun _ hb => absurd hb List.not_mem_nil⟩

/-- No more than one leads. -/
theorem Leads.unique (ha : Leads a as) (hb : Leads b as) : a = b := by
  obtain ⟨before, after, rfl, hbefore, hafter⟩ := ha
  obtain ⟨before', after', heq, hbefore', hafter'⟩ := hb
  -- If the one stood before the other, it would be both lower and as high.
  rcases List.append_eq_append_iff.mp heq with ⟨between, hfirst, hrest⟩ | ⟨between, hfirst, hrest⟩
  · cases between with
    | nil => exact (List.cons.inj hrest).1
    | cons c between =>
      obtain ⟨rfl, rfl⟩ := List.cons.inj hrest
      have hlt : a.version < b.version := by
        apply hbefore'
        rw [hfirst]
        exact List.mem_append_right _ List.mem_cons_self
      have hle : b.version ≤ a.version := by
        apply hafter
        exact List.mem_append_right _ List.mem_cons_self
      exact absurd hlt (UInt64.not_lt.mpr hle)
  · cases between with
    | nil => exact (List.cons.inj hrest).1.symm
    | cons c between =>
      obtain ⟨rfl, rfl⟩ := List.cons.inj hrest
      have hlt : b.version < a.version := by
        apply hbefore
        rw [hfirst]
        exact List.mem_append_right _ List.mem_cons_self
      have hle : a.version ≤ b.version := by
        apply hafter'
        exact List.mem_append_right _ List.mem_cons_self
      exact absurd hlt (UInt64.not_lt.mpr hle)

/-! ## What a service has learned -/

/-- A service learns something. -/
def Service.learn (s : Service) : Tiding → Service
  | .heard a => s.adopt a
  | .gone m => s.forget m
  | .lost => { s with records := .empty }

/-- What is known after such announcements of a member: the one that leads, if there is one. -/
def Knows (r : Option Record) (as : List Announcement) : Prop :=
  match r with
  | none => as = []
  | some r => ∃ a, Leads a as ∧ r = ⟨a.version, a.topics⟩

theorem Service.knows_adopt {s : Service} (h : Knows (s.records.get? a.member) as) :
    Knows ((s.adopt a).records.get? a.member) (as ++ [a]) := by
  unfold Service.adopt
  cases hbefore : s.records.get? a.member with
  | none =>
    rw [hbefore] at h
    dsimp only [Knows] at h
    rw [h, Table.get?_insert_self]
    exact ⟨a, leads_concat fun b hb => absurd hb List.not_mem_nil, rfl⟩
  | some r =>
    rw [hbefore] at h
    obtain ⟨b, hb, rfl⟩ := h
    dsimp only
    split
    · rename_i hlt
      rw [Table.get?_insert_self]
      refine ⟨a, leads_concat ?_, rfl⟩
      intro c hc
      exact UInt64.lt_of_le_of_lt (hb.le hc) hlt
    · rename_i hlt
      rw [hbefore]
      exact ⟨b, hb.concat_of_le (UInt64.not_lt.mp hlt), rfl⟩

/-- What a service knows of a member is what leads among the announcements that it has lately heard
of it. -/
structure Abreast (ts : List Tiding) (s : Service) : Prop where
  distinct : s.records.Distinct
  knows : ∀ m, Knows (s.records.get? m) (lately m ts)

namespace Abreast

variable {s s' : Service}

theorem congr (h : Abreast ts s) (heq : s'.records = s.records) : Abreast ts s' := by
  constructor
  · rw [heq]
    exact h.distinct
  · rw [heq]
    exact h.knows

theorem start (h : s.records = .empty) : Abreast [] s := by
  constructor
  · rw [h]
    exact List.nodup_nil
  · intro m
    rw [h]
    rfl

theorem heard (h : Abreast ts s) (a : Announcement) : Abreast (ts ++ [.heard a]) (s.adopt a) := by
  refine ⟨Service.distinct_adopt a h.distinct, ?_⟩
  intro m
  rw [lately_concat, note]
  by_cases hm : m = a.member
  · subst hm
    rw [if_pos rfl]
    exact Service.knows_adopt (h.knows a.member)
  · rw [if_neg (Ne.symm hm), Service.get?_adopt_of_ne s hm]
    exact h.knows m

theorem gone (h : Abreast ts s) (x : MemberId) : Abreast (ts ++ [.gone x]) (s.forget x) := by
  refine ⟨h.distinct.erase x, ?_⟩
  intro m
  have hget : (s.forget x).records.get? m = if m = x then none else s.records.get? m :=
    Table.get?_erase s.records x m
  rw [hget, lately_concat, note]
  by_cases hm : m = x
  · rw [if_pos hm, if_pos hm.symm]
    rfl
  · rw [if_neg hm, if_neg (Ne.symm hm)]
    exact h.knows m

theorem learn (h : Abreast ts s) (t : Tiding) : Abreast (ts ++ [t]) (s.learn t) := by
  cases t with
  | heard a => exact h.heard a
  | gone x => exact h.gone x
  | lost =>
    refine ⟨List.nodup_nil, ?_⟩
    intro m
    exact lately_concat m ts .lost

theorem learns (h : Abreast ts s) (us : List Tiding) : Abreast (ts ++ us) (us.foldl Service.learn s) := by
  induction us generalizing ts s with
  | nil => rwa [List.append_nil]
  | cons u us ih =>
    have hu := ih (h.learn u)
    rwa [List.append_assoc] at hu

end Abreast

/-! ## What a host hears -/

/-- A service is told that a member has gone. -/
def parting? (service : ServiceKey) (d : Delivery ServiceKey) : Option Tiding :=
  if d.listener = service then
    match d.news with
    | .member .removed x => some (.gone x.id)
    | _ => none
  else none

namespace Host

variable {h : Host}

/-- A message that comes in is an announcement of another member. -/
def hearing? (h : Host) (r : Wire.Request) : Option Tiding :=
  match h.routes.get? r.subject with
  | some (.announcements service) =>
    if service = h.current.key then
      match (Form.ofBytes? r.payload : Option Announcement) with
      | some a => if a.member = h.view.localId then none else some (.heard a)
      | none => none
    else none
  | _ => none

/-- What the service of a host learns by an act. -/
def tidings (h : Host) : HostAct → List Tiding
  | .stops => if h.current.running then [.lost] else []
  | .receives r => (h.hearing? r).toList
  | .follows g => g.log.reverse.filterMap (parting? h.current.key)
  | _ => []

theorem current_notice (h : Host) (d : Delivery ServiceKey) :
    (h.notice d).1.current = (parting? h.current.key d).toList.foldl Service.learn h.current := by
  unfold notice parting?
  split
  · split
    · rename_i hnews
      rw [hnews]
      rfl
    · rename_i hnews
      rw [hnews]
      rfl
    · rename_i hadded hremoved
      split
      · rename_i x hnews
        exact absurd hnews (hremoved x)
      · rfl
  · rfl

theorem current_notices (h : Host) (ds : List (Delivery ServiceKey)) :
    (h.notices ds).1.current = (ds.filterMap (parting? h.current.key)).foldl Service.learn h.current := by
  rw [fst_notices]
  induction ds generalizing h with
  | nil => rfl
  | cons d ds ih =>
    have hone := current_notice h d
    have hkey := (frame_notice h d).key
    rw [List.foldl_cons, ih, hkey, hone, List.filterMap_cons]
    cases parting? h.current.key d with
    | none => rfl
    | some t => rfl

theorem records_hearBytes (h : Host) {r : Wire.Request}
    (hroute : h.routes.get? r.subject = some (.announcements h.current.key)) :
    h.current.hearBytes h.view.localId r.payload = (h.hearing? r).toList.foldl Service.learn h.current := by
  unfold Service.hearBytes Service.hear hearing?
  rw [hroute]
  dsimp only
  rw [if_pos rfl]
  cases (Form.ofBytes? r.payload : Option Announcement) with
  | none => rfl
  | some a =>
    dsimp only
    split
    · rfl
    · rfl

theorem records_receive_eq (h : Host) (r : Wire.Request) :
    (h.receive r).2.current.records = ((h.hearing? r).toList.foldl Service.learn h.current).records := by
  cases hroute : h.routes.get? r.subject with
  | none =>
    rw [receive, hearing?, hroute]
    rfl
  | some route =>
    cases route with
    | handler x =>
      rw [receive, hearing?, hroute]
      rfl
    | announcements service =>
      by_cases hkey : service = h.current.key
      · subst hkey
        rw [← records_hearBytes h hroute, receive, hroute]
        dsimp only
        rw [if_pos rfl]
      · rw [receive, hearing?, hroute]
        dsimp only
        rw [if_neg hkey, if_neg hkey]
        rfl
    | requests service topic =>
      rw [receive, hearing?, hroute]
      exact records_ask h service topic r.payload
    | notices service topic =>
      rw [receive, hearing?, hroute]
      have htell := tellAll_eq h topic r.payload ((h.topicsOf service).all topic)
      exact congrArg (·.current.records) htell

theorem records_act (h : Host) (a : HostAct) :
    (h.act a).1.current.records = ((h.tidings a).foldl Service.learn h.current).records := by
  cases a with
  | starts now =>
    rw [act, start]
    split
    · rfl
    · rfl
  | stops =>
    rw [act, stop, tidings]
    split
    · rfl
    · rfl
  | subscribes topic s => rfl
  | closes x =>
    by_cases hkey : x.service = h.current.key
    · rw [act, snd_close h hkey]
      rfl
    · rw [act, close, if_neg hkey]
      rfl
  | picks topic => rfl
  | receives r => exact records_receive_eq h r
  | follows g =>
    have hcurrent := current_notices { h with roster := { g with log := [] } } g.log.reverse
    exact congrArg (·.records) hcurrent
  | repeats now =>
    rw [act, repeat?]
    split
    · split
      · rfl
      · rfl
    · rfl

theorem abreast_run {key : ServiceKey} {ms : UInt64} (hnew : h.current = .ofClock key ms) (acts : List HostAct) :
    Abreast (h.noted tidings acts) (h.run acts).current := by
  have hmore (ts : List Tiding) (h : Host) (hts : Abreast ts h.current) :
      Abreast (ts ++ h.noted tidings acts) (h.run acts).current := by
    induction acts generalizing ts h with
    | nil => rwa [noted, List.append_nil]
    | cons a acts ih =>
      have hact := (hts.learns (h.tidings a)).congr (records_act h a)
      have hrest := ih (ts ++ h.tidings a) (h.act a).1 hact
      rwa [List.append_assoc] at hrest
  apply hmore [] h
  apply Abreast.start
  rw [hnew]
  rfl

/-- A member is counted for the topics of the announcement that leads among those that were lately heard
of it. A lower version than one that was heard already leads exactly if the member has been unknown
since, and nothing as late has been heard again. -/
theorem a_version_counts_until_its_member_is_unknown {h : Host} {key : ServiceKey} {ms : UInt64}
    (hnew : h.current = .ofClock key ms) (acts : List HostAct) {m : MemberId}
    (hm : m ≠ (h.run acts).view.localId) :
    (∀ topic, m ∈ (h.run acts).current.subscribers (h.run acts).view topic ↔
      (h.run acts).view.isActive m = true ∧
        ∃ a, Leads a (lately m (h.noted tidings acts)) ∧ a.topics.contains topic = true) ∧
    ∀ before a after, h.noted tidings acts = before ++ .heard a :: after → a.member = m →
      ∀ b, Leads b (lately m (h.noted tidings acts)) →
        (b.version < a.version ↔
          (∃ t ∈ after, Clears m t) ∧ ∀ c ∈ lately m after, c.version < a.version) := by
  have hknown := abreast_run hnew acts
  generalize h.noted tidings acts = ts at hknown
  constructor
  · intro topic
    rw [Service.mem_subscribers_of_ne hknown.distinct hm]
    have hm := hknown.knows m
    cases hr : (h.run acts).current.records.get? m with
    | none =>
      rw [hr] at hm
      have hnil : lately m ts = [] := hm
      constructor
      · rintro ⟨r, hsome, -⟩
        cases hsome
      · rintro ⟨-, a, ha, -⟩
        rw [hnil] at ha
        exact absurd ha.mem List.not_mem_nil
    | some r =>
      rw [hr] at hm
      obtain ⟨b, hb, rfl⟩ := hm
      constructor
      · rintro ⟨r, hsome, htopic, hactive⟩
        obtain rfl := Option.some.inj hsome
        exact ⟨hactive, b, hb, htopic⟩
      · rintro ⟨hactive, a, ha, htopic⟩
        obtain rfl := ha.unique hb
        exact ⟨_, rfl, htopic, hactive⟩
  · rintro before a after rfl ham b hb
    have hsplit : before ++ .heard a :: after = (before ++ [.heard a]) ++ after := by simp
    rw [hsplit] at hb
    by_cases hcleared : ∃ t ∈ after, Clears m t
    · rw [lately_append_of_clears hcleared] at hb
      constructor
      · intro hlt
        refine ⟨hcleared, ?_⟩
        intro c hc
        exact UInt64.lt_of_le_of_lt (hb.le hc) hlt
      · rintro ⟨-, hall⟩
        exact hall b hb.mem
    · -- The announcement is still among those that were lately heard.
      have hheard : a ∈ lately m ((before ++ [.heard a]) ++ after) := by
        apply mem_lately_append
        · intro t ht hclears
          exact hcleared ⟨t, ht, hclears⟩
        · rw [lately_concat, note, if_pos ham]
          exact List.mem_append_right _ List.mem_cons_self
      constructor
      · intro hlt
        exact absurd hlt (UInt64.not_lt.mpr (hb.le hheard))
      · rintro ⟨hclears, -⟩
        exact absurd hclears hcleared

/-! A node comes, goes and comes again. -/

def visitor : Node := ⟨⟨"b"⟩, ⟨"b", 2⟩⟩

/-- The visitor serves a topic. -/
def word (version : UInt64) (topic : String) : Announcement := ⟨⟨"b"⟩, version, .ofList [topic]⟩

def hearsWord (version : UInt64) (topic : String) : HostAct :=
  .receives ⟨0, visitor.address, announcementSubject, Form.bytes (word version topic)⟩

/-- What the visitor said first is heard last. -/
def visits : List HostAct :=
  let g := lone.roster.start.2
  let come := (lone.run [.follows g, .starts 0]).roster.occur ⟨.joined, visitor⟩
  let gone := { come with log := [] }.occur ⟨.left, visitor⟩
  let back := { gone with log := [] }.occur ⟨.joined, visitor⟩
  [.follows g, .starts 0, .follows come, hearsWord 6 "a", .follows gone, hearsWord 4 "b", .follows back]

theorem a_version_counts_until_its_member_is_unknown_visits :
    let gap : List Tiding := [.gone ⟨"b"⟩, .heard (word 4 "b")]
    lone.noted tidings visits = .heard (word 6 "a") :: gap ∧
      ((word 4 "b").version < (word 6 "a").version ↔
        (∃ t ∈ gap, Clears ⟨"b"⟩ t) ∧ ∀ c ∈ lately ⟨"b"⟩ gap, c.version < (word 6 "a").version) := by
  intro gap
  have hts : lone.noted tidings visits = [] ++ .heard (word 6 "a") :: gap := by decide +kernel
  have hlately : lately ⟨"b"⟩ (lone.noted tidings visits) = [word 4 "b"] := by decide +kernel
  have hleads : Leads (word 4 "b") (lately ⟨"b"⟩ (lone.noted tidings visits)) := by
    rw [hlately]
    exact leads_concat fun b hb => absurd hb List.not_mem_nil
  have h := a_version_counts_until_its_member_is_unknown (h := lone) rfl visits (m := ⟨"b"⟩)
    (by decide +kernel)
  exact ⟨hts, h.2 [] _ gap hts rfl _ hleads⟩

/-- A node was heard to serve a topic with one version. After it has gone and come again, it is counted
for what it had said with a lower version. -/
theorem a_lower_version_counts_after_a_visit :
    (lone.run (visits.take 4)).current.records.get? ⟨"b"⟩ = some ⟨6, .ofList ["a"]⟩ ∧
      (lone.run (visits.take 4)).current.subscribers (lone.run (visits.take 4)).view "a" = [⟨"b"⟩] ∧
      (lone.run visits).current.subscribers (lone.run visits).view "a" = [] ∧
      (lone.run visits).current.subscribers (lone.run visits).view "b" = [⟨"b"⟩] := by
  decide +kernel

end Host

end ClusterNet.PubSub
