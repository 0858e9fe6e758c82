import ClusterNet.Proofs.Tables
import Mathlib.Data.List.Induction
import ClusterNet.PubSub.Host

/-!
# What a host does to its topics

A host takes part in many things, but only two of them change its subscriptions: to subscribe
and to close. All else leaves the subscriptions, their version and their routes as they are.
-/

namespace ClusterNet.PubSub

open ClusterNet.Membership Messaging

/-! ## Turns -/

namespace Balancer

theorem pick_nil {A : Type} (b : Balancer) : (b.pick ([] : List A)).1 = none := rfl

theorem exists_pick {A : Type} (b : Balancer) {as : List A} (h : as ≠ []) :
    ∃ a ∈ as, (b.pick as).1 = some a := by
  have hlen : as.length ≠ 0 := by
    intro h0
    exact h (List.eq_nil_of_length_eq_zero h0)
  have hlt : b.count.toNat % as.length < as.length := Nat.mod_lt _ (by omega)
  refine ⟨as[b.count.toNat % as.length], List.getElem_mem hlt, ?_⟩
  unfold pick next
  rw [if_neg hlen]
  exact List.getElem?_eq_getElem hlt

end Balancer

/-! ## Topics -/

namespace Topics

variable {t : Topics} {topic : String}

theorem get?_add (t : Topics) (topic : String) (s : Subscription) (u : String) :
    (t.add topic s).get? u = if u = topic then
      some ⟨t.all topic ++ [s], ((t.get? topic).map (·.balancer)).getD .start⟩ else t.get? u := by
  unfold add all
  cases h : t.get? topic with
  | none => exact Table.get?_insert t topic u _
  | some state => exact Table.get?_insert t topic u _

theorem all_add (t : Topics) (topic : String) (s : Subscription) (u : String) :
    (t.add topic s).all u = if u = topic then t.all topic ++ [s] else t.all u := by
  rw [all, get?_add]
  split
  · rfl
  · rfl

theorem get?_remove (t : Topics) (topic : String) (id : SubscriptionId) (u : String) :
    (t.remove topic id).2.get? u = if u = topic then
      (t.get? topic).bind fun state =>
        if (state.subscriptions.filter fun s => s.id != id).isEmpty then none
        else some { state with subscriptions := state.subscriptions.filter fun s => s.id != id }
      else t.get? u := by
  unfold remove
  cases h : t.get? topic with
  | none =>
    by_cases hu : u = topic
    · rw [if_pos hu, hu]
      exact h
    · rw [if_neg hu]
  | some state =>
    dsimp only [Option.bind_some]
    split
    · exact Table.get?_erase t topic u
    · exact Table.get?_insert t topic u _

theorem all_remove (t : Topics) (topic : String) (id : SubscriptionId) (u : String) :
    (t.remove topic id).2.all u =
      if u = topic then (t.all topic).filter fun s => s.id != id else t.all u := by
  rw [all, get?_remove]
  split
  · rw [all]
    cases t.get? topic with
    | none => rfl
    | some state =>
      simp only [Option.bind_some, Option.map_some, Option.getD_some]
      split
      · rename_i hempty
        rw [List.isEmpty_iff.mp hempty]
        rfl
      · rfl
  · rfl

theorem length_filter_lt {A : Type} (p : A → Bool) (as : List A) :
    decide ((as.filter p).length < as.length) = as.any fun a => !p a := by
  rw [Bool.eq_iff_iff, decide_eq_true_iff, List.any_eq_true, List.length_filter_lt_length_iff_exists]
  simp

theorem fst_remove (t : Topics) (topic : String) (id : SubscriptionId) :
    (t.remove topic id).1 = (t.all topic).any fun s => s.id == id := by
  unfold remove all
  cases t.get? topic with
  | none => rfl
  | some state =>
    simp only [length_filter_lt, Option.map_some, Option.getD_some]
    simp [bne]

/-! A topic is served only while it has a subscription. -/

def Occupied (t : Topics) : Prop := ∀ topic, t.contains topic = true → t.all topic ≠ []

theorem contains_of_all (h : t.all topic ≠ []) : t.contains topic = true := by
  unfold all at h
  cases hget : t.get? topic with
  | none => simp [hget] at h
  | some state => simp [Table.contains, hget]

theorem Occupied.contains_iff (h : t.Occupied) : t.contains topic = true ↔ t.all topic ≠ [] :=
  ⟨h topic, contains_of_all⟩

theorem occupied_empty : Occupied Table.empty := by
  intro topic h
  simp [Table.contains] at h

theorem Occupied.congr {t' : Topics} (h : t.Occupied) (hall : ∀ u, t'.all u = t.all u)
    (hkeys : t'.keys = t.keys) : t'.Occupied := by
  intro topic hin
  rw [hall]
  apply h
  rw [Table.contains_iff_mem_keys] at hin ⊢
  rwa [← hkeys]

theorem Occupied.add (h : t.Occupied) (topic : String) (s : Subscription) : (t.add topic s).Occupied := by
  intro u hu
  rw [all_add]
  split
  · simp
  · rename_i hne
    apply h
    rwa [Table.contains, get?_add, if_neg hne] at hu

theorem Occupied.remove (h : t.Occupied) (topic : String) (id : SubscriptionId) :
    (t.remove topic id).2.Occupied := by
  intro u hu
  rw [Table.contains, get?_remove] at hu
  rw [all_remove]
  split at hu
  · rw [if_pos ‹u = topic›, all]
    cases hget : t.get? topic with
    | none => simp [hget] at hu
    | some state =>
      rw [hget, Option.bind_some] at hu
      simp only [Option.map_some, Option.getD_some]
      intro hnil
      simp [hnil] at hu
  · rw [if_neg ‹¬ u = topic›]
    exact h u hu

/-! Nothing is removed that is not there. -/

theorem filter_of_not_any {subs : List Subscription} {id : SubscriptionId}
    (h : (subs.any fun s => s.id == id) = false) : (subs.filter fun s => s.id != id) = subs := by
  rw [List.filter_eq_self]
  intro s hs
  rw [List.any_eq_false] at h
  simpa using h s hs

theorem all_remove_of_not_any {id : SubscriptionId} (h : ((t.all topic).any fun s => s.id == id) = false)
    (u : String) : (t.remove topic id).2.all u = t.all u := by
  rw [all_remove, filter_of_not_any h]
  split
  · rename_i hu
    rw [hu]
  · rfl

theorem keys_remove (hocc : t.Occupied) {id : SubscriptionId}
    (h : ((t.all topic).any fun s => s.id == id) = false) : (t.remove topic id).2.keys = t.keys := by
  unfold remove
  cases hget : t.get? topic with
  | none => rfl
  | some state =>
    have hsubs : state.subscriptions = t.all topic := by
      rw [all, hget]
      rfl
    have hin : t.contains topic = true := by
      rw [Table.contains, hget]
      rfl
    dsimp only
    rw [hsubs, filter_of_not_any h, if_neg]
    · exact Table.keys_insert hin _
    · rw [List.isEmpty_iff]
      exact hocc topic hin

theorem mem_names : topic ∈ t.names.items ↔ t.contains topic = true := by
  rw [names, TextSet.mem_ofList, Table.contains_iff_mem_keys]

/-! Taking turns changes nothing but whose turn it is. -/

theorem all_next (t : Topics) (topic u : String) : (t.next topic).2.all u = t.all u := by
  unfold next
  cases h : t.get? topic with
  | none => rfl
  | some state =>
    simp only [all]
    rw [Table.get?_insert]
    split
    · rename_i hu
      rw [hu, h]
      rfl
    · rfl

theorem keys_next (t : Topics) (topic : String) : (t.next topic).2.keys = t.keys := by
  unfold next
  cases h : t.get? topic with
  | none => rfl
  | some state =>
    apply Table.keys_insert
    simp [Table.contains, h]

theorem exists_next (h : t.all topic ≠ []) : ∃ s ∈ t.all topic, (t.next topic).1 = some s := by
  unfold all next at *
  cases hget : t.get? topic with
  | none => simp [hget] at h
  | some state =>
    simp only [hget, Option.map_some, Option.getD_some] at h ⊢
    exact state.balancer.exists_pick h

end Topics

/-! ## Hearing -/

/-- What is noted when a subscription hears a message. -/
def Subscription.notes (s : Subscription) (topic : String) (payload : Bytes) : List Heard :=
  ((s.subscriber.hear payload).message.map fun m => ⟨topic, s.subscriber.label, m⟩).toList

namespace Host

variable {h : Host} {topic : String} {payload : Bytes}

/-- Subscriptions hear a message, one after the other. -/
def tellAll (h : Host) (topic : String) (payload : Bytes) (subs : List Subscription) : Host :=
  subs.foldl (fun h s => (h.tell topic payload s).2) h

theorem tell_eq (h : Host) (topic : String) (payload : Bytes) (s : Subscription) :
    (h.tell topic payload s).2 = { h with heard := s.notes topic payload ++ h.heard } := by
  unfold tell Subscription.notes
  cases hm : (s.subscriber.hear payload).message with
  | none => simp [hm]
  | some m => simp [hm]

/-- Each of them has heard it once, and nothing else has changed. -/
theorem tellAll_eq (h : Host) (topic : String) (payload : Bytes) (subs : List Subscription) :
    h.tellAll topic payload subs =
      { h with heard := (subs.flatMap fun s => s.notes topic payload).reverse ++ h.heard } := by
  induction subs generalizing h with
  | nil => rfl
  | cons s subs ih =>
    have hreverse : (s.notes topic payload).reverse = s.notes topic payload := by
      unfold Subscription.notes
      cases (s.subscriber.hear payload).message with
      | none => rfl
      | some m => rfl
    unfold tellAll at ih ⊢
    rw [List.foldl_cons, ih, tell_eq, List.flatMap_cons, List.reverse_append, hreverse, List.append_assoc]

theorem spread_current (h : Host) (topic : String) (payload : Bytes) :
    h.spread h.current.key topic payload = h.tellAll topic payload (h.current.topics.all topic) := by
  unfold spread topicsOf tellAll
  rw [if_pos rfl]

theorem ask_current (h : Host) {s : Subscription} (hs : (h.current.topics.next topic).1 = some s) :
    h.ask h.current.key topic payload =
      (.works (s.subscriber.hear payload).ms (s.subscriber.hear payload).effort,
        (h.setTopics h.current.key (h.current.topics.next topic).2).tellAll topic payload [s]) := by
  unfold ask topicsOf
  rw [if_pos rfl]
  generalize h.current.topics.next topic = turn at hs ⊢
  obtain ⟨s', topics⟩ := turn
  subst hs
  rfl

end Host

/-! ## Acts -/

inductive HostAct where
  | starts (now : Nat)
  | stops
  | subscribes (topic : String) (s : Subscriber)
  | closes (handle : Handle)
  /-- The subscriber of a topic whose turn it is gets a message. -/
  | picks (topic : String)
  | receives (r : Wire.Request)
  /-- The group has gone on up to here. -/
  | follows (g : Roster ServiceKey)
  | repeats (now : Nat)

/-- Acts on subscriptions. -/
def HostAct.isCall : HostAct → Bool
  | .subscribes _ _ => true
  | .closes _ => true
  | _ => false

namespace Host

variable {h : Host}

/-- An act that is not possible now changes nothing. -/
def act (h : Host) : HostAct → Host × List Outgoing
  | .starts now => h.start now
  | .stops => (h.stop, [])
  | .subscribes topic s => (h.subscribe topic s).2
  | .closes handle => (h.close handle).2
  | .picks topic => ({ h with current := (h.current.nextSubscriber h.view topic).2 }, [])
  | .receives r => ((h.receive r).2, [])
  | .follows g => h.follow g
  | .repeats now => (h.repeat? now).getD (h, [])

def run (h : Host) (acts : List HostAct) : Host := acts.foldl (fun h a => (h.act a).1) h

theorem run_concat (h : Host) (acts : List HostAct) (a : HostAct) :
    h.run (acts ++ [a]) = ((h.run acts).act a).1 := by
  rw [run, List.foldl_append]
  rfl

/-- A service that runs hears announcements. -/
def Attentive (h : Host) : Prop :=
  h.current.running = true → h.routes.get? announcementSubject = some (.announcements h.current.key)

/-- Nothing but announcements is heard on their subject. -/
def Discreet (h : Host) : Prop :=
  ∀ route, h.routes.get? announcementSubject = some route → ∃ service, route = .announcements service

theorem discreet_of_get? {h' : Host} (hd : h.Discreet)
    (hget : h'.routes.get? announcementSubject = h.routes.get? announcementSubject) : h'.Discreet := by
  unfold Discreet
  rw [hget]
  exact hd

/-- The subscriptions are the same, and so are their routes. -/
structure Frame (h h' : Host) : Prop where
  key : h'.current.key = h.current.key
  version : h'.current.version = h.current.version
  nextId : h'.current.nextId = h.current.nextId
  all : ∀ topic, h'.current.topics.all topic = h.current.topics.all topic
  topics : h'.current.topics.keys = h.current.topics.keys
  routes : ∀ subject, subject ≠ announcementSubject → h'.routes.get? subject = h.routes.get? subject
  attentive : h.Attentive → h'.Attentive
  discreet : h.Discreet → h'.Discreet

theorem Frame.refl (h : Host) : Frame h h := ⟨rfl, rfl, rfl, fun _ => rfl, rfl, fun _ _ => rfl, id, id⟩

theorem Frame.trans {h' h'' : Host} (a : Frame h h') (b : Frame h' h'') : Frame h h'' where
  key := b.key.trans a.key
  version := b.version.trans a.version
  nextId := b.nextId.trans a.nextId
  all topic := (b.all topic).trans (a.all topic)
  topics := b.topics.trans a.topics
  routes subject hne := (b.routes subject hne).trans (a.routes subject hne)
  attentive hatt := b.attentive (a.attentive hatt)
  discreet hdis := b.discreet (a.discreet hdis)

theorem frame_start (h : Host) (now : Nat) : Frame h (h.start now).1 := by
  unfold start
  split
  · exact Frame.refl h
  · refine ⟨rfl, rfl, rfl, fun _ => rfl, rfl, ?_, ?_, ?_⟩
    · intro subject hne
      exact Table.get?_insert_of_ne h.routes hne _
    · intro _ _
      exact Table.get?_insert_self h.routes announcementSubject _
    · intro _ route hroute
      have hself := Table.get?_insert_self h.routes announcementSubject (.announcements h.current.key)
      exact ⟨h.current.key, Option.some.inj (hroute.symm.trans hself)⟩

theorem frame_stop (h : Host) : Frame h h.stop := by
  unfold stop
  split
  · refine ⟨rfl, rfl, rfl, fun _ => rfl, rfl, ?_, ?_, ?_⟩
    · intro subject hne
      exact Table.get?_erase_of_ne h.routes hne
    · intro _ hrunning
      simp at hrunning
    · intro _ route hroute
      cases hroute.symm.trans (Table.get?_erase_self h.routes announcementSubject)
  · exact Frame.refl h

theorem frame_notice (h : Host) (d : Delivery ServiceKey) : Frame h (h.notice d).1 := by
  unfold notice
  split
  · split
    · exact Frame.refl h
    · exact ⟨rfl, rfl, rfl, fun _ => rfl, rfl, fun _ _ => rfl, id, id⟩
    · exact Frame.refl h
  · exact Frame.refl h

theorem fst_notices (h : Host) (ds : List (Delivery ServiceKey)) :
    (h.notices ds).1 = ds.foldl (fun h d => (h.notice d).1) h := by
  have hfold (ps : List Outgoing) :
      (ds.foldl (fun x d => ((x.1.notice d).1, x.2 ++ (x.1.notice d).2)) (h, ps)).1 =
        ds.foldl (fun h d => (h.notice d).1) h := by
    induction ds generalizing h ps with
    | nil => rfl
    | cons d ds ih => exact ih (h.notice d).1 _
  exact hfold []

theorem notices_cons (h : Host) (d : Delivery ServiceKey) (ds : List (Delivery ServiceKey)) :
    h.notices (d :: ds) =
      (((h.notice d).1.notices ds).1, (h.notice d).2 ++ ((h.notice d).1.notices ds).2) := by
  have hfold (ps : List Outgoing) : ds.foldl (fun x d => ((x.1.notice d).1, x.2 ++ (x.1.notice d).2))
      ((h.notice d).1, ps) = (((h.notice d).1.notices ds).1, ps ++ ((h.notice d).1.notices ds).2) := by
    generalize (h.notice d).1 = h'
    induction ds generalizing h' ps with
    | nil => exact Prod.ext rfl (List.append_nil ps).symm
    | cons e es ih =>
      have hrest := ih ((h'.notice e).2) (h'.notice e).1
      have hall := ih (ps ++ (h'.notice e).2) (h'.notice e).1
      have hself : h'.notices (e :: es) =
          es.foldl (fun x d => ((x.1.notice d).1, x.2 ++ (x.1.notice d).2)) ((h'.notice e).1, (h'.notice e).2) := rfl
      rw [hself, hrest]
      rw [List.foldl_cons, hall, List.append_assoc]
  exact hfold (h.notice d).2

theorem frame_follow (h : Host) (g : Roster ServiceKey) : Frame h (h.follow g).1 := by
  unfold follow
  rw [fst_notices]
  have hroster : Frame h { h with roster := { g with log := [] } } :=
    ⟨rfl, rfl, rfl, fun _ => rfl, rfl, fun _ _ => rfl, id, id⟩
  refine hroster.trans ?_
  generalize ({ h with roster := { g with log := [] } } : Host) = h'
  induction g.log.reverse generalizing h' with
  | nil => exact Frame.refl h'
  | cons d ds ih => exact (frame_notice h' d).trans (ih (h'.notice d).1)

theorem frame_repeat (h : Host) (now : Nat) : Frame h ((h.repeat? now).getD (h, [])).1 := by
  unfold repeat?
  split
  · split
    · exact ⟨rfl, rfl, rfl, fun _ => rfl, rfl, fun _ _ => rfl, id, id⟩
    · exact Frame.refl h
  · exact Frame.refl h

theorem frame_tellAll (h : Host) (topic : String) (payload : Bytes) (subs : List Subscription) :
    Frame h (h.tellAll topic payload subs) := by
  rw [tellAll_eq]
  exact ⟨rfl, rfl, rfl, fun _ => rfl, rfl, fun _ _ => rfl, id, id⟩

theorem frame_setTopics (h : Host) (service : ServiceKey) (topic : String) :
    Frame h (h.setTopics service ((h.topicsOf service).next topic).2) := by
  unfold setTopics topicsOf
  split
  · refine ⟨rfl, rfl, rfl, ?_, ?_, fun _ _ => rfl, id, id⟩
    · intro u
      exact Topics.all_next h.current.topics topic u
    · exact Topics.keys_next h.current.topics topic
  · exact ⟨rfl, rfl, rfl, fun _ => rfl, rfl, fun _ _ => rfl, id, id⟩

theorem frame_ask (h : Host) (service : ServiceKey) (topic : String) (payload : Bytes) :
    Frame h (h.ask service topic payload).2 := by
  have hturn := frame_setTopics h service topic
  unfold ask
  cases hs : ((h.topicsOf service).next topic).1 with
  | none => simpa [hs] using hturn
  | some s =>
    have htell := hturn.trans (frame_tellAll _ topic payload [s])
    simpa [hs, tellAll] using htell

theorem frame_hearBytes (h : Host) (b : Bytes) :
    Frame h { h with current := h.current.hearBytes h.view.localId b } := by
  unfold Service.hearBytes Service.hear Service.adopt
  split
  · split
    · exact Frame.refl h
    · split
      · split
        · exact ⟨rfl, rfl, rfl, fun _ => rfl, rfl, fun _ _ => rfl, id, id⟩
        · exact Frame.refl h
      · exact ⟨rfl, rfl, rfl, fun _ => rfl, rfl, fun _ _ => rfl, id, id⟩
  · exact Frame.refl h

theorem frame_receive (h : Host) (r : Wire.Request) : Frame h (h.receive r).2 := by
  unfold receive
  split
  · exact Frame.refl h
  · exact Frame.refl h
  · dsimp only
    split
    · exact frame_hearBytes h r.payload
    · exact Frame.refl h
  · exact frame_ask h _ _ r.payload
  · exact frame_tellAll h _ r.payload _

theorem exists_receive (h : Host) (r : Wire.Request) : ∃ current former heard,
    (h.receive r).2 = { h with current := current, former := former, heard := heard } := by
  have hset (service : ServiceKey) (topics : Topics) : ∃ current former,
      h.setTopics service topics = { h with current := current, former := former } := by
    unfold setTopics
    split
    · exact ⟨_, h.former, rfl⟩
    · exact ⟨h.current, _, rfl⟩
  unfold receive
  split
  · exact ⟨h.current, h.former, h.heard, rfl⟩
  · exact ⟨h.current, h.former, h.heard, rfl⟩
  · dsimp only
    split
    · exact ⟨_, h.former, h.heard, rfl⟩
    · exact ⟨h.current, h.former, h.heard, rfl⟩
  · rename_i service topic _
    obtain ⟨current, former, heq⟩ := hset service ((h.topicsOf service).next topic).2
    dsimp only
    unfold ask
    cases hs : ((h.topicsOf service).next topic).1 with
    | none =>
      simp only [hs, heq]
      exact ⟨current, former, h.heard, rfl⟩
    | some s =>
      simp only [hs, tell_eq, heq]
      exact ⟨current, former, _, rfl⟩
  · rename_i service topic _
    refine ⟨h.current, h.former, _, tellAll_eq h topic r.payload _⟩

theorem frame_act (h : Host) {a : HostAct} (ha : a.isCall = false) : Frame h (h.act a).1 := by
  cases a with
  | starts now => exact frame_start h now
  | stops => exact frame_stop h
  | subscribes topic s => simp [HostAct.isCall] at ha
  | closes handle => simp [HostAct.isCall] at ha
  | picks topic => exact ⟨rfl, rfl, rfl, fun _ => rfl, rfl, fun _ _ => rfl, id, id⟩
  | receives r => exact frame_receive h r
  | follows g => exact frame_follow h g
  | repeats now => exact frame_repeat h now

/-! ## Calls -/

theorem snd_subscribe (h : Host) (topic : String) (s : Subscriber) :
    (h.subscribe topic s).2.1 = { h with
      current := { h.current with
        topics := h.current.topics.add topic ⟨h.current.nextId, s⟩
        nextId := h.current.nextId + 1
        version := h.current.version + 1 }
      routes := if h.current.topics.contains topic then h.routes
        else h.routes.addTopic h.current.key topic } := rfl

theorem fst_close (h : Host) (handle : Handle) : (h.close handle).1 =
    (decide (handle.service = h.current.key) &&
      (h.current.topics.all handle.topic).any fun s => s.id == handle.id) := by
  unfold close
  by_cases hkey : handle.service = h.current.key
  · rw [if_pos hkey, ← Topics.fst_remove]
    simp only [hkey, decide_true, Bool.true_and]
    unfold Service.close Service.delist
    dsimp only
    split
    · rename_i hfound
      exact hfound.symm
    · rename_i hfound
      exact (Bool.eq_false_iff.mpr hfound).symm
  · rw [if_neg hkey]
    simp [hkey]

theorem snd_close (h : Host) {handle : Handle} (hkey : handle.service = h.current.key) :
    (h.close handle).2.1 = { h with
      current := { h.current with
        topics := (h.current.topics.remove handle.topic handle.id).2
        version := if (h.close handle).1 then h.current.version + 1 else h.current.version }
      routes := if h.current.topics.contains handle.topic &&
          !((h.current.topics.remove handle.topic handle.id).2.contains handle.topic) then
        h.routes.removeTopic handle.topic else h.routes } := by
  have hfst : (h.close handle).1 = (h.current.topics.remove handle.topic handle.id).1 := by
    rw [fst_close, Topics.fst_remove]
    simp [hkey]
  rw [hfst]
  unfold close
  rw [if_pos hkey]
  unfold Service.close Service.delist
  dsimp only
  cases (h.current.topics.remove handle.topic handle.id).1 with
  | true => rfl
  | false => rfl

/-- A topic has one more subscription, and its routes at least now. -/
structure Opened (h h' : Host) (topic : String) (s : Subscriber) : Prop where
  key : h'.current.key = h.current.key
  running : h'.current.running = h.current.running
  version : h'.current.version = h.current.version + 1
  nextId : h'.current.nextId = h.current.nextId + 1
  all : ∀ u, h'.current.topics.all u = if u = topic then
    h.current.topics.all topic ++ [⟨h.current.nextId, s⟩] else h.current.topics.all u
  other : ∀ u, u ≠ topic → h'.current.topics.get? u = h.current.topics.get? u
  routes : h'.routes = if h.current.topics.all topic = [] then
    h.routes.addTopic h.current.key topic else h.routes

/-- A topic has a subscription less, and no routes without any. -/
structure Shut (h h' : Host) (handle : Handle) : Prop where
  service : handle.service = h.current.key
  was : ∃ s ∈ h.current.topics.all handle.topic, s.id = handle.id
  key : h'.current.key = h.current.key
  running : h'.current.running = h.current.running
  version : h'.current.version = h.current.version + 1
  nextId : h'.current.nextId = h.current.nextId
  all : ∀ u, h'.current.topics.all u = if u = handle.topic then
    (h.current.topics.all handle.topic).filter fun s => s.id != handle.id else h.current.topics.all u
  other : ∀ u, u ≠ handle.topic → h'.current.topics.get? u = h.current.topics.get? u
  routes : h'.routes = if h'.current.topics.all handle.topic = [] then
    h.routes.removeTopic handle.topic else h.routes

/-- What an act comes to. -/
inductive Moves (h h' : Host) : HostAct → Prop where
  | opens (topic : String) (s : Subscriber) (opened : Opened h h' topic s) :
      Moves h h' (.subscribes topic s)
  | shuts (handle : Handle) (found : (h.close handle).1 = true) (shut : Shut h h' handle) :
      Moves h h' (.closes handle)
  | misses (handle : Handle) (found : (h.close handle).1 = false) (frame : Frame h h')
      (other : ∀ u, u ≠ handle.topic → h'.current.topics.get? u = h.current.topics.get? u) :
      Moves h h' (.closes handle)
  | passes (a : HostAct) (quiet : a.isCall = false) (frame : Frame h h') : Moves h h' a

theorem opened_subscribe (hocc : h.current.topics.Occupied) (topic : String) (s : Subscriber) :
    Opened h (h.subscribe topic s).2.1 topic s := by
  rw [snd_subscribe]
  refine ⟨rfl, rfl, rfl, rfl, ?_, ?_, ?_⟩
  · intro u
    exact Topics.all_add h.current.topics topic _ u
  · intro u hne
    exact (Topics.get?_add h.current.topics topic _ u).trans (if_neg hne)
  · dsimp only
    by_cases hall : h.current.topics.all topic = []
    · rw [if_pos hall, if_neg]
      intro hin
      exact hocc topic hin hall
    · rw [if_neg hall, if_pos (Topics.contains_of_all hall)]

theorem any_id {subs : List Subscription} {id : SubscriptionId}
    (h : (subs.any fun s => s.id == id) = true) : ∃ s ∈ subs, s.id = id := by
  obtain ⟨s, hs, hid⟩ := List.any_eq_true.mp h
  exact ⟨s, hs, beq_iff_eq.mp hid⟩

theorem get?_close (h : Host) (handle : Handle) {u : String} (hne : u ≠ handle.topic) :
    (h.close handle).2.1.current.topics.get? u = h.current.topics.get? u := by
  by_cases hkey : handle.service = h.current.key
  · rw [snd_close h hkey]
    exact (Topics.get?_remove h.current.topics handle.topic handle.id u).trans (if_neg hne)
  · unfold close
    rw [if_neg hkey]

theorem shut_close (hocc : h.current.topics.Occupied) {handle : Handle}
    (hfound : (h.close handle).1 = true) : Shut h (h.close handle).2.1 handle := by
  have hboth := hfound
  rw [fst_close, Bool.and_eq_true, decide_eq_true_iff] at hboth
  obtain ⟨hkey, hany⟩ := hboth
  obtain ⟨s, hs, hid⟩ := any_id hany
  have hin : h.current.topics.contains handle.topic = true :=
    Topics.contains_of_all (List.ne_nil_of_mem hs)
  have hall := Topics.all_remove h.current.topics handle.topic handle.id
  refine ⟨hkey, ⟨s, hs, hid⟩, ?_, ?_, ?_, ?_, ?_, fun u hne => get?_close h handle hne, ?_⟩
  · rw [snd_close h hkey]
  · rw [snd_close h hkey]
  · rw [snd_close h hkey, hfound]
    rfl
  · rw [snd_close h hkey]
  · intro u
    rw [snd_close h hkey]
    exact hall u
  · rw [snd_close h hkey, hin]
    dsimp only
    rw [Bool.true_and]
    have hcontains : (h.current.topics.remove handle.topic handle.id).2.contains handle.topic = true ↔
        (h.current.topics.remove handle.topic handle.id).2.all handle.topic ≠ [] :=
      (hocc.remove handle.topic handle.id).contains_iff
    by_cases hnil : (h.current.topics.remove handle.topic handle.id).2.all handle.topic = []
    · rw [if_pos hnil, if_pos]
      rw [Bool.not_eq_true', Bool.eq_false_iff]
      intro hafter
      exact hcontains.mp hafter hnil
    · rw [if_neg hnil, hcontains.mpr hnil]
      rfl

theorem frame_close (hocc : h.current.topics.Occupied) {handle : Handle}
    (hfound : (h.close handle).1 = false) : Frame h (h.close handle).2.1 := by
  by_cases hkey : handle.service = h.current.key
  · have hany := hfound
    rw [fst_close, decide_eq_true hkey, Bool.true_and] at hany
    have hall := Topics.all_remove_of_not_any hany
    -- A topic is in use as long as it has a subscription, and the subscriptions are the same.
    have hcontains : (h.current.topics.remove handle.topic handle.id).2.contains handle.topic =
        h.current.topics.contains handle.topic := by
      rw [Bool.eq_iff_iff, (hocc.remove _ _).contains_iff, hocc.contains_iff, hall]
    have hkeys := Topics.keys_remove hocc hany
    rw [snd_close h hkey, hcontains, hfound]
    have hroutes : (if (h.current.topics.contains handle.topic && !h.current.topics.contains handle.topic) = true
        then h.routes.removeTopic handle.topic else h.routes) = h.routes := by
      rw [Bool.and_not_self]
      rfl
    rw [hroutes]
    exact ⟨rfl, rfl, rfl, hall, hkeys, fun _ _ => rfl, id, id⟩
  · unfold close
    rw [if_neg hkey]
    exact Frame.refl h

theorem moves_act (hocc : h.current.topics.Occupied) (a : HostAct) : Moves h (h.act a).1 a := by
  cases a with
  | subscribes topic s => exact .opens topic s (opened_subscribe hocc topic s)
  | closes handle =>
    cases hfound : (h.close handle).1 with
    | true => exact .shuts handle hfound (shut_close hocc hfound)
    | false => exact .misses handle hfound (frame_close hocc hfound) fun u hne => get?_close h handle hne
  | starts | stops | picks | receives | follows | repeats => exact .passes _ rfl (frame_act h rfl)

theorem occupied_act (hocc : h.current.topics.Occupied) (a : HostAct) :
    (h.act a).1.current.topics.Occupied := by
  cases a with
  | subscribes topic s => exact hocc.add topic _
  | closes handle =>
    by_cases hkey : handle.service = h.current.key
    · have hsnd := snd_close h hkey
      rw [act, hsnd]
      exact hocc.remove handle.topic handle.id
    · rw [act, close, if_neg hkey]
      exact hocc
  | starts | stops | picks | receives | follows | repeats =>
    exact hocc.congr (frame_act h rfl).all (frame_act h rfl).topics

/-! ## Runs -/

theorem run_cons (h : Host) (a : HostAct) (acts : List HostAct) : h.run (a :: acts) = (h.act a).1.run acts := rfl

theorem run_append (h : Host) (acts acts' : List HostAct) : h.run (acts ++ acts') = (h.run acts).run acts' :=
  List.foldl_append

/-- What is noted of the acts of a run, one after the other. -/
def noted {A : Type} (note : Host → HostAct → List A) (h : Host) : List HostAct → List A
  | [] => []
  | a :: acts => note h a ++ (h.act a).1.noted note acts

theorem noted_append {A : Type} (note : Host → HostAct → List A) (h : Host) (acts acts' : List HostAct) :
    h.noted note (acts ++ acts') = h.noted note acts ++ (h.run acts).noted note acts' := by
  induction acts generalizing h with
  | nil => rfl
  | cons a acts ih => rw [List.cons_append, noted, noted, ih, List.append_assoc, run_cons]

end Host

end ClusterNet.PubSub
