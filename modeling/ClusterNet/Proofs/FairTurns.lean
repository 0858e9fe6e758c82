import ClusterNet.Proofs.Announcements
import ClusterNet.Proofs.Isolation
import ClusterNet.Proofs.Shares

/-!
# Turns are shared evenly

The calls for one subscriber of a topic go round among its subscribers, and the requests that
reach a member go round among its subscriptions. Both kinds of turns are counted by topic: what
happens to other topics does not touch them.
-/

namespace ClusterNet.PubSub

open ClusterNet.Membership Messaging

namespace Host

variable {h : Host} {topic : String}

/-- A balancer that moves on by one at most when something is noted, and never else, has moved on by as
many turns at most. -/
theorem count_le_noted {A : Type} (note : Host → HostAct → Option A) (wheel : Host → Balancer)
    (hstep : ∀ h a, (wheel (h.act a).1).count.toNat ≤ (wheel h).count.toNat + (note h a).toList.length)
    (h : Host) (acts : List HostAct) :
    (wheel (h.run acts)).count.toNat ≤
      (wheel h).count.toNat + (h.noted (fun h a => (note h a).toList) acts).length := by
  induction acts generalizing h with
  | nil => exact Nat.le_refl _
  | cons a acts ih =>
    have hrest := ih (h.act a).1
    have hfirst := hstep h a
    rw [run_cons, noted, List.length_append]
    omega

/-! ## Whose turn it is to be sent to -/

/-- Whose turn it is among the subscribers of a topic. -/
def turn (h : Host) (topic : String) : Balancer := (h.current.balancers.get? topic).getD .start

/-- The host calls for one subscriber of a topic. -/
def call? (topic : String) (h : Host) : HostAct → Option Host
  | .picks t => if t = topic then some h else none
  | _ => none

/-- The states of the host in which it calls for one subscriber of a topic. -/
def calls (h : Host) (topic : String) (acts : List HostAct) : List Host :=
  h.noted (fun h a => (call? topic h a).toList) acts

/-- The member that a call for a topic comes to. -/
def choice (h : Host) (topic : String) : Option MemberId :=
  ((h.turn topic).pick (h.current.subscribers h.view topic)).1

theorem turn_picks (h : Host) (topic t : String) : (h.act (.picks t)).1.turn topic =
    if t = topic then ((h.turn topic).pick (h.current.subscribers h.view topic)).2 else h.turn topic := by
  unfold act turn Service.nextSubscriber
  dsimp only
  rw [Table.get?_insert]
  by_cases ht : t = topic
  · subst ht
    rw [if_pos rfl, if_pos rfl]
    rfl
  · rw [if_neg ht, if_neg (Ne.symm ht)]

/-- Nobody's turn has passed. -/
structure Unturned (h h' : Host) : Prop where
  balancers : h'.current.balancers = h.current.balancers
  topics : h'.current.topics = h.current.topics

theorem Unturned.refl (h : Host) : Unturned h h := ⟨rfl, rfl⟩

theorem Unturned.trans {h' h'' : Host} (a : Unturned h h') (b : Unturned h' h'') : Unturned h h'' :=
  ⟨b.balancers.trans a.balancers, b.topics.trans a.topics⟩

theorem unturned_notice (h : Host) (d : Delivery ServiceKey) : Unturned h (h.notice d).1 := by
  unfold notice
  split
  · split
    · exact Unturned.refl h
    · exact ⟨rfl, rfl⟩
    · exact Unturned.refl h
  · exact Unturned.refl h

theorem unturned_follow (h : Host) (g : Roster ServiceKey) : Unturned h (h.follow g).1 := by
  unfold follow
  rw [fst_notices]
  have hroster : Unturned h { h with roster := { g with log := [] } } := ⟨rfl, rfl⟩
  refine hroster.trans ?_
  generalize ({ h with roster := { g with log := [] } } : Host) = h'
  induction g.log.reverse generalizing h' with
  | nil => exact Unturned.refl h'
  | cons d ds ih => exact (unturned_notice h' d).trans (ih (h'.notice d).1)

theorem unturned_hearBytes (h : Host) (b : Bytes) :
    Unturned h { h with current := h.current.hearBytes h.view.localId b } := by
  unfold Service.hearBytes Service.hear Service.adopt
  split
  · split
    · exact Unturned.refl h
    · split
      · split
        · exact ⟨rfl, rfl⟩
        · exact Unturned.refl h
      · exact ⟨rfl, rfl⟩
  · exact Unturned.refl h

theorem unturned_start (h : Host) (now : Nat) : Unturned h (h.start now).1 := by
  unfold start
  split
  · exact Unturned.refl h
  · exact ⟨rfl, rfl⟩

theorem unturned_stop (h : Host) : Unturned h h.stop := by
  unfold stop
  split
  · exact ⟨rfl, rfl⟩
  · exact Unturned.refl h

theorem unturned_repeat (h : Host) (now : Nat) : Unturned h ((h.repeat? now).getD (h, [])).1 := by
  unfold repeat?
  split
  · split
    · exact ⟨rfl, rfl⟩
    · exact Unturned.refl h
  · exact Unturned.refl h

theorem unturned_tellAll (h : Host) (topic : String) (payload : Bytes) (subs : List Subscription) :
    Unturned h (h.tellAll topic payload subs) := by
  rw [tellAll_eq]
  exact ⟨rfl, rfl⟩

theorem unturned_ask (h : Host) (service : ServiceKey) (topic : String) (payload : Bytes) :
    Unturned (h.setTopics service ((h.topicsOf service).next topic).2) (h.ask service topic payload).2 := by
  unfold ask
  cases hs : ((h.topicsOf service).next topic).1 with
  | none => simpa [hs] using Unturned.refl _
  | some s => simpa [hs, tellAll] using unturned_tellAll _ topic payload [s]

theorem balancers_receive (h : Host) (r : Wire.Request) :
    (h.receive r).2.current.balancers = h.current.balancers := by
  unfold receive
  split
  · rfl
  · rfl
  · dsimp only
    split
    · exact (unturned_hearBytes h r.payload).balancers
    · rfl
  · rename_i service topic _
    refine (unturned_ask h service topic r.payload).balancers.trans ?_
    unfold setTopics
    split
    · rfl
    · rfl
  · exact (unturned_tellAll h _ r.payload _).balancers

theorem turn_act (h : Host) {a : HostAct} (ha : ∀ t, a ≠ .picks t) (topic : String) :
    (h.act a).1.turn topic = h.turn topic := by
  have hbalancers : (h.act a).1.current.balancers = h.current.balancers := by
    cases a with
    | starts now => exact (unturned_start h now).balancers
    | stops => exact (unturned_stop h).balancers
    | subscribes topic s => rfl
    | closes handle =>
      by_cases hkey : handle.service = h.current.key
      · rw [act, snd_close h hkey]
      · rw [act, close, if_neg hkey]
    | picks t => exact absurd rfl (ha t)
    | receives r => exact balancers_receive h r
    | follows g => exact (unturned_follow h g).balancers
    | repeats now => exact (unturned_repeat h now).balancers
  rw [turn, hbalancers, turn]

theorem turn_of_call? (h : Host) (topic : String) (a : HostAct) :
    (h.act a).1.turn topic = match call? topic h a with
      | some h => ((h.turn topic).pick (h.current.subscribers h.view topic)).2
      | none => h.turn topic := by
  cases a with
  | picks t =>
    rw [turn_picks, call?]
    split
    · rfl
    · rfl
  | starts | stops | subscribes | closes | receives | follows | repeats =>
    exact turn_act h (fun t => HostAct.noConfusion) topic

theorem call?_eq_some {a : HostAct} {h' : Host} (hcall : call? topic h a = some h') :
    h' = h ∧ a = .picks topic := by
  cases a with
  | picks t =>
    rw [call?] at hcall
    split at hcall
    · rename_i ht
      exact ⟨(Option.some.inj hcall).symm, by rw [ht]⟩
    · cases hcall
  | starts | stops | subscribes | closes | receives | follows | repeats => cases hcall

/-- While the subscribers of a topic are the same ones whenever they are called for, they take turns. -/
theorem choices_eq {ms : List MemberId} (h : Host) (acts : List HostAct)
    (hms : ∀ h' ∈ h.calls topic acts, h'.current.subscribers h'.view topic = ms) :
    (h.calls topic acts).map (·.choice topic) = (h.turn topic).turns ms (h.calls topic acts).length := by
  induction acts generalizing h with
  | nil => rfl
  | cons a acts ih =>
    have hturn := turn_of_call? h topic a
    have hrest := ih (h.act a).1 fun h' hh' => hms h' (List.mem_append_right _ hh')
    unfold calls at hrest hms ⊢
    rw [noted] at hms ⊢
    cases hcall : call? topic h a with
    | none =>
      rw [hcall] at hturn
      rw [hturn] at hrest
      exact hrest
    | some h' =>
      obtain ⟨rfl, -⟩ := call?_eq_some hcall
      rw [hcall] at hturn hms
      have hnow : h'.current.subscribers h'.view topic = ms := hms h' List.mem_cons_self
      dsimp only at hturn
      rw [hturn, hnow] at hrest
      rw [Option.toList_some, List.singleton_append, List.map_cons, List.length_cons, Balancer.turns, hrest,
        choice, hnow]

theorem count_turn_le (h : Host) (topic : String) (acts : List HostAct) :
    ((h.run acts).turn topic).count.toNat ≤ (h.turn topic).count.toNat + (h.calls topic acts).length := by
  refine count_le_noted (call? topic) (fun h => h.turn topic) ?_ h acts
  intro h a
  rw [turn_of_call?]
  cases hcall : call? topic h a with
  | none => exact Nat.le_refl _
  | some h' =>
    obtain ⟨rfl, -⟩ := call?_eq_some hcall
    exact Balancer.count_pick_le _ _

/-! A subscriber can always be reached. -/

end Host

theorem Service.exists_address {s : Service} {v : View} {topic : String} {m : MemberId}
    (hm : m ∈ s.subscribers v topic) : ∃ a, v.address? m = some a := by
  unfold View.address?
  by_cases hlocal : m = v.localId
  · exact ⟨v.home, if_pos hlocal⟩
  · rw [if_neg hlocal]
    unfold Service.subscribers at hm
    dsimp only at hm
    rw [Service.mem_ids, List.mem_append] at hm
    rcases hm with hm | hm
    · split at hm
      · exact absurd (List.mem_singleton.mp hm) hlocal
      · cases hm
    · obtain ⟨e, he, rfl⟩ := List.mem_map.mp hm
      have hactive := (List.mem_filter.mp he).2
      rw [Bool.and_eq_true, View.isActive] at hactive
      cases hmember : v.member? e.1 with
      | none => simp [hmember] at hactive
      | some member => exact ⟨member.address, rfl⟩

/-! ## Whose turn it is to answer -/

namespace Topics

variable {t : Topics} {topic : String}

/-- Whose turn it is among the subscriptions to a topic. -/
def wheel (t : Topics) (topic : String) : Balancer := ((t.get? topic).map (·.balancer)).getD .start

theorem wheel_add (t : Topics) (topic : String) (s : Subscription) (u : String) :
    (t.add topic s).wheel u = t.wheel u := by
  rw [wheel, get?_add]
  split
  · rename_i hu
    rw [hu]
    rfl
  · rfl

theorem wheel_remove {u : String} {id : SubscriptionId}
    (h : (t.remove topic id).2.contains u = true) : (t.remove topic id).2.wheel u = t.wheel u := by
  rw [Table.contains, get?_remove] at h
  rw [wheel, get?_remove, wheel]
  split
  · rename_i hu
    subst hu
    rw [if_pos rfl] at h
    cases hget : t.get? u with
    | none => rfl
    | some state =>
      rw [hget, Option.bind_some] at h
      rw [Option.bind_some]
      split
      · rename_i hempty
        rw [if_pos hempty] at h
        cases h
      · rfl
  · rfl

theorem fst_next (t : Topics) (topic : String) : (t.next topic).1 = ((t.wheel topic).pick (t.all topic)).1 := by
  unfold next wheel all
  cases t.get? topic with
  | none => rfl
  | some state => rfl

theorem wheel_next (t : Topics) (topic u : String) : (t.next topic).2.wheel u =
    if topic = u then ((t.wheel topic).pick (t.all topic)).2 else t.wheel u := by
  unfold next wheel all
  cases hget : t.get? topic with
  | none =>
    dsimp only
    by_cases hu : topic = u
    · rw [if_pos hu, ← hu, hget]
      rfl
    · rw [if_neg hu]
  | some state =>
    dsimp only
    rw [Table.get?_insert]
    by_cases hu : u = topic
    · rw [if_pos hu, if_pos hu.symm]
      rfl
    · rw [if_neg hu, if_neg (Ne.symm hu)]

end Topics

namespace Host

variable {h : Host} {topic : String}

/-- A request to a topic comes to the service of the host. -/
def ask? (topic : String) (h : Host) : HostAct → Option (Host × Wire.Request)
  | .receives r =>
    match h.routes.get? r.subject with
    | some (.requests service t) => if service = h.current.key ∧ t = topic then some (h, r) else none
    | _ => none
  | _ => none

/-- The requests to a topic that come, with the states of the host in which they do. -/
def asks (h : Host) (topic : String) (acts : List HostAct) : List (Host × Wire.Request) :=
  h.noted (fun h a => (ask? topic h a).toList) acts

theorem topics_ask (h : Host) (service : ServiceKey) (topic : String) (payload : Bytes) :
    (h.ask service topic payload).2.current.topics =
      if service = h.current.key then (h.current.topics.next topic).2 else h.current.topics := by
  rw [(unturned_ask h service topic payload).topics, setTopics, topicsOf]
  split
  · rfl
  · rfl

theorem wheel_receive (h : Host) (r : Wire.Request) (topic : String) :
    (h.receive r).2.current.topics.wheel topic = match ask? topic h (.receives r) with
      | some _ => ((h.current.topics.wheel topic).pick (h.current.topics.all topic)).2
      | none => h.current.topics.wheel topic := by
  unfold receive
  dsimp only [ask?]
  cases hroute : h.routes.get? r.subject with
  | none => rfl
  | some route =>
    cases route with
    | handler x => rfl
    | announcements service =>
      dsimp only
      split
      · rw [(unturned_hearBytes h r.payload).topics]
      · rfl
    | requests service t =>
      dsimp only
      rw [topics_ask]
      by_cases hkey : service = h.current.key
      · rw [if_pos hkey, Topics.wheel_next]
        by_cases ht : t = topic
        · subst ht
          rw [if_pos rfl, if_pos ⟨hkey, rfl⟩]
        · rw [if_neg ht, if_neg fun hboth => ht hboth.2]
      · rw [if_neg hkey, if_neg fun hboth => hkey hboth.1]
    | notices service t =>
      dsimp only
      rw [spread]
      exact congrArg (Topics.wheel · topic) (unturned_tellAll h t r.payload _).topics

theorem wheel_act {a : HostAct} (h : Host) (hserved : (h.act a).1.current.topics.contains topic = true) :
    (h.act a).1.current.topics.wheel topic = match ask? topic h a with
      | some _ => ((h.current.topics.wheel topic).pick (h.current.topics.all topic)).2
      | none => h.current.topics.wheel topic := by
  cases a with
  | starts now => exact congrArg (Topics.wheel · topic) (unturned_start h now).topics
  | stops => exact congrArg (Topics.wheel · topic) (unturned_stop h).topics
  | subscribes t s => exact Topics.wheel_add h.current.topics t _ topic
  | closes handle =>
    rw [act] at hserved ⊢
    by_cases hkey : handle.service = h.current.key
    · rw [snd_close h hkey] at hserved ⊢
      exact Topics.wheel_remove hserved
    · rw [close, if_neg hkey]
      rfl
  | picks t => rfl
  | receives r => exact wheel_receive h r topic
  | follows g => exact congrArg (Topics.wheel · topic) (unturned_follow h g).topics
  | repeats now => exact congrArg (Topics.wheel · topic) (unturned_repeat h now).topics

theorem count_wheel_le (h : Host) (topic : String) (acts : List HostAct) :
    ((h.run acts).current.topics.wheel topic).count.toNat ≤
      (h.current.topics.wheel topic).count.toNat + (h.asks topic acts).length := by
  refine count_le_noted (ask? topic) (fun h => h.current.topics.wheel topic) ?_ h acts
  intro h a
  by_cases hserved : (h.act a).1.current.topics.contains topic = true
  · rw [wheel_act h hserved]
    cases ask? topic h a with
    | none => exact Nat.le_refl _
    | some x => exact Balancer.count_pick_le _ _
  · rw [Table.contains, Bool.not_eq_true, Option.isSome_eq_false_iff, Option.isNone_iff_eq_none] at hserved
    rw [Topics.wheel, hserved]
    exact Nat.zero_le _

theorem ask?_eq_some {a : HostAct} {x : Host × Wire.Request} (hask : ask? topic h a = some x) :
    x.1 = h ∧ x.1.receive x.2 =
      (some (x.1.ask x.1.current.key topic x.2.payload).1, (x.1.ask x.1.current.key topic x.2.payload).2) := by
  cases a with
  | receives r =>
    rw [ask?] at hask
    split at hask
    · rename_i service t hroute
      split at hask
      · rename_i hboth
        obtain ⟨rfl, rfl⟩ := hboth
        obtain rfl := Option.some.inj hask
        refine ⟨rfl, ?_⟩
        rw [receive, hroute]
      · cases hask
    · cases hask
  | starts | stops | subscribes | closes | picks | follows | repeats => cases hask

/-- The subscription that answers a request to a topic. -/
def answerer (h : Host) (topic : String) : Option SubscriptionId :=
  (h.current.topics.next topic).1.map (·.id)

theorem answerer_eq (h : Host) (topic : String) : h.answerer topic =
    ((h.current.topics.wheel topic).pick ((h.current.topics.all topic).map (·.id))).1 := by
  rw [answerer, Topics.fst_next, Balancer.fst_pick_map]

theorem answerers_eq {ids : List SubscriptionId} (hids : ids ≠ []) (h : Host) (acts : List HostAct)
    (hsame : ∀ part, part <+: acts → ((h.run part).current.topics.all topic).map (·.id) = ids) :
    (h.asks topic acts).map (·.1.answerer topic) =
      (h.current.topics.wheel topic).turns ids (h.asks topic acts).length := by
  induction acts generalizing h with
  | nil => rfl
  | cons a acts ih =>
    have hnow : (h.current.topics.all topic).map (·.id) = ids := hsame [] List.nil_prefix
    have hlater (part : List HostAct) (hpart : part <+: acts) :
        (((h.act a).1.run part).current.topics.all topic).map (·.id) = ids :=
      hsame (a :: part) (List.cons_prefix_cons.mpr ⟨rfl, hpart⟩)
    have hserved : (h.act a).1.current.topics.contains topic = true := by
      apply Topics.contains_of_all
      intro hnil
      have hnext := hlater [] List.nil_prefix
      rw [run, List.foldl_nil, hnil] at hnext
      exact hids hnext.symm
    have hwheel := wheel_act h hserved
    have hrest := ih (h.act a).1 hlater
    unfold asks at hrest ⊢
    rw [noted]
    cases hask : ask? topic h a with
    | none =>
      rw [hask] at hwheel
      rw [hwheel] at hrest
      exact hrest
    | some x =>
      obtain ⟨rfl, -⟩ := ask?_eq_some hask
      rw [hask] at hwheel
      dsimp only at hwheel
      rw [hwheel, ← Balancer.snd_pick_map _ (·.id), hnow] at hrest
      rw [Option.toList_some, List.singleton_append, List.map_cons, List.length_cons, Balancer.turns, hrest,
        answerer_eq, hnow]

/-- Each subscription of a service has an id of its own. -/
structure Numbered (h : Host) : Prop where
  occupied : h.current.topics.Occupied
  apart : ∀ topic, ((h.current.topics.all topic).map (·.id)).Nodup
  below : ∀ topic, ∀ s ∈ h.current.topics.all topic, s.id < h.current.nextId

theorem numbered_new {key : ServiceKey} {ms : UInt64} (h : Host) (hnew : h.current = .ofClock key ms) :
    h.Numbered := by
  have hempty (topic : String) : h.current.topics.all topic = [] := by
    rw [hnew]
    rfl
  refine ⟨?_, ?_, ?_⟩
  · rw [hnew]
    exact Topics.occupied_empty
  · intro topic
    rw [hempty]
    exact List.nodup_nil
  · intro topic s hs
    rw [hempty] at hs
    cases hs

theorem Numbered.frame {h' : Host} (hn : h.Numbered) (hocc : h'.current.topics.Occupied) (frame : Frame h h') :
    h'.Numbered := by
  refine ⟨hocc, ?_, ?_⟩
  · intro topic
    rw [frame.all]
    exact hn.apart topic
  · intro topic
    rw [frame.all, frame.nextId]
    exact hn.below topic

theorem Numbered.act (hn : h.Numbered) (a : HostAct) : (h.act a).1.Numbered := by
  have hocc := occupied_act hn.occupied a
  cases moves_act hn.occupied a with
  | opens topic s opened =>
    refine ⟨hocc, ?_, ?_⟩
    · intro u
      rw [opened.all]
      split
      · rw [List.map_append, List.nodup_append]
        refine ⟨hn.apart topic, List.nodup_singleton _, ?_⟩
        intro id hid id' hid'
        obtain ⟨x, hx, rfl⟩ := List.mem_map.mp hid
        obtain rfl := List.mem_singleton.mp hid'
        exact Nat.ne_of_lt (hn.below topic x hx)
      · exact hn.apart u
    · intro u x hx
      rw [opened.nextId]
      rw [opened.all] at hx
      split at hx
      · rcases List.mem_append.mp hx with hx | hx
        · exact Nat.lt_succ_of_lt (hn.below topic x hx)
        · obtain rfl := List.mem_singleton.mp hx
          exact Nat.lt_succ_self _
      · exact Nat.lt_succ_of_lt (hn.below u x hx)
  | shuts handle found shut =>
    refine ⟨hocc, ?_, ?_⟩
    · intro u
      rw [shut.all]
      split
      · exact (hn.apart handle.topic).sublist (List.filter_sublist.map _)
      · exact hn.apart u
    · intro u x hx
      rw [shut.nextId]
      rw [shut.all] at hx
      split at hx
      · exact hn.below handle.topic x (List.mem_filter.mp hx).1
      · exact hn.below u x hx
  | misses handle found frame other => exact hn.frame hocc frame
  | passes a quiet frame => exact hn.frame hocc frame

theorem Numbered.run (hn : h.Numbered) (acts : List HostAct) : (h.run acts).Numbered := by
  induction acts generalizing h with
  | nil => exact hn
  | cons a acts ih => exact ih (hn.act a)

/-! ## Fair turns -/

/-- A call for one subscriber of a topic, in whichever way, sends a message to a member. -/
structure Reaches (h : Host) (topic : String) (m : MemberId) (a : Address) : Prop where
  choice : h.choice topic = some m
  address : h.view.address? m = some a
  unicast : ∀ payload, h.addressed topic (·.unicast · topic payload) =
    (.ok ⟨a, noticeSubject topic, payload⟩, (h.act (.picks topic)).1)
  request : ∀ payload, h.addressed topic (·.request · topic payload) =
    (.ok ⟨a, topic, payload⟩, (h.act (.picks topic)).1)

theorem reaches {m : MemberId} {a : Address} (hchoice : h.choice topic = some m)
    (haddress : h.view.address? m = some a) : h.Reaches topic m a := by
  have hnext : (h.current.nextSubscriber h.view topic).1 = some a := by
    change (h.choice topic).bind h.view.address? = some a
    rw [hchoice]
    exact haddress
  refine ⟨hchoice, haddress, ?_, ?_⟩
  · intro payload
    unfold addressed Service.unicast
    dsimp only
    rw [hnext]
    rfl
  · intro payload
    unfold addressed Service.request
    dsimp only
    rw [hnext]
    rfl

/-- A request is worked on by one of the subscriptions to a topic, the one whose turn it is. -/
structure Answers (h : Host) (topic : String) (r : Wire.Request) (s : Subscription) : Prop where
  served : s ∈ h.current.topics.all topic
  turn : h.answerer topic = some s.id
  reaction : (h.receive r).1 =
    some (.works (s.subscriber.hear r.payload).ms (s.subscriber.hear r.payload).effort)

theorem exists_answers {a : HostAct} {x : Host × Wire.Request} (hask : ask? topic h a = some x)
    (hserved : x.1.current.topics.all topic ≠ []) : ∃ s, x.1.Answers topic x.2 s := by
  obtain ⟨-, hreceive⟩ := ask?_eq_some hask
  obtain ⟨s, hs, hnext⟩ := Topics.exists_next hserved
  refine ⟨s, hs, ?_, ?_⟩
  · rw [answerer, hnext]
    rfl
  · rw [hreceive, ask_current x.1 hnext]

/-- The subscribers of a topic that are called for get their turns evenly, whatever else happens. -/
theorem fair_calls {members : List MemberId} (hmembers : members ≠ []) (hapart : members.Nodup) (acts : List HostAct)
    (hsame : ∀ h' ∈ h.calls topic acts, ∀ m, m ∈ h'.current.subscribers h'.view topic ↔ m ∈ members)
    (hfew : (h.turn topic).count.toNat + (h.calls topic acts).length < 2 ^ 64) :
    Fair members ((h.calls topic acts).map (·.choice topic)) ∧
      ∀ h' ∈ h.calls topic acts, ∃ m ∈ members, ∃ a, h'.Reaches topic m a := by
  have hinj : Function.Injective fun text => (⟨text⟩ : MemberId) :=
    fun a b heq => congrArg Identifier.text heq
  let ms : List MemberId := (TextSet.ofList (members.map (·.text))).items.map .mk
  have hnodup : ms.Nodup := by
    refine List.Nodup.map hinj ((TextSet.ofList _).increasing.imp ?_)
    rintro a b hlt rfl
    exact String.lt_irrefl a hlt
  have hperm : ms.Perm members :=
    (List.perm_ext_iff_of_nodup hnodup hapart).mpr fun m => Service.mem_ids
  have hne : ms ≠ [] := by
    intro hnil
    rw [hnil] at hperm
    exact hmembers hperm.nil_eq.symm
  have hlist : ∀ h' ∈ h.calls topic acts, h'.current.subscribers h'.view topic = ms :=
    fun h' hh' => Service.subscribers_eq (hsame h' hh')
  have hchoices := choices_eq h acts hlist
  have hfair : Fair members ((h.calls topic acts).map (·.choice topic)) := by
    rw [hchoices]
    exact (Balancer.fair_turns hne hnodup hfew).perm hperm
  refine ⟨hfair, ?_⟩
  intro h' hh'
  obtain ⟨m, hm, hchoice⟩ := hfair.drawn _ (List.mem_map_of_mem hh')
  obtain ⟨a, ha⟩ := Service.exists_address ((hsame h' hh' m).mpr hm)
  exact ⟨m, hm, a, reaches hchoice ha⟩

/-- The subscriptions to a topic get the requests to it evenly. -/
theorem fair_asks {ids : List SubscriptionId} (hids : ids ≠ []) (hn : h.Numbered) (acts : List HostAct)
    (hsame : ∀ part, part <+: acts → ((h.run part).current.topics.all topic).map (·.id) = ids)
    (hfew : (h.current.topics.wheel topic).count.toNat + (h.asks topic acts).length < 2 ^ 64) :
    Fair ids ((h.asks topic acts).map (·.1.answerer topic)) := by
  have hapart : ids.Nodup := by
    rw [← hsame [] List.nil_prefix]
    exact hn.apart topic
  rw [answerers_eq hids h acts hsame]
  exact Balancer.fair_turns hids hapart hfew

theorem answers_of_asks {ids : List SubscriptionId} (hids : ids ≠ []) (acts : List HostAct)
    (hsame : ∀ part, part <+: acts → ((h.run part).current.topics.all topic).map (·.id) = ids) :
    ∀ x ∈ h.asks topic acts, ∃ s, x.1.Answers topic x.2 s := by
  induction acts generalizing h with
  | nil =>
    intro x hx
    cases hx
  | cons a acts ih =>
    intro x hx
    rcases List.mem_append.mp hx with hx | hx
    · have hask := Option.mem_toList.mp hx
      obtain ⟨rfl, -⟩ := ask?_eq_some hask
      apply exists_answers hask
      intro hnil
      have hnow := hsame [] List.nil_prefix
      rw [run, List.foldl_nil, hnil] at hnow
      exact hids hnow.symm
    · refine ih ?_ x hx
      intro part hpart
      exact hsame (a :: part) (List.cons_prefix_cons.mpr ⟨rfl, hpart⟩)

/-- Turns are shared evenly. After whatever a host has done with its service, let the calls for one
subscriber of a topic find the same members each time: each of these is chosen as often as its share
comes to, and every call finds an address to send to. And let a topic have the same subscriptions for
a while: the requests that come to the host are spread over them in the same way. -/
theorem turns_are_shared_evenly {h : Host} {key : ServiceKey} {ms : UInt64}
    (hnew : h.current = .ofClock key ms) (before during : List HostAct) (topic : String) :
    (∀ members : List MemberId, members ≠ [] → members.Nodup →
      (∀ h' ∈ (h.run before).calls topic during,
        ∀ m, m ∈ h'.current.subscribers h'.view topic ↔ m ∈ members) →
      (h.calls topic (before ++ during)).length < 2 ^ 64 →
        Fair members (((h.run before).calls topic during).map (·.choice topic)) ∧
        ∀ h' ∈ (h.run before).calls topic during, ∃ m ∈ members, ∃ a, h'.Reaches topic m a) ∧
    (∀ ids : List SubscriptionId, ids ≠ [] →
      (∀ part, part <+: during →
        ((h.run (before ++ part)).current.topics.all topic).map (·.id) = ids) →
      (h.asks topic (before ++ during)).length < 2 ^ 64 →
        Fair ids (((h.run before).asks topic during).map (·.1.answerer topic)) ∧
        ∀ x ∈ (h.run before).asks topic during, ∃ s, x.1.Answers topic x.2 s) := by
  have hcalls : h.calls topic (before ++ during) = h.calls topic before ++ (h.run before).calls topic during :=
    noted_append _ h before during
  have hasks : h.asks topic (before ++ during) = h.asks topic before ++ (h.run before).asks topic during :=
    noted_append _ h before during
  -- A new service has balancers that stand at the start.
  have hturn : (h.turn topic).count.toNat = 0 := by
    rw [turn, hnew]
    rfl
  have hwheel : (h.current.topics.wheel topic).count.toNat = 0 := by
    rw [hnew]
    rfl
  constructor
  · intro members hmembers hapart hsame hfew
    have hcount := count_turn_le h topic before
    rw [hcalls, List.length_append] at hfew
    exact fair_calls hmembers hapart during hsame (by omega)
  · intro ids hids hsame hfew
    have hcount := count_wheel_le h topic before
    rw [hasks, List.length_append] at hfew
    have hstretch (part : List HostAct) (hpart : part <+: during) :
        (((h.run before).run part).current.topics.all topic).map (·.id) = ids := by
      rw [← run_append]
      exact hsame part hpart
    exact ⟨fair_asks hids ((numbered_new h hnew).run before) during hstretch (by omega),
      answers_of_asks hids during hstretch⟩

/-! A member serves a topic twice and knows of another one that serves it too. -/

/-- The other member looks alive and says what it serves. -/
def settingOut : List HostAct :=
  let seen := (lone.roster.protocol.discover ⟨⟨"b"⟩, ⟨"b", 2⟩⟩).2.enrol []
  let said : Announcement := ⟨⟨"b"⟩, 5, .ofList ["t"]⟩
  [.starts 0, .subscribes "t" (echo "x"), .subscribes "t" (echo "y"),
    .follows { lone.roster with protocol := seen },
    .receives ⟨0, default, announcementSubject, Json.Form.bytes said⟩, .picks "t"]

/-- Calls and requests, with a call for another topic between them. -/
def goingOn : List HostAct :=
  [.picks "t", .receives ⟨1, default, "t", [1]⟩, .picks "u", .picks "t", .receives ⟨2, default, "t", [2]⟩,
    .picks "t", .receives ⟨3, default, "t", [3]⟩]

theorem turns_are_shared_evenly_two :
    Fair [⟨""⟩, ⟨"b"⟩] (((lone.run settingOut).calls "t" goingOn).map (·.choice "t")) ∧
      Fair [1, 2] (((lone.run settingOut).asks "t" goingOn).map (·.1.answerer "t")) := by
  have hsubscribers : ∀ h ∈ (lone.run settingOut).calls "t" goingOn,
      h.current.subscribers h.view "t" = [⟨""⟩, ⟨"b"⟩] := by
    decide +kernel
  have hids : ∀ n ≤ goingOn.length,
      ((lone.run (settingOut ++ goingOn.take n)).current.topics.all "t").map (·.id) = [1, 2] := by
    decide +kernel
  have h := turns_are_shared_evenly (h := lone) rfl settingOut goingOn "t"
  constructor
  · refine (h.1 [⟨""⟩, ⟨"b"⟩] (by decide) (by decide) ?_ (by decide +kernel)).1
    intro h' hh' m
    rw [hsubscribers h' hh']
  · refine (h.2 [1, 2] (by decide) ?_ (by decide +kernel)).1
    intro part hpart
    rw [List.prefix_iff_eq_take.mp hpart]
    exact hids part.length hpart.length_le

end Host

end ClusterNet.PubSub
