import ClusterNet.Proofs.HostActs

/-!
# Topics apart

The routes of all topics stand in one table, and so does the route of announcements. A topic
that is named like the subject of notices on another one takes that route over. Where no two
names meet, each topic has its own routes for as long as it has a subscription.
-/

namespace ClusterNet.PubSub

open ClusterNet.Membership Messaging

/-! ## Subjects -/

theorem noticeSubject_inj {t u : String} (h : noticeSubject t = noticeSubject u) : t = u := by
  have hlists := congrArg String.toList h
  unfold noticeSubject at hlists
  rw [String.toList_append, String.toList_append] at hlists
  exact String.toList_inj.mp (List.append_cancel_right hlists)

theorem noticeSubject_ne_self (t : String) : noticeSubject t ≠ t := by
  intro h
  have hlength := congrArg (List.length ∘ String.toList) h
  unfold noticeSubject at hlength
  simp [String.toList_append] at hlength

theorem noticeSubject_ne_announcementSubject (t : String) : noticeSubject t ≠ announcementSubject := by
  intro h
  have hlast := congrArg (List.getLast? ∘ String.toList) h
  have hnotify : ":notify".toList = ":notif".toList ++ ['y'] := by decide
  unfold noticeSubject at hlast
  rw [Function.comp_apply, String.toList_append, hnotify, ← List.append_assoc,
    List.getLast?_append_of_ne_nil _ (List.cons_ne_nil _ _)] at hlast
  revert hlast
  decide

/-- Neither topic is named like the subject of notices on the other one. -/
def Apart (t u : String) : Prop := noticeSubject u ≠ t ∧ u ≠ noticeSubject t

/-- The two subjects of a topic. -/
def IsSubjectOf (subject t : String) : Prop := subject = t ∨ subject = noticeSubject t

theorem Apart.not_isSubjectOf {t u subject : String} (h : Apart t u) (hne : u ≠ t)
    (hs : IsSubjectOf subject t) : ¬ IsSubjectOf subject u := by
  obtain ⟨hnotice, hu⟩ := h
  rintro (rfl | rfl)
  · rcases hs with rfl | rfl
    · exact hne rfl
    · exact hu rfl
  · rcases hs with rfl | heq
    · exact hnotice rfl
    · exact hne (noticeSubject_inj heq)

namespace Routes

variable {r r' : Routes} {service : ServiceKey} {t : String}

theorem get?_addTopic (r : Routes) (service : ServiceKey) (topic subject : String) :
    (r.addTopic service topic).get? subject =
      if subject = noticeSubject topic then some (.notices service topic)
      else if subject = topic then some (.requests service topic) else r.get? subject := by
  rw [addTopic, Table.get?_insert, Table.get?_insert]

theorem get?_removeTopic (r : Routes) (topic subject : String) :
    (r.removeTopic topic).get? subject =
      if subject = noticeSubject topic then none
      else if subject = topic then none else r.get? subject := by
  rw [removeTopic, Table.get?_erase, Table.get?_erase]

theorem get?_addTopic_of_not {topic subject : String} (h : ¬ IsSubjectOf subject topic) :
    (r.addTopic service topic).get? subject = r.get? subject := by
  rw [get?_addTopic, if_neg fun heq => h (.inr heq), if_neg fun heq => h (.inl heq)]

theorem get?_removeTopic_of_not {topic subject : String} (h : ¬ IsSubjectOf subject topic) :
    (r.removeTopic topic).get? subject = r.get? subject := by
  rw [get?_removeTopic, if_neg fun heq => h (.inr heq), if_neg fun heq => h (.inl heq)]

/-- Both subjects of a topic lead to a service. -/
structure Serve (r : Routes) (service : ServiceKey) (t : String) : Prop where
  requests : r.get? t = some (.requests service t)
  notices : r.get? (noticeSubject t) = some (.notices service t)

theorem serve_addTopic (r : Routes) (service : ServiceKey) (t : String) :
    (r.addTopic service t).Serve service t := by
  constructor
  · rw [get?_addTopic, if_neg (Ne.symm (noticeSubject_ne_self t)), if_pos rfl]
  · rw [get?_addTopic, if_pos rfl]

theorem Serve.congr (h : r.Serve service t)
    (hsame : ∀ subject, IsSubjectOf subject t → r'.get? subject = r.get? subject) :
    r'.Serve service t := by
  constructor
  · rw [hsame t (.inl rfl)]
    exact h.requests
  · rw [hsame _ (.inr rfl)]
    exact h.notices

end Routes

/-! ## One topic among others -/

/-- The topic that a call is about. -/
def HostAct.topic? : HostAct → Option String
  | .subscribes topic _ => some topic
  | .closes handle => some handle.topic
  | _ => none

/-- A topic that comes into use is named like no subject that a given topic needs, nor like that of
announcements. -/
def HostAct.Spares (t : String) : HostAct → Prop
  | .subscribes u _ => u ≠ announcementSubject ∧ (u ≠ t → Apart t u)
  | _ => True

namespace Host

variable {h h' : Host} {t : String}

/-- A topic is in nobody's way, and has its routes while it has a subscription. -/
structure Sheltered (h : Host) (t : String) : Prop where
  occupied : h.current.topics.Occupied
  apart : ∀ u, h.current.topics.all u ≠ [] → u ≠ announcementSubject ∧ (u ≠ t → Apart t u)
  routes : h.current.topics.all t ≠ [] → h.routes.Serve h.current.key t
  attentive : h.Attentive

theorem sheltered_of_empty (hempty : h.current.topics = .empty) (hatt : h.Attentive) :
    Sheltered h t := by
  have hall : ∀ u, h.current.topics.all u = [] := by
    intro u
    rw [hempty]
    rfl
  refine ⟨?_, fun u hu => absurd (hall u) hu, fun hu => absurd (hall t) hu, hatt⟩
  rw [hempty]
  exact Topics.occupied_empty

theorem Opened.get?_routes {u subject : String} {s : Subscriber} (a : Opened h h' u s)
    (hnot : ¬ IsSubjectOf subject u) : h'.routes.get? subject = h.routes.get? subject := by
  rw [a.routes]
  split
  · exact Routes.get?_addTopic_of_not hnot
  · rfl

theorem Shut.get?_routes {handle : Handle} {subject : String} (a : Shut h h' handle)
    (hnot : ¬ IsSubjectOf subject handle.topic) : h'.routes.get? subject = h.routes.get? subject := by
  rw [a.routes]
  split
  · exact Routes.get?_removeTopic_of_not hnot
  · rfl

theorem Shut.was_open {handle : Handle} (a : Shut h h' handle) :
    h.current.topics.all handle.topic ≠ [] := by
  obtain ⟨s, hs, -⟩ := a.was
  exact List.ne_nil_of_mem hs

theorem Shut.open_before {handle : Handle} (a : Shut h h' handle) {u : String}
    (hu : h'.current.topics.all u ≠ []) : h.current.topics.all u ≠ [] := by
  rw [a.all] at hu
  split at hu
  · rename_i heq
    rw [heq]
    exact a.was_open
  · exact hu

theorem not_isSubjectOf_announcement {u : String} (hu : u ≠ announcementSubject) :
    ¬ IsSubjectOf announcementSubject u := by
  rintro (heq | heq)
  · exact hu heq.symm
  · exact noticeSubject_ne_announcementSubject u heq.symm

theorem Opened.attentive {u : String} {s : Subscriber} (a : Opened h h' u s)
    (hu : u ≠ announcementSubject) (hatt : h.Attentive) : h'.Attentive := by
  intro hrunning
  rw [a.running] at hrunning
  rw [a.get?_routes (not_isSubjectOf_announcement hu), a.key]
  exact hatt hrunning

theorem Shut.attentive {handle : Handle} (a : Shut h h' handle)
    (hu : handle.topic ≠ announcementSubject) (hatt : h.Attentive) : h'.Attentive := by
  intro hrunning
  rw [a.running] at hrunning
  rw [a.get?_routes (not_isSubjectOf_announcement hu), a.key]
  exact hatt hrunning

theorem Sheltered.opens (hs : Sheltered h t) (hocc : h'.current.topics.Occupied) {u : String}
    {s : Subscriber} (hspares : (HostAct.subscribes u s).Spares t) (a : Opened h h' u s) :
    Sheltered h' t := by
  obtain ⟨hann, hapart⟩ := hspares
  refine ⟨hocc, ?_, ?_, a.attentive hann hs.attentive⟩
  · intro v hv
    by_cases hvu : v = u
    · rw [hvu]
      exact ⟨hann, hapart⟩
    · rw [a.all, if_neg hvu] at hv
      exact hs.apart v hv
  · intro hopen
    rw [a.key]
    by_cases hut : t = u
    · subst hut
      rw [a.routes]
      split
      · exact Routes.serve_addTopic h.routes h.current.key t
      · rename_i hbefore
        exact hs.routes hbefore
    · rw [a.all, if_neg hut] at hopen
      apply (hs.routes hopen).congr
      intro subject hsubject
      exact a.get?_routes ((hapart (Ne.symm hut)).not_isSubjectOf (Ne.symm hut) hsubject)

theorem Sheltered.shuts (hs : Sheltered h t) (hocc : h'.current.topics.Occupied) {handle : Handle}
    (a : Shut h h' handle) : Sheltered h' t := by
  obtain ⟨hann, hapart⟩ := hs.apart handle.topic a.was_open
  refine ⟨hocc, fun v hv => hs.apart v (a.open_before hv), ?_, a.attentive hann hs.attentive⟩
  intro hopen
  have hbefore := hs.routes (a.open_before hopen)
  rw [a.key]
  by_cases hut : t = handle.topic
  · rw [a.routes, ← hut, if_neg hopen]
    exact hbefore
  · apply hbefore.congr
    intro subject hsubject
    exact a.get?_routes ((hapart (Ne.symm hut)).not_isSubjectOf (Ne.symm hut) hsubject)

theorem Sheltered.frame (hs : Sheltered h t) (hocc : h'.current.topics.Occupied) (a : Frame h h') :
    Sheltered h' t := by
  refine ⟨hocc, ?_, ?_, a.attentive hs.attentive⟩
  · intro u hu
    rw [a.all] at hu
    exact hs.apart u hu
  · intro hopen
    rw [a.all] at hopen
    rw [a.key]
    apply (hs.routes hopen).congr
    rintro subject (rfl | rfl)
    · exact a.routes _ (hs.apart _ hopen).1
    · exact a.routes _ (noticeSubject_ne_announcementSubject t)

theorem Sheltered.act (hs : Sheltered h t) {a : HostAct} (hspares : a.Spares t) :
    Sheltered (h.act a).1 t := by
  have hocc := occupied_act hs.occupied a
  cases moves_act hs.occupied a with
  | opens topic s opened => exact hs.opens hocc hspares opened
  | shuts handle found shut => exact hs.shuts hocc shut
  | misses handle found frame other => exact hs.frame hocc frame
  | passes a quiet frame => exact hs.frame hocc frame

theorem Sheltered.run (hs : Sheltered h t) {acts : List HostAct} (hspares : ∀ a ∈ acts, a.Spares t) :
    Sheltered (h.run acts) t := by
  induction acts using List.reverseRecOn with
  | nil => exact hs
  | append_singleton acts a ih =>
    rw [run_concat]
    have hrun := ih fun b hb => hspares b (List.mem_append_left _ hb)
    exact hrun.act (hspares a (List.mem_append_right _ List.mem_cons_self))

/-! ## Messages -/

theorem receive_requests {r : Wire.Request} {service : ServiceKey}
    (hr : h.routes.get? r.subject = some (.requests service t)) :
    h.receive r = (some (h.ask service t r.payload).1, (h.ask service t r.payload).2) := by
  unfold receive
  rw [hr]

theorem receive_notices {r : Wire.Request} {service : ServiceKey}
    (hr : h.routes.get? r.subject = some (.notices service t)) :
    h.receive r = (some .releases, h.spread service t r.payload) := by
  unfold receive
  rw [hr]

/-- A request is answered by one of the subscriptions to its topic, and a notice is heard by all of
them. No other subscription hears of either. -/
structure Serves (h : Host) (t : String) : Prop where
  answers : ∀ r : Wire.Request, r.subject = t → ∃ s ∈ h.current.topics.all t,
    (h.receive r).1 =
      some (.works (s.subscriber.hear r.payload).ms (s.subscriber.hear r.payload).effort) ∧
    (h.receive r).2.heard = s.notes t r.payload ++ h.heard
  spreads : ∀ r : Wire.Request, r.subject = noticeSubject t →
    h.receive r = (some .releases, h.tellAll t r.payload (h.current.topics.all t))

theorem heard_setTopics (h : Host) (service : ServiceKey) (topics : Topics) :
    (h.setTopics service topics).heard = h.heard := by
  unfold setTopics
  split
  · rfl
  · rfl

theorem receive_request (hroutes : h.routes.Serve h.current.key t) {s : Subscription}
    (hs : (h.current.topics.next t).1 = some s) {r : Wire.Request} (hr : r.subject = t) :
    (h.receive r).1 =
      some (.works (s.subscriber.hear r.payload).ms (s.subscriber.hear r.payload).effort) ∧
    (h.receive r).2.heard = s.notes t r.payload ++ h.heard := by
  have hroute : h.routes.get? r.subject = some (.requests h.current.key t) := by
    rw [hr]
    exact hroutes.requests
  rw [receive_requests hroute, ask_current h hs]
  refine ⟨rfl, ?_⟩
  have htell := tell_eq (h.setTopics h.current.key (h.current.topics.next t).2) t r.payload s
  rw [tellAll, List.foldl_cons, List.foldl_nil, htell, heard_setTopics]

theorem receive_notice (hroutes : h.routes.Serve h.current.key t) {r : Wire.Request}
    (hr : r.subject = noticeSubject t) :
    h.receive r = (some .releases, h.tellAll t r.payload (h.current.topics.all t)) := by
  have hroute : h.routes.get? r.subject = some (.notices h.current.key t) := by
    rw [hr]
    exact hroutes.notices
  rw [receive_notices hroute, spread_current]

theorem Sheltered.serves (hs : Sheltered h t) (hopen : h.current.topics.all t ≠ []) : Serves h t := by
  have hroutes := hs.routes hopen
  obtain ⟨s, hmem, hturn⟩ := Topics.exists_next hopen
  constructor
  · intro r hr
    exact ⟨s, hmem, receive_request hroutes hturn hr⟩
  · intro r hr
    exact receive_notice hroutes hr

/-- The same subscriptions hear the same messages on a topic. -/
structure Alike (h h' : Host) (t : String) : Prop where
  all : h'.current.topics.all t = h.current.topics.all t
  reaction : ∀ r : Wire.Request, IsSubjectOf r.subject t → (h'.receive r).1 = (h.receive r).1
  heard : ∀ r : Wire.Request, IsSubjectOf r.subject t → ∃ heard,
    (h'.receive r).2.heard = heard ++ h'.heard ∧ (h.receive r).2.heard = heard ++ h.heard

theorem alike_of_get? (hs : Sheltered h t) (hs' : Sheltered h' t)
    (hget : h'.current.topics.get? t = h.current.topics.get? t)
    (hopen : h.current.topics.all t ≠ []) : Alike h h' t := by
  have hall : h'.current.topics.all t = h.current.topics.all t := by
    rw [Topics.all, hget, ← Topics.all]
  have hopen' : h'.current.topics.all t ≠ [] := by
    rwa [hall]
  have hroutes := hs.routes hopen
  have hroutes' := hs'.routes hopen'
  obtain ⟨s, hmem, hturn⟩ := Topics.exists_next hopen
  have hturn' : (h'.current.topics.next t).1 = some s := by
    rw [← hturn, Topics.next, hget, Topics.next]
    cases h.current.topics.get? t with
    | none => rfl
    | some state => rfl
  refine ⟨hall, ?_, ?_⟩
  · rintro r (hr | hr)
    · rw [(receive_request hroutes hturn hr).1, (receive_request hroutes' hturn' hr).1]
    · rw [receive_notice hroutes hr, receive_notice hroutes' hr]
  · rintro r (hr | hr)
    · exact ⟨_, (receive_request hroutes' hturn' hr).2, (receive_request hroutes hturn hr).2⟩
    · refine ⟨((h.current.topics.all t).flatMap fun s => s.notes t r.payload).reverse, ?_, ?_⟩
      · rw [receive_notice hroutes' hr, tellAll_eq, hall]
      · rw [receive_notice hroutes hr, tellAll_eq]

theorem Sheltered.alike_call (hs : Sheltered h t) {a : HostAct} (hspares : a.Spares t) {u : String}
    (ha : a.topic? = some u) (hne : u ≠ t) (hopen : h.current.topics.all t ≠ []) :
    Alike h (h.act a).1 t := by
  apply alike_of_get? hs (hs.act hspares) ?_ hopen
  cases moves_act hs.occupied a with
  | opens topic s opened =>
    obtain rfl := Option.some.inj ha
    exact opened.other t (Ne.symm hne)
  | shuts handle found shut =>
    obtain rfl := Option.some.inj ha
    exact shut.other t (Ne.symm hne)
  | misses handle found frame other =>
    obtain rfl := Option.some.inj ha
    exact other t (Ne.symm hne)
  | passes a quiet frame =>
    cases a with
    | subscribes topic s => simp [HostAct.isCall] at quiet
    | closes handle => simp [HostAct.isCall] at quiet
    | starts | stops | picks | receives | follows | repeats => simp [HostAct.topic?] at ha

/-- While no topic in use is named like a subject that a topic needs, messages on that topic reach its
own subscriptions and no others, calls on other topics make no difference to it, and a service that
runs hears announcements. -/
theorem topics_stay_apart (hempty : h.current.topics = .empty) (hatt : h.Attentive)
    {acts : List HostAct} (hspares : ∀ a ∈ acts, a.Spares t) :
    (h.run acts).Attentive ∧
    ((h.run acts).current.topics.all t ≠ [] →
      Serves (h.run acts) t ∧
      ∀ (a : HostAct) (u : String), a.topic? = some u → u ≠ t → a.Spares t →
        Alike (h.run acts) ((h.run acts).act a).1 t) := by
  have hs := (sheltered_of_empty hempty hatt).run hspares
  refine ⟨hs.attentive, ?_⟩
  intro hopen
  refine ⟨hs.serves hopen, ?_⟩
  intro a u ha hne ha'
  exact hs.alike_call ha' ha hne hopen

/-- A host on its own. -/
def lone : Host := .ofRoster default (.ofLocal default (.ofNodes [])) 0 0

/-- Answers with what it hears. -/
def echo (label : String) : Subscriber := ⟨label, fun b => ⟨some "", 0, .returned b⟩⟩

/-- Two topics come into use, and one of them goes out of use again. -/
def twoTopics : List HostAct :=
  [.starts 0, .subscribes "a" (echo "x"), .subscribes "b" (echo "y"), .closes ⟨0, "b", 2⟩]

theorem topics_stay_apart_two :
    (lone.run twoTopics).Attentive ∧ Serves (lone.run twoTopics) "a" ∧
      Alike (lone.run twoTopics) ((lone.run twoTopics).act (.subscribes "b" (echo "z"))).1 "a" := by
  have hapart : Apart "a" "b" := ⟨by decide, by decide⟩
  have hb : ∀ label, (HostAct.subscribes "b" (echo label)).Spares "a" :=
    fun label => ⟨by decide, fun _ => hapart⟩
  have hspares : ∀ a ∈ twoTopics, a.Spares "a" := by
    intro a ha
    simp only [twoTopics, List.mem_cons, List.not_mem_nil, or_false] at ha
    rcases ha with rfl | rfl | rfl | rfl
    · trivial
    · exact ⟨by decide, fun hne => absurd rfl hne⟩
    · exact hb "y"
    · trivial
  have hopen : (lone.run twoTopics).current.topics.all "a" ≠ [] := by
    intro hnil
    have hlength := congrArg List.length hnil
    revert hlength
    decide +kernel
  have h := topics_stay_apart (h := lone) (t := "a") rfl (fun hrunning => absurd hrunning (by decide)) hspares
  obtain ⟨hserves, halike⟩ := h.2 hopen
  exact ⟨h.1, hserves, halike _ "b" rfl (by decide) (hb "z")⟩

/-- A topic is named like the subject of notices on another one. From then on its own subscription
hears them, and when it closes, nobody does. -/
theorem a_topic_takes_the_notices_of_another :
    let h := lone.run [.starts 0, .subscribes "a" (echo "x"), .subscribes "a:notify" (echo "y")]
    let h' := h.run [.closes ⟨0, "a:notify", 2⟩]
    let r : Wire.Request := ⟨0, default, noticeSubject "a", []⟩
    (h.current.topics.all "a").map (·.subscriber.label) = ["x"] ∧
      (h.receive r).2.heard = [⟨"a:notify", "y", ""⟩] ∧
    (h'.current.topics.all "a").map (·.subscriber.label) = ["x"] ∧
      (h'.receive r).1 = none ∧ (h'.receive r).2.heard = [] := by
  decide +kernel

/-- A topic is named like the subject of announcements. When it goes out of use, the service hears
no announcements any more. -/
theorem a_topic_takes_the_announcements :
    let h := lone.run
      [.starts 0, .subscribes announcementSubject (echo "x"), .closes ⟨0, announcementSubject, 1⟩]
    h.current.running = true ∧ h.routes.get? announcementSubject = none ∧ ¬ h.Attentive := by
  have hroute : ((lone.run [.starts 0, .subscribes announcementSubject (echo "x"),
      .closes ⟨0, announcementSubject, 1⟩]).routes.get? announcementSubject).isNone := by
    decide +kernel
  have hrunning : (lone.run [.starts 0, .subscribes announcementSubject (echo "x"),
      .closes ⟨0, announcementSubject, 1⟩]).current.running = true := by
    decide +kernel
  have hnone := Option.isNone_iff_eq_none.mp hroute
  refine ⟨hrunning, hnone, ?_⟩
  intro hatt
  have hsome := hatt hrunning
  rw [hnone] at hsome
  cases hsome

end Host

end ClusterNet.PubSub
