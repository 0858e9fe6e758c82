import ClusterNet.Proofs.Concord
import ClusterNet.Proofs.Resting

/-!
# Messages reach the subscriptions that they are for

A broadcast is heard by every subscription to its topic, a unicast by those of one node, and a request
by a single one, which answers it. Nothing else is heard by anyone.
-/

namespace ClusterNet.PubSub

open Messaging

/-- Every subscription to a topic has heard a notice. -/
def Host.noticed (h : Host) (topic : String) (payload : Bytes) : Host :=
  h.tellAll topic payload (h.current.topics.all topic)

/-- What a caller is told that waits for some time. -/
def Subscription.answer (s : Subscription) (topic : String) (payload : Bytes) (ms : Nat) : Outcome :=
  let hearing := s.subscriber.hear payload
  if hearing.ms ≤ ms then outcomeOf topic ⟨0, hearing.effort.reply.1, hearing.effort.reply.2⟩
  else .error (.timeout topic ms)

end ClusterNet.PubSub

namespace ClusterNet.Bench

open Messaging PubSub

namespace Network

variable {n n' n'' : Network Host} {name goal topic : String} {s site : Site Host} {a : Address}
  {payload : Bytes} {now ms : Nat}

/-! ## Notices -/

theorem Becomes.arrives_iff {f : String → Host → Host} {s' : Site Host} (h : Becomes n n' f)
    (hon : s'.online = s.online) : Arrives n' s' a ↔ Arrives n s a := by
  unfold Arrives
  rw [hon, h.down]

theorem Laid.becomes_notice (hn : n.Laid) (now : Nat) (hs : n.sites.get? name = some s) (payload : Bytes)
    (hgoal : n.sites.get? goal = some site)
    (hroutes : site.resident.routes.Serve site.resident.current.key topic) :
    Becomes n (n.send now name ⟨site.resident.address, noticeSubject topic, payload⟩).2 fun _ h =>
      if Arrives n s site.resident.address ∧ h.address = site.resident.address then h.noticed topic payload
      else h := by
  apply (hn.becomes_send now hs ⟨site.resident.address, noticeSubject topic, payload⟩ hgoal rfl).congr
  intro other r hr
  by_cases hboth : Arrives n s site.resident.address ∧ r.resident.address = site.resident.address
  · obtain rfl := hn.apart other r goal site hr hgoal hboth.2
    obtain rfl := Option.some.inj (hgoal.symm.trans hr)
    rw [if_pos hboth, if_pos hboth, Host.receive_notice hroutes rfl]
    rfl
  · rw [if_neg hboth, if_neg hboth]

/-- What a host has to have for a notice to be heard there. -/
def Listens (n : Network Host) (topic : String) (a : Address) : Prop :=
  ∃ goal site, n.sites.get? goal = some site ∧ site.resident.address = a ∧
    site.resident.routes.Serve site.resident.current.key topic

theorem leaves_noticed (h : Host) (topic : String) (payload : Bytes) :
    (h.noticed topic payload).address = h.address ∧ (h.noticed topic payload).routes = h.routes ∧
      (h.noticed topic payload).current = h.current := by
  unfold Host.noticed
  rw [Host.tellAll_eq]
  exact ⟨rfl, rfl, rfl⟩

theorem Listens.congr {f : String → Host → Host} (h : Listens n topic a) (hn : Becomes n n' f)
    (hf : ∀ name r, (f name r).address = r.address ∧ (f name r).routes = r.routes ∧
      (f name r).current = r.current) : Listens n' topic a := by
  obtain ⟨goal, site, hgoal, haddress, hroutes⟩ := h
  obtain ⟨site', hgoal', hres, -⟩ := hn.site goal site hgoal
  obtain ⟨hsame, hroute, hcurrent⟩ := hf goal site.resident
  refine ⟨goal, site', hgoal', ?_, ?_⟩
  · rw [hres, hsame, haddress]
  · rw [hres, hroute, hcurrent]
    exact hroutes

/-- Notices to some addresses, one after the other. -/
def notices (name topic : String) (payload : Bytes) (goals : List Address) (t : Run Host) : Run Host :=
  (goals.map fun a => (⟨a, noticeSubject topic, payload⟩ : Outgoing)).foldl (fun t m => (sendNow name m t).2) t

theorem Laid.becomes_notices {t : Run Host} (ht : t.state.Laid) (hs : t.state.sites.get? name = some s)
    (topic : String) (payload : Bytes) {goals : List Address} (hnodup : goals.Nodup)
    (hgoals : ∀ a ∈ goals, t.state.Listens topic a) :
    Becomes t.state (notices name topic payload goals t).state fun _ h =>
      if Arrives t.state s h.address ∧ h.address ∈ goals then h.noticed topic payload else h := by
  induction goals generalizing t s with
  | nil =>
    apply (becomes_refl t.state).congr
    intro _ _ _
    exact if_neg fun h => List.not_mem_nil h.2
  | cons a goals ih =>
    obtain ⟨hnot, hrest⟩ := List.nodup_cons.mp hnodup
    obtain ⟨goal, site, hgoal, rfl, hroutes⟩ := hgoals a List.mem_cons_self
    let told (h : Host) : Host :=
      if Arrives t.state s site.resident.address ∧ h.address = site.resident.address then
        h.noticed topic payload else h
    have hleaves (h : Host) : (told h).address = h.address ∧ (told h).routes = h.routes ∧
        (told h).current = h.current := by
      unfold told
      split
      · exact leaves_noticed h topic payload
      · exact ⟨rfl, rfl, rfl⟩
    have hone : Becomes t.state
        (sendNow name ⟨site.resident.address, noticeSubject topic, payload⟩ t).2.state fun _ h => told h :=
      ht.becomes_notice t.now hs payload hgoal hroutes
    obtain ⟨s', hs', -, hon, -⟩ := hone.site name s hs
    have hlisten : ∀ b ∈ goals, Listens _ topic b := fun b hb =>
      (hgoals b (List.mem_cons_of_mem _ hb)).congr hone fun _ h => hleaves h
    have hmore := ih (hone.laid ht fun _ h => (hleaves h).1) hs' hrest hlisten
    apply (hone.trans hmore).congr
    intro other r hr
    have harrives : Arrives (sendNow name _ t).2.state s' r.resident.address ↔
        Arrives t.state s r.resident.address := hone.arrives_iff hon
    rw [(hleaves r.resident).1]
    -- Whoever hears the first notice is at none of the other addresses, and hears it just once.
    by_cases haddress : r.resident.address = site.resident.address
    · simp [told, haddress, hnot]
    · simp [told, haddress, harrives]

theorem traffic_send (hn : n.sites.Distinct) (now : Nat) (hs : n.sites.get? name = some s)
    (hon : s.online = true) (p : Outgoing) :
    (n.send now name p).2.traffic.length = n.traffic.length + 1 ∧ (n.send now name p).2.sites.Distinct ∧
      ∃ s', (n.send now name p).2.sites.get? name = some s' ∧ s'.online = true := by
  unfold send
  rcases depart_online hn hs hon p with ⟨f, hdepart⟩ | ⟨goal, site, hgoal, hdepart⟩
  · rw [hdepart]
    exact ⟨rfl, hn, s, hs, hon⟩
  · rw [hdepart]
    have hset := becomes_setSite (n := n.noted s p) hn hgoal
      (taken now site (requestOf s.resident.address p)) rfl (closed_send site.link _ now _)
    obtain ⟨s', hs', -, hon', -⟩ := hset.site name s hs
    exact ⟨rfl, hset.names hn, s', hs', hon'.trans hon⟩

theorem traffic_sends {t : Run Host} (hn : t.state.sites.Distinct) (hs : t.state.sites.get? name = some s)
    (hon : s.online = true) (ms : List Outgoing) :
    (ms.foldl (fun t m => (sendNow name m t).2) t).state.traffic.length =
      t.state.traffic.length + ms.length := by
  induction ms generalizing t s with
  | nil => rfl
  | cons m ms ih =>
    obtain ⟨htraffic, hnames, s', hs', hon'⟩ := traffic_send hn t.now hs hon m
    have hmore := ih (t := (sendNow name m t).2) hnames hs' hon'
    have hone : (sendNow name m t).2.state.traffic.length = t.state.traffic.length + 1 := htraffic
    rw [List.foldl_cons, hmore, hone, List.length_cons]
    omega

/-! ## Requests -/

/-- What each host has heard besides. -/
def Hears (n n' : Network Host) (more : String → List Heard) : Prop :=
  ∀ name, (n'.sites.get? name).map (·.resident.heard) =
    (n.sites.get? name).map (more name ++ ·.resident.heard)

theorem Hears.hushed {more : String → List Heard} (h : Hears n n' more) (h' : Hushed n' n'') :
    Hears n n'' more := fun name => (h' name).trans (h name)

theorem Hushed.hears {more : String → List Heard} (h : Hushed n n') (h' : Hears n' n'' more) :
    Hears n n'' more := by
  intro name
  have hmap := congrArg (Option.map (more name ++ ·)) (h name)
  rw [Option.map_map, Option.map_map] at hmap
  exact (h' name).trans hmap

theorem call_request {t : Run Host} {sub : Subscription} (hn : t.state.Laid) (htidy : t.state.Tidy)
    (hcalls : ∀ j job k, site.link.jobs.get? j = some job → job.sink = .call k → k < t.state.nextCall)
    (hs : t.state.sites.get? name = some s) (hgoal : t.state.sites.get? goal = some site)
    (hroutes : site.resident.routes.Serve site.resident.current.key topic)
    (hturn : (site.resident.current.topics.next topic).1 = some sub)
    (hcalm : Calm name ⟨site.resident.address, topic, payload⟩ ms t) :
    (call name ⟨site.resident.address, topic, payload⟩ ms t).1 =
      (if Arrives t.state s site.resident.address then sub.answer topic payload ms
        else .error (fault s site.resident.address)) ∧
    Hears t.state (call name ⟨site.resident.address, topic, payload⟩ ms t).2.state fun other =>
      if other = goal ∧ Arrives t.state s site.resident.address then sub.notes topic payload else [] := by
  by_cases harrives : Arrives t.state s site.resident.address
  · obtain ⟨hreact, hheard⟩ := Host.receive_request hroutes hturn
      (r := requestOf s.resident.address ⟨site.resident.address, topic, payload⟩) rfl
    obtain ⟨hanswer, hhushed⟩ := call_works hn htidy hcalls hs hgoal rfl harrives hreact hcalm
    rw [if_pos harrives]
    refine ⟨hanswer, Hears.hushed ?_ hhushed⟩
    rw [hn.begin_up hs harrives.1 hgoal rfl harrives.2]
    intro other
    change ((t.state.sites.insert goal _).get? other).map _ = _
    rw [Table.get?_insert]
    dsimp only
    by_cases heq : other = goal
    · rw [if_pos heq, if_pos ⟨heq, harrives⟩, heq, hgoal]
      exact congrArg some hheard
    · rw [if_neg heq, if_neg fun h => heq h.1]
      rfl
  · rw [if_neg harrives]
    have hnobody : (fun other => if other = goal ∧ Arrives t.state s site.resident.address then
        sub.notes topic payload else []) = fun _ => [] :=
      funext fun other => if_neg fun h => harrives h.2
    rw [hnobody]
    unfold fault
    cases hon : s.online with
    | false =>
      rw [call_error (begin_offline hs hon t.now ms)]
      exact ⟨rfl, fun _ => rfl⟩
    | true =>
      have hdown : site.resident.address ∈ t.state.down := by
        by_contra hup
        exact harrives ⟨hon, hup⟩
      rw [call_error (begin_down hs hon hdown t.now ms)]
      exact ⟨rfl, fun _ => rfl⟩

end Network

/-! ## Scripts -/

namespace EventBench

variable {T : Set String} {t : Run} {name topic : String} {s : Site Host} {payload : Bytes} {ms : Nat}

theorem host_eq (hs : t.state.sites.get? name = some s) : host t name = s.resident := by
  unfold host Network.resident?
  rw [hs]
  rfl

theorem broadcast_eq (hs : t.state.sites.get? name = some s) (topic : String) (payload : Bytes) :
    broadcast name topic payload t =
      Network.notices name topic payload (Network.goals s.resident topic) t := by
  unfold broadcast
  rw [host_eq hs]
  rfl

/-- The turn of a topic has gone on at a node. -/
def turned (name topic : String) (other : String) (h : Host) : Host :=
  if other = name then (h.act (.picks topic)).1 else h

/-- A node has looked whose turn it is. -/
def picked (name topic : String) (t : Run) : Run :=
  (at_ t name fun h => ((), h.act (.picks topic))).2

theorem get?_picked (hs : t.state.sites.get? name = some s) (other : String) :
    (picked name topic t).state.sites.get? other =
      (t.state.sites.get? other).map fun x => { x with resident := turned name topic other x.resident } := by
  have hget := Table.get?_modify t.state.sites name other fun x =>
    { x with resident := ((host t name).act (.picks topic)).1 }
  refine hget.trans ?_
  unfold turned
  split
  · rename_i heq
    rw [heq, hs, host_eq hs]
    rfl
  · exact Option.map_id'.symm

theorem becomes_picked (hs : t.state.sites.get? name = some s) (topic : String) :
    Network.Becomes t.state (picked name topic t).state (turned name topic) where
  down := rfl
  names hn := hn.modify name _
  site other x hx := by
    rw [get?_picked hs, hx]
    exact ⟨_, rfl, rfl, rfl, rfl⟩
  back other x' hx' := by
    rw [get?_picked hs] at hx'
    obtain ⟨x, hx, -⟩ := Option.map_eq_some_iff.mp hx'
    exact ⟨x, hx⟩

theorem addressed_eq (hs : t.state.sites.get? name = some s) (subject : String)
    {f : PubSub.Service → View → Option Outgoing × PubSub.Service}
    (hf : f s.resident.current s.resident.view =
      ((s.resident.current.nextSubscriber s.resident.view topic).1.map fun a => ⟨a, subject, payload⟩,
        (s.resident.current.nextSubscriber s.resident.view topic).2)) :
    addressed name topic f t =
      (match (s.resident.current.nextSubscriber s.resident.view topic).1 with
        | some a => .ok ⟨a, subject, payload⟩
        | none => .error (.noSubscribers topic), picked name topic t) := by
  have hhost := host_eq hs
  unfold addressed picked at_ Host.addressed
  rw [hhost]
  dsimp only
  rw [hf]
  unfold Network.act
  refine Prod.ext ?_ rfl
  dsimp only
  cases (s.resident.current.nextSubscriber s.resident.view topic).1 with
  | none => rfl
  | some a => rfl

theorem leaves_turned (name topic other : String) (h : Host) :
    (turned name topic other h).address = h.address ∧ (turned name topic other h).routes = h.routes ∧
      (turned name topic other h).current.key = h.current.key ∧
      (turned name topic other h).current.topics = h.current.topics ∧
      (turned name topic other h).heard = h.heard := by
  unfold turned
  split
  · exact ⟨rfl, rfl, rfl, rfl, rfl⟩
  · exact ⟨rfl, rfl, rfl, rfl, rfl⟩

theorem hushed_picked (hs : t.state.sites.get? name = some s) (topic : String) :
    Network.Hushed t.state (picked name topic t).state := by
  intro other
  rw [get?_picked hs, Option.map_map]
  congr 1
  funext x
  exact (leaves_turned name topic other x.resident).2.2.2.2

theorem site_picked {other : String} {x : Site Host} (hs : t.state.sites.get? name = some s)
    (hx : t.state.sites.get? other = some x) (topic : String) :
    (picked name topic t).state.sites.get? other =
      some { x with resident := turned name topic other x.resident } := by
  rw [get?_picked hs, hx, Option.map_some]

/-- A node has looked whose turn it is, and is about to send to that one. -/
structure Poised (t : Run) (name topic goal : String) (s site s' site' : Site Host) : Prop where
  laid : (picked name topic t).state.Laid
  sender : (picked name topic t).state.sites.get? name = some s'
  goal : (picked name topic t).state.sites.get? goal = some site'
  address : site'.resident.address = site.resident.address
  routes : site'.resident.routes.Serve site'.resident.current.key topic
  topics : site'.resident.current.topics = site.resident.current.topics
  link : site'.link = site.link
  arrives : ∀ a, (picked name topic t).state.Arrives s' a ↔ t.state.Arrives s a
  fault : ∀ a, Network.fault s' a = Network.fault s a

theorem poised {goal : String} {site : Site Host} (hT : Clean T) (ht : t.state.Concord T)
    (hs : t.state.sites.get? name = some s) (hserves : t.state.Serves topic goal site) :
    ∃ s' site', Poised t name topic goal s site s' site' := by
  have hpicked := becomes_picked hs topic
  obtain ⟨haddress, hroutes, hkey, htopics, -⟩ := leaves_turned name topic goal site.resident
  refine ⟨_, _, hpicked.laid ht.laid fun other h => (leaves_turned name topic other h).1,
    site_picked hs hs topic, site_picked hs hserves.site topic, haddress, ?_, htopics, rfl,
    fun a => hpicked.arrives_iff rfl, fun _ => rfl⟩
  dsimp only
  rw [hroutes, hkey]
  exact ht.routes hT hserves

theorem tidy_picked (hT : Clean T) (ht : t.state.Concord T) (hs : t.state.sites.get? name = some s)
    (topic : String) : (picked name topic t).state.Tidy where
  names := (becomes_picked hs topic).names ht.laid.names
  letters := by
    change ∀ l ∈ t.state.outbox ++ [], _
    rw [List.append_nil]
    exact ht.letters
  discreet other x' hx' := by
    rw [get?_picked hs] at hx'
    obtain ⟨x, hx, rfl⟩ := Option.map_eq_some_iff.mp hx'
    exact Host.discreet_of_get? ((ht.grown other x hx).kept hT).2.2
      (by rw [(leaves_turned name topic other x.resident).2.1])

/-! ## Publishing -/

theorem unicast_eq (hs : t.state.sites.get? name = some s) (topic : String) (payload : Bytes) :
    unicast name topic payload t =
      match (s.resident.current.nextSubscriber s.resident.view topic).1 with
      | some a => ((Network.sendNow name ⟨a, noticeSubject topic, payload⟩ (picked name topic t)).1.mapError .messaging,
          (Network.sendNow name ⟨a, noticeSubject topic, payload⟩ (picked name topic t)).2)
      | none => (.error (.noSubscribers topic), picked name topic t) := by
  have haddressed : addressed name topic (·.unicast · topic payload) t =
      (match (s.resident.current.nextSubscriber s.resident.view topic).1 with
        | some a => .ok ⟨a, noticeSubject topic, payload⟩
        | none => .error (.noSubscribers topic), picked name topic t) := addressed_eq hs (noticeSubject topic) rfl
  unfold unicast
  rw [haddressed]
  cases (s.resident.current.nextSubscriber s.resident.view topic).1 with
  | none => rfl
  | some a => rfl

theorem addressed_request (hs : t.state.sites.get? name = some s) (topic : String) (payload : Bytes) :
    addressed name topic (·.request · topic payload) t =
      (match (s.resident.current.nextSubscriber s.resident.view topic).1 with
        | some a => .ok ⟨a, topic, payload⟩
        | none => .error (.noSubscribers topic), picked name topic t) := addressed_eq hs topic rfl

theorem send_eq (hs : t.state.sites.get? name = some s) (topic : String) (payload : Bytes) (ms : Nat) :
    send name topic payload ms t =
      match (s.resident.current.nextSubscriber s.resident.view topic).1 with
      | some a => ((Network.call name ⟨a, topic, payload⟩ ms (picked name topic t)).1.mapError .messaging,
          (Network.call name ⟨a, topic, payload⟩ ms (picked name topic t)).2)
      | none => (.error (.noSubscribers topic), picked name topic t) := by
  unfold send
  rw [addressed_request hs]
  cases (s.resident.current.nextSubscriber s.resident.view topic).1 with
  | none => rfl
  | some a => rfl

/-- While a request to a topic is awaited, the network comes to rest at every moment. -/
def Calm (name topic : String) (payload : Bytes) (ms : Nat) (t : Run) : Prop :=
  ∀ m t', addressed name topic (·.request · topic payload) t = (.ok m, t') → Network.Calm name m ms t'

theorem unicast_served (hT : Clean T) (ht : t.state.Concord T) (hs : t.state.sites.get? name = some s)
    (hsome : ¬ t.state.Nobody topic) (payload : Bytes) :
    ∃ goal site, t.state.Serves topic goal site ∧
      (unicast name topic payload t).1 = (if t.state.Arrives s site.resident.address then .ok ()
        else .error (.messaging (Network.fault s site.resident.address))) ∧
      Network.Becomes t.state (unicast name topic payload t).2.state fun other h =>
        if other = goal ∧ t.state.Arrives s site.resident.address then
          (turned name topic other h).noticed topic payload
        else turned name topic other h := by
  obtain ⟨goal, site, hserves, hnext⟩ := ht.exists_next hT hs hsome
  obtain ⟨s', site', h⟩ := poised hT ht hs hserves
  have hfst := h.laid.fst_send t.now h.sender ⟨site.resident.address, noticeSubject topic, payload⟩ h.goal h.address
  have hsend := h.laid.becomes_notice t.now h.sender payload h.goal h.routes
  rw [h.address] at hsend
  rw [unicast_eq hs, hnext]
  refine ⟨goal, site, hserves, ?_, ((becomes_picked hs topic).trans hsend).congr ?_⟩
  · change (Network.send _ t.now name _).1.mapError _ = _
    rw [hfst, h.fault]
    by_cases harrives : t.state.Arrives s site.resident.address
    · rw [if_pos harrives, if_pos ((h.arrives _).mpr harrives)]
      rfl
    · rw [if_neg harrives, if_neg fun h' => harrives ((h.arrives _).mp h')]
      rfl
  · intro other r hr
    have hwhere : (turned name topic other r.resident).address = site.resident.address ↔ other = goal := by
      rw [(leaves_turned name topic other r.resident).1]
      constructor
      · intro heq
        exact ht.laid.apart other r goal site hr hserves.site heq
      · rintro rfl
        obtain rfl := Option.some.inj (hr.symm.trans hserves.site)
        rfl
    simp only [h.arrives, hwhere, and_comm]

theorem send_served (hT : Clean T) (ht : t.state.Concord T) (hs : t.state.sites.get? name = some s)
    (hsome : ¬ t.state.Nobody topic)
    (hcalm : Calm name topic payload ms t) :
    ∃ goal site sub, t.state.Serves topic goal site ∧ sub ∈ site.resident.current.topics.all topic ∧
      (send name topic payload ms t).1 = (if t.state.Arrives s site.resident.address then
          (sub.answer topic payload ms).mapError .messaging
        else .error (.messaging (Network.fault s site.resident.address))) ∧
      Network.Hears t.state (send name topic payload ms t).2.state fun other =>
        if other = goal ∧ t.state.Arrives s site.resident.address then sub.notes topic payload else [] := by
  obtain ⟨goal, site, hserves, hnext⟩ := ht.exists_next hT hs hsome
  obtain ⟨s', site', h⟩ := poised hT ht hs hserves
  obtain ⟨sub, hsub, hturn⟩ := Topics.exists_next hserves.open_
  rw [← h.topics] at hturn
  have hcalls : ∀ j job k, site'.link.jobs.get? j = some job → job.sink = .call k → k < t.state.nextCall := by
    intro j job k hjob hsink
    rw [h.link] at hjob
    exact ht.calls goal site j job k hserves.site hjob hsink
  have haddressed := addressed_request hs topic payload
  rw [hnext] at haddressed
  have hcalm' := hcalm _ _ haddressed
  rw [← h.address] at hcalm'
  obtain ⟨hanswer, hheard⟩ :=
    Network.call_request h.laid (tidy_picked hT ht hs topic) hcalls h.sender h.goal h.routes hturn hcalm'
  rw [h.address] at hanswer hheard
  rw [send_eq hs, hnext]
  refine ⟨goal, site, sub, hserves, hsub, ?_, (hushed_picked hs topic).hears ?_⟩
  · dsimp only
    rw [hanswer, h.fault]
    by_cases harrives : t.state.Arrives s site.resident.address
    · rw [if_pos harrives, if_pos ((h.arrives _).mpr harrives)]
    · rw [if_neg harrives, if_neg fun h' => harrives ((h.arrives _).mp h')]
      rfl
  · simpa only [h.arrives] using hheard

theorem unicast_nobody (hT : Clean T) (ht : t.state.Concord T) (hs : t.state.sites.get? name = some s)
    (payload : Bytes) :
    (unicast name topic payload t).1 = .error (.noSubscribers topic) ↔ t.state.Nobody topic := by
  constructor
  · intro heq
    by_contra hsome
    obtain ⟨goal, site, -, hfst, -⟩ := unicast_served hT ht hs hsome payload
    rw [heq] at hfst
    split at hfst
    · cases hfst
    · cases hfst
  · intro hnobody
    rw [unicast_eq hs, ht.next_nobody hT hs hnobody]

theorem send_nobody (hT : Clean T) (ht : t.state.Concord T) (hs : t.state.sites.get? name = some s)
    (hcalm : Calm name topic payload ms t) :
    (send name topic payload ms t).1 = .error (.noSubscribers topic) ↔ t.state.Nobody topic := by
  constructor
  · intro heq
    by_contra hsome
    obtain ⟨goal, site, sub, -, -, hfst, -⟩ := send_served hT ht hs hsome hcalm
    rw [heq] at hfst
    split at hfst
    · cases hanswer : sub.answer topic payload ms with
      | ok reply => rw [hanswer] at hfst; cases hfst
      | error f => rw [hanswer] at hfst; cases hfst
    · cases hfst
  · intro hnobody
    rw [send_eq hs, ht.next_nobody hT hs hnobody]

theorem broadcast_becomes (hT : Clean T) (ht : t.state.Concord T) (hs : t.state.sites.get? name = some s)
    (topic : String) (payload : Bytes) :
    Network.Becomes t.state (broadcast name topic payload t).state fun _ h =>
      if t.state.Arrives s h.address then h.noticed topic payload else h := by
  have hlistens : ∀ a ∈ Network.goals s.resident topic, t.state.Listens topic a := by
    intro a ha
    obtain ⟨goal, site, hserves, haddress⟩ := (ht.mem_goals hT hs).mp ha
    exact ⟨goal, site, hserves.site, haddress, ht.routes hT hserves⟩
  rw [broadcast_eq hs]
  apply (ht.laid.becomes_notices hs topic payload (ht.nodup_goals hT hs topic) hlistens).congr
  intro other r hr
  by_cases hopen : r.resident.current.topics.all topic = []
  · have hsame : r.resident.noticed topic payload = r.resident := by
      unfold Host.noticed
      rw [hopen]
      rfl
    simp only [hsame, ite_self]
  · have hmem : r.resident.address ∈ Network.goals s.resident topic :=
      (ht.mem_goals hT hs).mpr ⟨other, r, ⟨hr, hopen⟩, rfl⟩
    simp only [hmem, and_true]

theorem broadcast_nobody (hT : Clean T) (ht : t.state.Concord T) (hs : t.state.sites.get? name = some s)
    (hon : s.online = true) (payload : Bytes) :
    broadcast name topic payload t = t ↔ t.state.Nobody topic := by
  rw [broadcast_eq hs, ← ht.goals_eq_nil hT hs]
  constructor
  · intro heq
    -- A message that nobody hears can still be seen in the traffic.
    have htraffic := Network.traffic_sends ht.laid.names hs hon
      ((Network.goals s.resident topic).map fun a => ⟨a, noticeSubject topic, payload⟩)
    have hsame := congrArg (·.state.traffic.length) heq
    unfold Network.notices at hsame
    rw [htraffic, List.length_map] at hsame
    exact List.eq_nil_of_length_eq_zero (by omega)
  · intro hnil
    rw [hnil]
    rfl

/-! ## Rest -/

theorem orderly_picked (hT : Clean T) (ht : t.state.Concord T) (hs : t.state.sites.get? name = some s)
    (hn : t.state.Orderly t.now) (topic : String) : (picked name topic t).state.Orderly t.now := by
  refine ⟨tidy_picked hT ht hs topic, ?_, ?_⟩
  · intro other x' hx'
    rw [get?_picked hs] at hx'
    obtain ⟨x, hx, rfl⟩ := Option.map_eq_some_iff.mp hx'
    exact hn.links other x hx
  · intro other x' hx'
    rw [get?_picked hs] at hx'
    obtain ⟨x, hx, rfl⟩ := Option.map_eq_some_iff.mp hx'
    have hbefore := hn.punctual other x hx
    dsimp only
    unfold turned
    split
    · exact ⟨hbefore.waits, hbefore.due⟩
    · exact hbefore

theorem load_picked (ht : t.state.Concord T) (hs : t.state.sites.get? name = some s) (topic : String) :
    (picked name topic t).state.load = t.state.load := by
  have hsites : (picked name topic t).state.sites =
      t.state.sites.insert name { s with resident := ((host t name).act (.picks topic)).1 } :=
    Table.modify_eq_insert ht.laid.names hs fun x => { x with resident := ((host t name).act (.picks topic)).1 }
  have htotal := Network.load_setSite hs { s with resident := ((host t name).act (.picks topic)).1 }
  have hfare : Network.fare ((host t name).act (.picks topic)).1 = Network.fare s.resident := by
    rw [host_eq hs]
    rfl
  have hset : (picked name topic t).state.load =
      (t.state.setSite name { s with resident := ((host t name).act (.picks topic)).1 }).load :=
    congrArg (Table.total _) hsites
  dsimp only at htotal
  omega

/-- A network that is in order is calm, as long as there is not too much to do. -/
theorem calm_of_orderly (hT : Clean T) (ht : t.state.Concord T) (hs : t.state.sites.get? name = some s)
    (hn : t.state.Orderly t.now) (hload : t.state.outbox.length + t.state.load + 2 ≤ Machine.patience)
    (topic : String) (payload : Bytes) (ms : Nat) : Calm name topic payload ms t := by
  intro m t' haddressed
  rw [addressed_request hs] at haddressed
  by_cases hnobody : t.state.Nobody topic
  · rw [ht.next_nobody hT hs hnobody] at haddressed
    cases haddressed
  · obtain ⟨goal, site, hserves, hnext⟩ := ht.exists_next hT hs hnobody
    obtain ⟨s', site', h⟩ := poised hT ht hs hserves
    rw [hnext] at haddressed
    cases haddressed
    obtain ⟨sub, -, hturn⟩ := Topics.exists_next hserves.open_
    rw [← h.topics] at hturn
    have hreact := (Host.receive_request h.routes hturn
      (r := Network.requestOf s'.resident.address ⟨site.resident.address, topic, payload⟩) rfl).1
    have hsame := load_picked ht hs topic
    refine Network.Orderly.calm (orderly_picked hT ht hs hn topic) h.laid h.sender h.goal h.address hreact ?_
    change (t.state.outbox ++ []).length + _ + 2 ≤ _
    rw [List.append_nil, hsame]
    exact hload

/-! ## Delivery -/

/-- What it comes to when a node publishes on a topic. -/
structure Delivers (t : Run) (name topic : String) (payload : Bytes) (s : Site Host) : Prop where
  /-- A broadcast is heard by every subscription on every node that can be reached, and by no other. -/
  broadcast : Network.Becomes t.state (broadcast name topic payload t).state fun _ h =>
    if t.state.Arrives s h.address then h.noticed topic payload else h
  broadcast_nobody : s.online = true → (EventBench.broadcast name topic payload t = t ↔ t.state.Nobody topic)
  /-- A unicast is heard by every subscription on one node, and by no other. -/
  unicast : ¬ t.state.Nobody topic → ∃ goal site, t.state.Serves topic goal site ∧
    (unicast name topic payload t).1 = (if t.state.Arrives s site.resident.address then .ok ()
      else .error (.messaging (Network.fault s site.resident.address))) ∧
    Network.Becomes t.state (EventBench.unicast name topic payload t).2.state fun other h =>
      if other = goal ∧ t.state.Arrives s site.resident.address then
        (turned name topic other h).noticed topic payload
      else turned name topic other h
  unicast_nobody : (EventBench.unicast name topic payload t).1 = .error (.noSubscribers topic) ↔
    t.state.Nobody topic
  /-- A request is heard by one subscription, and its reply is what the caller gets. -/
  send : ∀ ms, Calm name topic payload ms t → ¬ t.state.Nobody topic →
    ∃ goal site sub, t.state.Serves topic goal site ∧ sub ∈ site.resident.current.topics.all topic ∧
      (send name topic payload ms t).1 = (if t.state.Arrives s site.resident.address then
          (sub.answer topic payload ms).mapError .messaging
        else .error (.messaging (Network.fault s site.resident.address))) ∧
      Network.Hears t.state (EventBench.send name topic payload ms t).2.state fun other =>
        if other = goal ∧ t.state.Arrives s site.resident.address then sub.notes topic payload else []
  send_nobody : ∀ ms, Calm name topic payload ms t →
    ((EventBench.send name topic payload ms t).1 = .error (.noSubscribers topic) ↔ t.state.Nobody topic)

/-- Where the nodes know of each other what there is to know, and no topic that ever came into use is
named like a subject of another one, messages reach the subscriptions that they are for. -/
theorem published_messages_arrive (hT : Clean T) (ht : t.state.Concord T) (hs : t.state.sites.get? name = some s)
    (topic : String) (payload : Bytes) : Delivers t name topic payload s where
  broadcast := broadcast_becomes hT ht hs topic payload
  broadcast_nobody hon := broadcast_nobody hT ht hs hon payload
  unicast hsome := unicast_served hT ht hs hsome payload
  unicast_nobody := unicast_nobody hT ht hs payload
  send _ hcalm hsome := send_served hT ht hs hsome hcalm
  send_nobody _ hcalm := send_nobody hT ht hs hcalm

/-! Two nodes with a subscription each to one topic, and each has heard of the other one's. -/

def left : Address := ⟨"left", 1⟩

def right : Address := ⟨"right", 1⟩

/-- A node that knows where another one is, and has subscribed to a topic. -/
def partner (name peer : String) (home away : Address) : Host :=
  .ofRoster home (Membership.Roster.ofLocal (Member.bare ⟨name⟩ home) (.ofNodes [⟨⟨peer⟩, away⟩])).start.2 0 1000

def acquainted (peer : String) : List HostAct :=
  [.starts 0, .subscribes "t" (Host.echo "x"),
    .receives ⟨0, default, announcementSubject, Json.Form.bytes (⟨⟨peer⟩, 1, .ofList ["t"]⟩ : Announcement)⟩]

def leftHost : Host := (partner "a" "b" left right).run (acquainted "b")

def rightHost : Host := (partner "b" "a" right left).run (acquainted "a")

def duo : Run := ⟨0, .ofResidents [("a", leftHost), ("b", rightHost)]⟩

theorem grown_partner (name peer : String) (home away : Address) :
    ((partner name peer home away).run (acquainted peer)).Grown {"t"} := by
  refine .mk _ _ ⟨rfl, fun t _ subject _ => rfl⟩ ?_ ?_ rfl
  · intro route hroute
    change none = some route at hroute
    cases hroute
  · intro a ha
    simp only [acquainted, List.mem_cons, List.not_mem_nil, or_false] at ha
    rcases ha with rfl | rfl | rfl
    · trivial
    · exact Set.mem_singleton "t"
    · trivial

/-- What one of two nodes knows of the other one. -/
structure Knows (h peer : Host) : Prop where
  ids : peer.view.localId ≠ h.view.localId
  addresses : peer.address ≠ h.address
  listed : (h.view.member? peer.view.localId).map (fun m => (m.active, m.address)) = some (true, peer.address)
  known : h.current.known peer.view.localId = peer.current.topics.names
  records : h.current.records.keys = [peer.view.localId]

theorem knows_right : Knows leftHost rightHost := by
  constructor
  all_goals decide +kernel

theorem knows_left : Knows rightHost leftHost := by
  constructor
  all_goals decide +kernel

theorem duo_entries : duo.state.sites.entries =
    [("a", ⟨leftHost, true, .start⟩), ("b", ⟨rightHost, true, .start⟩)] := rfl

theorem duo_sites {name : String} {s : Site Host} (hs : duo.state.sites.get? name = some s) :
    (name = "a" ∧ s = ⟨leftHost, true, .start⟩) ∨ (name = "b" ∧ s = ⟨rightHost, true, .start⟩) := by
  have hmem := Table.mem_of_lookup hs
  rw [duo_entries] at hmem
  simp only [List.mem_cons, List.not_mem_nil, or_false, Prod.mk.injEq] at hmem
  exact hmem

theorem duo_peer {name : String} {s : Site Host} (hs : duo.state.sites.get? name = some s) :
    ∃ other s', other ≠ name ∧ duo.state.sites.get? other = some s' ∧ Knows s.resident s'.resident ∧
      ∀ third s'', duo.state.sites.get? third = some s'' → third = name ∨ (third = other ∧ s'' = s') := by
  rcases duo_sites hs with ⟨rfl, rfl⟩ | ⟨rfl, rfl⟩
  · refine ⟨"b", _, by decide, rfl, knows_right, ?_⟩
    intro third s'' hs''
    exact (duo_sites hs'').imp And.left id
  · refine ⟨"a", _, by decide, rfl, knows_left, ?_⟩
    intro third s'' hs''
    exact (duo_sites hs'').symm.imp And.left id

theorem laid_duo : duo.state.Laid := by
  refine ⟨?_, ?_, ?_⟩
  · change (duo.state.sites.entries.map (·.1)).Nodup
    rw [duo_entries]
    decide
  · intro name s other s' hs hs' heq
    obtain ⟨peer, s'', -, -, hknows, honly⟩ := duo_peer hs
    rcases honly other s' hs' with hsame | ⟨rfl, rfl⟩
    · exact hsame.symm
    · exact absurd heq.symm hknows.addresses
  · intro name s hs
    rcases duo_sites hs with ⟨rfl, rfl⟩ | ⟨rfl, rfl⟩
    · rfl
    · rfl

theorem concord_duo : duo.state.Concord {"t"} where
  laid := laid_duo
  letters _ hl := absurd hl List.not_mem_nil
  calls name s j job k hs hjob := by
    rcases duo_sites hs with ⟨rfl, rfl⟩ | ⟨rfl, rfl⟩
    · cases hjob
    · cases hjob
  grown name s hs := by
    rcases duo_sites hs with ⟨rfl, rfl⟩ | ⟨rfl, rfl⟩
    · exact grown_partner "a" "b" left right
    · exact grown_partner "b" "a" right left
  named name s other s' hs hs' heq := by
    obtain ⟨peer, s'', -, -, hknows, honly⟩ := duo_peer hs
    rcases honly other s' hs' with hsame | ⟨rfl, rfl⟩
    · exact hsame
    · exact absurd heq hknows.ids
  listed name s other s' hs hs' hne := by
    obtain ⟨peer, s'', -, -, hknows, honly⟩ := duo_peer hs
    rcases honly other s' hs' with hsame | ⟨rfl, rfl⟩
    · exact absurd hsame hne
    · obtain ⟨m, hm, heq⟩ := Option.map_eq_some_iff.mp hknows.listed
      exact ⟨m, hm, congrArg Prod.fst heq, congrArg Prod.snd heq⟩
  known name s other s' hs hs' hne := by
    obtain ⟨peer, s'', -, -, hknows, honly⟩ := duo_peer hs
    rcases honly other s' hs' with hsame | ⟨rfl, rfl⟩
    · exact absurd hsame hne
    · exact hknows.known
  strangers name s id r hs hr _ := by
    obtain ⟨peer, s', hne, hs', hknows, -⟩ := duo_peer hs
    refine ⟨peer, s', hne, hs', ?_⟩
    have hmem : id ∈ s.resident.current.records.keys := by
      rw [← Table.contains_iff_mem_keys, Table.contains, hr]
      rfl
    rw [hknows.records] at hmem
    exact (List.mem_singleton.mp hmem).symm
  distinct name s hs := by
    obtain ⟨peer, s', -, -, hknows, -⟩ := duo_peer hs
    unfold Table.Distinct
    rw [hknows.records]
    exact List.nodup_singleton _

theorem clean_t : Clean {"t"} := by
  constructor
  · rintro t rfl u rfl
    exact noticeSubject_ne_self "t"
  · intro h
    have heq : announcementSubject = "t" := h
    exact absurd heq (by decide)

theorem orderly_duo : duo.state.Orderly duo.now := by
  refine ⟨⟨laid_duo.names, concord_duo.letters, ?_⟩, ?_, ?_⟩
  · intro name s hs
    exact ((concord_duo.grown name s hs).kept clean_t).2.2
  · intro name s hs
    rcases duo_sites hs with ⟨rfl, rfl⟩ | ⟨rfl, rfl⟩
    · exact ⟨List.nodup_nil, List.nodup_nil⟩
    · exact ⟨List.nodup_nil, List.nodup_nil⟩
  · have hpunctual {h : Host} (hperiod : h.period = 1000) (hdue : h.due = some 1000) : Network.Punctual 0 h := by
      refine ⟨by omega, ?_⟩
      intro due heq
      rw [hdue] at heq
      cases heq
      omega
    intro name s hs
    rcases duo_sites hs with ⟨rfl, rfl⟩ | ⟨rfl, rfl⟩
    · exact hpunctual (by decide +kernel) (by decide +kernel)
    · exact hpunctual (by decide +kernel) (by decide +kernel)

theorem published_messages_arrive_duo :
    Delivers duo "a" "t" [112] ⟨leftHost, true, .start⟩ ∧ Calm "a" "t" [112] 10 duo ∧
      ¬ duo.state.Nobody "t" := by
  have hs : duo.state.sites.get? "a" = some ⟨leftHost, true, .start⟩ := rfl
  refine ⟨published_messages_arrive clean_t concord_duo hs "t" [112], ?_, ?_⟩
  · exact calm_of_orderly clean_t concord_duo hs orderly_duo (by decide +kernel) "t" [112] 10
  · intro hnobody
    have hlength := congrArg List.length (hnobody "a" _ hs)
    revert hlength
    decide +kernel

/-- A topic that was named like the subject of notices on another one has come and gone. The other one
still has its subscription, but nobody hears a broadcast on it any more. -/
theorem a_notice_finds_no_route :
    let h := Host.lone.run [.starts 0, .subscribes "t" (Host.echo "x"), .subscribes "t:notify" (Host.echo "y"),
      .closes ⟨0, "t:notify", 2⟩]
    let t : Run := ⟨0, .ofResidents [("a", h)]⟩
    h.current.running = true ∧ h.current.topics.keys = ["t"] ∧
      (h.current.topics.all "t").map (·.subscriber.label) = ["x"] ∧
      ((broadcast "a" "t" [112] t).state.sites.get? "a").map (·.resident.heard) = some [] := by
  decide +kernel

end EventBench

end ClusterNet.Bench
