import ClusterNet.Messaging.Service
import ClusterNet.Proofs.LocalCalls
import ClusterNet.Proofs.Tending

/-!
# Calls that are under way when their service stops

A messaging service with handlers and with clients that come up while it runs. Whatever callers, peers
and handlers do, a stop closes each client, and then no call to another node waits for a reply any more.
A stop reaches neither a request that the stream does not take nor a call of the node to itself, so these
may go on waiting.
-/

namespace ClusterNet

theorem Table.get?_mapValues {K V W : Type} [DecidableEq K] (t : Table K V) (f : V → W) (k : K) :
    (⟨t.entries.map fun (k, v) => (k, f v)⟩ : Table K W).get? k = (t.get? k).map f := by
  obtain ⟨es⟩ := t
  simp only [get?]
  induction es with
  | nil => rfl
  | cons e es ih =>
    simp only [List.map_cons, lookup]
    split
    · rfl
    · exact ih

namespace Messaging

open Wire

/-! ## Calls within a node -/

namespace LocalLink

variable {l l' : LocalLink}

/-- No call within a node has a request to write. -/
def Unsent (l : LocalLink) : Prop := ∀ ⦃k a⦄, l.calls.get? k = some a → ∀ t, a.progress ≠ .sending t

theorem Unsent.change (h : l.Unsent) (k : CallKey) {f : Call → Call}
    (hf : ∀ a : Call, (∀ t, a.progress ≠ .sending t) → ∀ t, (f a).progress ≠ .sending t) : (l.change k f).Unsent := by
  intro k' b hb
  rw [get?_change] at hb
  split at hb
  · obtain ⟨a, ha, rfl⟩ := Option.map_eq_some_iff.mp hb
    exact hf a (h ha)
  · exact h hb

theorem Unsent.fill (h : l.Unsent) (k : CallKey) (f : Call → Outcome) : (l.change k fun c => c.fill (f c)).Unsent :=
  h.change k fun a ha t => by rw [Call.progress_fill]; exact ha t

theorem Unsent.reply (h : l.Unsent) (r : Request) (sink : Sink) (used : Bool) (x : Status × Bytes) :
    (l.reply r sink used x).2.Unsent := by
  unfold LocalLink.reply
  split
  · exact h
  · split
    · exact h
    · split
      · exact h.fill _ _
      · exact h

theorem Unsent.letGo (h : l.Unsent) (sink : Sink) : (l.letGo sink).Unsent := by
  unfold LocalLink.letGo
  split
  · exact h.change _ fun a ha t => by rw [Call.progress_lose]; exact ha t
  · exact h

theorem Unsent.dispatch (h : l.Unsent) (handlers : Handlers) (now : Nat) (r : Request) (sink : Sink) :
    (l.dispatch handlers now r sink).Unsent := by
  unfold LocalLink.dispatch
  split
  · exact h.reply _ _ _ _
  · dsimp only
    split
    · exact h
    · exact h
    · exact h
    · exact Unsent.letGo (l := l.record _) h sink
    · split
      · exact h.change _ fun _ _ _ => by simp
      · exact h

theorem Unsent.begin (h : l.Unsent) (handlers : Handlers) (now : Nat) (k : CallKey) (r : Request) (n : Nat) :
    (l.begin handlers now k r n).Unsent := by
  have hcall : ∀ p : Progress, (∀ t, p ≠ .sending t) →
      Unsent { l with calls := l.calls.insert k ⟨r, n, .empty, p⟩ } := by
    intro p hp k' a ha
    rw [Table.get?_insert] at ha
    split at ha
    · obtain rfl := Option.some.inj ha
      exact hp
    · exact h ha
  unfold LocalLink.begin
  split
  · exact hcall _ (by simp)
  · exact (hcall _ (by simp)).dispatch _ _ _ _

theorem Unsent.work (h : l.Unsent) {j : JobKey} {now : Nat} (hwork : l.work? j now = some l') : l'.Unsent := by
  unfold work? at hwork
  split at hwork
  · cases hwork
  · split at hwork
    · split at hwork
      · obtain rfl := Option.some.inj hwork
        exact h.reply _ _ _ _
      · cases hwork
    · obtain rfl := Option.some.inj hwork
      exact h.letGo _
    · obtain rfl := Option.some.inj hwork
      exact h.reply _ _ _ _
    · cases hwork

theorem Unsent.proceed (h : l.Unsent) {k : CallKey} {now : Nat} (hproceed : l.proceed? k now = some l') :
    l'.Unsent := by
  obtain ⟨c, o, -, -, rfl⟩ := proceed_eq hproceed
  exact h.change k fun _ _ _ => by simp

theorem Unsent.abandon (h : l.Unsent) (k : CallKey) : (l.abandon k).Unsent :=
  h.change k fun a ha t => by
    split
    · simp
    · exact ha t

theorem Unsent.send (h : l.Unsent) (handlers : Handlers) (now : Nat) (r : Request) :
    (l.send handlers now r).2.Unsent := by
  unfold LocalLink.send
  split
  · exact h
  · exact h.dispatch _ _ _ _

/-- Whoever has not come to an end on a link at rest waits for a handler, and has time left. -/
theorem Unsent.rests (h : l.Unsent) {now : Nat} (hrests : l.Rests now) {k : CallKey} {a : Call}
    (ha : l.calls.get? k = some a) (hopen : a.isOpen = true) :
    ∃ due, a.progress = .waiting due ∧ a.slot = .empty ∧ now < due := by
  have hlook := hrests.look? ha
  rcases Call.sending_or_waiting hopen with ⟨t, hsending⟩ | ⟨due, hwaiting⟩
  · exact absurd hsending (h ha t)
  · unfold Call.look? at hlook
    rw [hwaiting] at hlook
    cases hslot : a.slot with
    | filled o => simp [hslot] at hlook
    | lost => simp [hslot] at hlook
    | empty =>
      refine ⟨due, hwaiting, rfl, ?_⟩
      simpa [hslot] using hlook

end LocalLink

/-! ## What may happen -/

inductive OfficeAct where
  | starts
  /-- The service listens, or cannot. -/
  | listens (bound : Except Failure Socket)
  | registers (subject : String) (h : Handler)
  | unregisters (subject : String)
  /-- A message becomes a request. -/
  | requests (m : Outgoing)
  | connects (c : ConnectionId)
  /-- A caller, the peer or the stream does something with a client, or the client moves. -/
  | client (c : ConnectionId) (x : ClientAct)
  /-- The node calls itself. -/
  | calls (now : Nat) (k : CallKey) (r : Request) (patience : Nat)
  | sends (now : Nat) (r : Request)
  | abandons (k : CallKey)
  | works (now : Nat) (j : JobKey)
  | proceeds (now : Nat) (k : CallKey)
  | stops

/-- An act takes place before a time, if it looks at the clock of a call to another node. -/
def OfficeAct.Before (due : Nat) : OfficeAct → Prop
  | .client _ x => x.Before due
  | _ => True

/-- A service with its handlers, and what each client has heard. -/
structure Office where
  service : Service
  handlers : Handlers
  heard : ConnectionId → List (Reply × Client)

namespace Office

def start (a : Address) (settings : MessagingSettings) : Office := ⟨.ofAddress a settings, .empty, fun _ => []⟩

def setLink (o : Office) (link : LocalLink) : Office := { o with service := { o.service with link } }

def setClients (o : Office) (clients : Table ConnectionId Client) : Office :=
  { o with service := { o.service with clients } }

/-- What is not possible now changes nothing. -/
def act (o : Office) : OfficeAct → Office
  | .starts => if o.service.settled?.isNone then { o with service := o.service.beginStart } else o
  | .listens bound => { o with service := (o.service.finishStart bound).2 }
  | .registers subject h => { o with handlers := o.handlers.insert subject h }
  | .unregisters subject => { o with handlers := o.handlers.erase subject }
  | .requests m => { o with service := (o.service.request m).2 }
  | .connects c =>
    if o.service.running && 0 < o.service.settings.queueSize.toNat && (o.service.clients.get? c).isNone then
      o.setClients (o.service.clients.insert c (.ofChannel
        (.start o.service.settings.maxFrame.toNat o.service.settings.queueSize.toNat)))
    else o
  | .client c x =>
    match o.service.clients.get? c with
    | none => o
    | some client =>
      if client.Permits x then
        { o.setClients (o.service.clients.modify c (·.act x)) with
          heard := fun i => if i = c then (Watched.act ⟨client, o.heard c⟩ x).heard else o.heard i }
      else o
  | .calls now k r n =>
    if (o.service.link.calls.get? k).isNone then { o with service := o.service.callInside o.handlers now k r n }
    else o
  | .sends now r => { o with service := (o.service.sendInside o.handlers now r).2 }
  | .abandons k => o.setLink (o.service.link.abandon k)
  | .works now j => o.setLink ((o.service.link.work? j now).getD o.service.link)
  | .proceeds now k => o.setLink ((o.service.link.proceed? k now).getD o.service.link)
  | .stops => { o with service := o.service.stop }

def run (o : Office) (acts : List OfficeAct) : Office := acts.foldl act o

/-- Nothing of the service can move by itself. -/
structure Rests (o : Office) (now : Nat) : Prop where
  outside : ∀ c client, o.service.clients.get? c = some client → client.Still now
  inside : o.service.link.Rests now

/-! ## What always holds -/

structure Inv (o : Office) : Prop where
  running : o.service.running = true → o.service.stopped = false
  watched : ∀ c client, o.service.clients.get? c = some client → (⟨client, o.heard c⟩ : Watched).Inv
  tended : ∀ c client, o.service.clients.get? c = some client → client.Tended
  closed : o.service.stopped = true → ∀ c client, o.service.clients.get? c = some client → client.channel.closed = true
  unheard : ∀ c, o.service.clients.get? c = none → o.heard c = []
  unsent : o.service.link.Unsent

variable {o : Office} {c : ConnectionId}

theorem inv_start (a : Address) (settings : MessagingSettings) : (start a settings).Inv where
  running h := by simp [start, Service.ofAddress] at h
  watched c client h := by simp [start, Service.ofAddress] at h
  tended c client h := by simp [start, Service.ofAddress] at h
  closed h := by simp [start, Service.ofAddress] at h
  unheard _ _ := rfl
  unsent k a h := by simp [start, Service.ofAddress, LocalLink.start] at h

theorem Inv.sameClients (h : o.Inv) (s : Service) (hclients : s.clients = o.service.clients)
    (hstopped : s.stopped = o.service.stopped) (hrunning : s.running = true → s.stopped = false)
    (hlink : s.link.Unsent) (handlers : Handlers) : Inv { o with service := s, handlers } where
  running := hrunning
  watched c client hc := h.watched c client (by rwa [← hclients])
  tended c client hc := h.tended c client (by rwa [← hclients])
  closed hs c client hc := h.closed (hstopped ▸ hs) c client (by rwa [← hclients])
  unheard c hc := h.unheard c (by rwa [← hclients])
  unsent := hlink

theorem Inv.setLink (h : o.Inv) {link : LocalLink} (hlink : link.Unsent) : (o.setLink link).Inv :=
  h.sameClients { o.service with link } rfl rfl h.running hlink o.handlers

theorem Inv.setClient (h : o.Inv) {clients : Table ConnectionId Client} (client : Client)
    (heard : ConnectionId → List (Reply × Client))
    (hclients : ∀ i, clients.get? i = if i = c then some client else o.service.clients.get? i)
    (hheard : ∀ i, i ≠ c → heard i = o.heard i) (hwatched : (⟨client, heard c⟩ : Watched).Inv)
    (htended : client.Tended) (hclosed : o.service.stopped = true → client.channel.closed = true) :
    Inv { o.setClients clients with heard } := by
  have hcases : ∀ {i d}, clients.get? i = some d →
      (i = c ∧ d = client) ∨ (i ≠ c ∧ o.service.clients.get? i = some d) := by
    intro i d hd
    rw [hclients] at hd
    split at hd
    · exact .inl ⟨‹_›, (Option.some.inj hd).symm⟩
    · exact .inr ⟨‹_›, hd⟩
  refine ⟨h.running, fun i d hd => ?_, fun i d hd => ?_, fun hs i d hd => ?_, fun i hi => ?_, h.unsent⟩
  · rcases hcases hd with ⟨rfl, rfl⟩ | ⟨hne, hd⟩
    · exact hwatched
    · change (⟨d, heard i⟩ : Watched).Inv
      rw [hheard i hne]
      exact h.watched i d hd
  · rcases hcases hd with ⟨rfl, rfl⟩ | ⟨-, hd⟩
    · exact htended
    · exact h.tended i d hd
  · rcases hcases hd with ⟨rfl, rfl⟩ | ⟨-, hd⟩
    · exact hclosed hs
    · exact h.closed hs i d hd
  · change clients.get? i = none at hi
    rw [hclients] at hi
    split at hi
    · cases hi
    · exact (hheard i ‹_›).trans (h.unheard i hi)

theorem Inv.connects (h : o.Inv) (hrunning : o.service.running = true) (hnone : o.service.clients.get? c = none)
    (limit : Nat) {capacity : Nat} (hcapacity : 0 < capacity) :
    (o.setClients (o.service.clients.insert c (.ofChannel (.start limit capacity)))).Inv := by
  refine h.setClient _ o.heard (fun i => Table.get?_insert ..) (fun _ _ => rfl) ?_
    (Client.tended_ofChannel limit hcapacity) fun hs => absurd (hs.symm.trans (h.running hrunning)) (by simp)
  rw [h.unheard c hnone]
  exact Watched.inv_start limit capacity

theorem Inv.client (h : o.Inv) {client : Client} (hc : o.service.clients.get? c = some client) {x : ClientAct}
    (hpermits : client.Permits x = true) :
    Inv { o.setClients (o.service.clients.modify c (·.act x)) with
      heard := fun i => if i = c then (Watched.act ⟨client, o.heard c⟩ x).heard else o.heard i } := by
  refine h.setClient (client.act x) _ (fun i => ?_) (fun i hne => if_neg hne) ?_
    ((h.tended c client hc).act hpermits) fun hs => Client.closed_act x (h.closed hs c client hc)
  · rw [Table.get?_modify]
    split
    · rename_i heq
      rw [heq, hc, Option.map_some]
    · rfl
  · rw [if_pos rfl]
    exact (h.watched c client hc).act x

theorem stop_eq {s : Service} (hrunning : s.running = true) : s.stop = { s with
    running := false
    stopped := true
    link := s.link.close
    clients := ⟨s.clients.entries.map fun (k, c) => (k, { c with channel := c.channel.close })⟩
    servers := ⟨s.servers.entries.map fun (k, c) => (k, { c with channel := c.channel.close })⟩ } := if_pos hrunning

theorem get?_stop {s : Service} (hrunning : s.running = true) (c : ConnectionId) :
    s.stop.clients.get? c = (s.clients.get? c).map (·.act (.channel .closes)) := by
  rw [stop_eq hrunning]
  exact Table.get?_mapValues s.clients (fun client => client.act (.channel .closes)) c

theorem Inv.stops (h : o.Inv) : Inv { o with service := o.service.stop } := by
  by_cases hrunning : o.service.running = true
  · have hget := get?_stop hrunning
    have hstop := stop_eq hrunning
    refine ⟨?_, fun c d hd => ?_, fun c d hd => ?_, fun _ c d hd => ?_, fun c hc => ?_, ?_⟩
    · rw [hstop]
      simp
    · obtain ⟨client, hc, rfl⟩ := Option.map_eq_some_iff.mp ((hget c).symm.trans hd)
      have hact := (h.watched c client hc).act (.channel .closes)
      have hheard : (Watched.act ⟨client, o.heard c⟩ (.channel .closes)).heard = o.heard c := List.append_nil _
      rwa [← hheard]
    · obtain ⟨client, hc, rfl⟩ := Option.map_eq_some_iff.mp ((hget c).symm.trans hd)
      exact (h.tended c client hc).act rfl
    · obtain ⟨client, hc, rfl⟩ := Option.map_eq_some_iff.mp ((hget c).symm.trans hd)
      rfl
    · exact h.unheard c (Option.map_eq_none_iff.mp ((hget c).symm.trans hc))
    · rw [hstop]
      exact h.unsent
  · rw [Service.stop, if_neg hrunning]
    exact h

theorem Inv.act (h : o.Inv) (a : OfficeAct) : (o.act a).Inv := by
  cases a with
  | starts =>
    simp only [Office.act]
    split
    · rename_i hnone
      refine h.sameClients o.service.beginStart rfl rfl (fun _ => ?_) h.unsent o.handlers
      change o.service.stopped = false
      by_contra hstopped
      unfold Service.settled? at hnone
      rw [if_pos (by simpa using hstopped)] at hnone
      cases hnone
    · exact h
  | listens bound =>
    cases bound with
    | ok socket => exact h.sameClients (o.service.finishStart (.ok socket)).2 rfl rfl h.running h.unsent o.handlers
    | error f => exact h.sameClients { o.service with running := false } rfl rfl nofun h.unsent o.handlers
  | registers subject g => exact h.sameClients _ rfl rfl h.running h.unsent _
  | unregisters subject => exact h.sameClients _ rfl rfl h.running h.unsent _
  | requests m =>
    simp only [Office.act, Service.request]
    split
    · exact h.sameClients { o.service with nextId := o.service.nextId + 1 } rfl rfl h.running h.unsent o.handlers
    · exact h
  | connects c =>
    simp only [Office.act]
    split
    · rename_i hfree
      simp only [Bool.and_eq_true, decide_eq_true_eq] at hfree
      exact h.connects hfree.1.1 (Option.isNone_iff_eq_none.mp hfree.2) _ hfree.1.2
    · exact h
  | client c x =>
    simp only [Office.act]
    split
    · exact h
    · rename_i client hc
      split
      · rename_i hpermits
        exact h.client hc hpermits
      · exact h
  | calls now k r n =>
    simp only [Office.act]
    split
    · exact h.sameClients (o.service.callInside o.handlers now k r n) rfl rfl h.running
        (h.unsent.begin _ _ _ _ _) o.handlers
    · exact h
  | sends now r =>
    exact h.sameClients (o.service.sendInside o.handlers now r).2 rfl rfl h.running (h.unsent.send _ _ _) o.handlers
  | abandons k => exact h.setLink (h.unsent.abandon k)
  | works now j =>
    refine h.setLink ?_
    cases hwork : o.service.link.work? j now with
    | none => exact h.unsent
    | some l => exact h.unsent.work hwork
  | proceeds now k =>
    refine h.setLink ?_
    cases hproceed : o.service.link.proceed? k now with
    | none => exact h.unsent
    | some l => exact h.unsent.proceed hproceed
  | stops => exact h.stops

theorem Inv.run (h : o.Inv) (acts : List OfficeAct) : (o.run acts).Inv := by
  induction acts generalizing o with
  | nil => exact h
  | cons a acts ih => exact ih (h.act a)

/-! ## What a stop comes to -/

theorem stopped_act (a : OfficeAct) (h : o.service.stopped = true) : (o.act a).service.stopped = true := by
  cases a with
  | starts =>
    simp only [Office.act]
    split <;> exact h
  | listens bound => cases bound <;> exact h
  | requests m =>
    simp only [Office.act, Service.request]
    split <;> exact h
  | connects c =>
    simp only [Office.act]
    split <;> exact h
  | client c x =>
    simp only [Office.act]
    split
    · exact h
    · split <;> exact h
  | calls now k r n =>
    simp only [Office.act]
    split <;> exact h
  | stops =>
    simp only [Office.act, Service.stop]
    split
    · rfl
    · exact h
  | _ => exact h

theorem stopped_run (acts : List OfficeAct) (h : o.service.stopped = true) : (o.run acts).service.stopped = true := by
  induction acts generalizing o with
  | nil => exact h
  | cons a acts ih => exact ih (stopped_act a h)

/-- A call to another node that waited until a time still does, was given up, or is over before it. -/
def Waits (o : Office) (c : ConnectionId) (k : CallKey) (r : Request) (due : Nat) : Prop :=
  ∃ client a, o.service.clients.get? c = some client ∧ client.call? k = some a ∧ a.request = r ∧ a.Waited due

theorem Waits.act {k : CallKey} {r : Request} {due : Nat} (h : o.Waits c k r due) {x : OfficeAct}
    (hbefore : x.Before due) : (o.act x).Waits c k r due := by
  obtain ⟨client, a, hc, ha, hrequest, hwaited⟩ := h
  have hsame : o.Waits c k r due := ⟨client, a, hc, ha, hrequest, hwaited⟩
  cases x with
  | starts =>
    simp only [Office.act]
    split <;> exact hsame
  | listens bound => cases bound <;> exact hsame
  | requests m =>
    simp only [Office.act, Service.request]
    split <;> exact hsame
  | connects i =>
    simp only [Office.act]
    split
    · rename_i hfree
      simp only [Bool.and_eq_true, decide_eq_true_eq] at hfree
      have hne : c ≠ i := by
        rintro rfl
        rw [hc] at hfree
        cases hfree.2
      refine ⟨client, a, ?_, ha, hrequest, hwaited⟩
      simp only [setClients, Table.get?_insert]
      rw [if_neg hne, hc]
    · exact hsame
  | client i x =>
    simp only [Office.act]
    split
    · exact hsame
    · split
      · simp only [Waits, setClients, Table.get?_modify]
        by_cases hi : c = i
        · obtain ⟨b, hb, hreq, hb'⟩ := Client.waited_act ha hwaited hbefore
          exact ⟨client.act x, b, by rw [if_pos hi, hc, Option.map_some], hb, hreq.trans hrequest, hb'⟩
        · exact ⟨client, a, by rw [if_neg hi, hc], ha, hrequest, hwaited⟩
      · exact hsame
  | calls now k' r' n =>
    simp only [Office.act]
    split <;> exact hsame
  | stops =>
    by_cases hrunning : o.service.running = true
    · refine ⟨client.act (.channel .closes), a, ?_, ha, hrequest, hwaited⟩
      have hget := get?_stop hrunning c
      rwa [hc] at hget
    · simp only [Office.act]
      rw [Service.stop, if_neg hrunning]
      exact hsame
  | _ => exact hsame

theorem Waits.run {k : CallKey} {r : Request} {due : Nat} (h : o.Waits c k r due) {acts : List OfficeAct}
    (hbefore : ∀ x ∈ acts, x.Before due) : (o.run acts).Waits c k r due := by
  induction acts generalizing o with
  | nil => exact h
  | cons x acts ih =>
    exact ih (h.act (hbefore x List.mem_cons_self)) fun y hy => hbefore y (List.mem_cons_of_mem x hy)

/-- Where the calls stand when a service was stopped and nothing of it moves any more. -/
structure Aftermath (before : Office) (acts : List OfficeAct) (after : Office) (now : Nat) : Prop where
  /-- Whoever waited for a reply of another node, and whose time was not up by then, has been given one or
  has been told that the connection is closed. -/
  waiting : ∀ c client k a due, before.service.clients.get? c = some client → client.call? k = some a →
    a.progress = .waiting due → (∀ x ∈ acts, x.Before due) →
      ∃ client' b, after.service.clients.get? c = some client' ∧ client'.call? k = some b ∧
        b.request = a.request ∧ (b.progress = .gone ∨ b.progress = .over (.error .connectionClosed) ∨
          ∃ o, b.progress = .over o ∧ FirstReply (after.heard c) k a.request o)
  /-- Whoever calls another node and is not done has a request that is not out, and the channel is in the
  middle of a frame that the stream does not take. -/
  sending : ∀ c client k a, after.service.clients.get? c = some client → client.call? k = some a →
    a.isOpen = true → (∃ t, a.progress = .sending t ∧ client.channel.outcome? t = none) ∧
      ∃ t left, client.channel.writer = .writing t left ∧ left ≠ []
  /-- Nothing but a reply, the end of the connection or of the wait, or a failure to write ends a call. -/
  ended : ∀ c client k a o, after.service.clients.get? c = some client → client.call? k = some a →
    a.progress = .over o → a.Unanswered WriteFailure o ∨ FirstReply (after.heard c) k a.request o
  /-- Whoever calls within the node and is not done waits for the handler, with time left. -/
  inside : ∀ k a, after.service.link.calls.get? k = some a → a.isOpen = true →
    ∃ due, a.progress = .waiting due ∧ a.slot = .empty ∧ now < due

/-- A service is stopped while it runs, and then callers, peers and handlers go on as they like. -/
theorem stop_ends_calls (a : Address) (settings : MessagingSettings) {acts more : List OfficeAct} {now : Nat}
    (hrunning : ((start a settings).run acts).service.running = true)
    (hrests : ((((start a settings).run acts).act .stops).run more).Rests now) :
    Aftermath ((start a settings).run acts) more ((((start a settings).run acts).act .stops).run more) now := by
  have hbefore := (inv_start a settings).run acts
  generalize (start a settings).run acts = before at hrunning hrests hbefore
  have hafter := (hbefore.act .stops).run more
  have hstopped : ((before.act .stops).run more).service.stopped = true := by
    refine stopped_run more ?_
    simp only [Office.act]
    rw [stop_eq hrunning]
  have hwaits : ∀ {c k r due}, before.Waits c k r due → (∀ x ∈ more, x.Before due) →
      ((before.act .stops).run more).Waits c k r due :=
    fun hwaits hall => (hwaits.act (x := .stops) trivial).run hall
  generalize (before.act .stops).run more = after at hrests hafter hstopped hwaits
  have hsending : ∀ c client k a, after.service.clients.get? c = some client → client.call? k = some a →
      a.isOpen = true → (∃ t, a.progress = .sending t ∧ client.channel.outcome? t = none) ∧
        ∃ t left, client.channel.writer = .writing t left ∧ left ≠ [] := fun c client k a hc ha hopen =>
    (hafter.tended c client hc).rests (hafter.closed hstopped c client hc) (hrests.outside c client hc) ha hopen
  refine ⟨fun c client k a due hc ha hwaiting hall => ?_, hsending, fun c client k a o hc ha hover => ?_, ?_⟩
  · obtain ⟨client', b, hc', hb, hrequest, hwaited⟩ := hwaits ⟨client, a, hc, ha, rfl, .inl hwaiting⟩ hall
    refine ⟨client', b, hc', hb, hrequest, ?_⟩
    rcases hwaited with hstill | hgone | ⟨o, hover, rfl | hslot⟩
    · obtain ⟨⟨t, hsends, -⟩, -⟩ := hsending c client' k b hc' hb (by simp [Call.isOpen, hstill])
      cases hstill.symm.trans hsends
    · exact .inl hgone
    · exact .inr (.inl hover)
    · rcases ((hafter.watched c client' hc').justified hb).1 o hslot with rfl | hfirst
      · exact .inr (.inl hover)
      · exact .inr (.inr ⟨o, hover, hrequest ▸ hfirst⟩)
  · exact ((hafter.watched c client hc).justified ha).2 o hover
  · exact fun k a ha hopen => hafter.unsent.rests hrests.inside ha hopen

/-! ## Two runs on which a stop leaves a call, and one on which it ends a call -/

def site : Address := ⟨"127.0.0.1", 5000⟩

/-- The service runs and has its first request. -/
def opening (goal : Address) : List OfficeAct :=
  [.starts, .listens (.ok ⟨.v4 ⟨127, 0, 0, 1⟩, 5000⟩), .requests ⟨goal, "s", [7]⟩]

/-- The node calls a handler of its own that takes a minute. -/
def slowly : List OfficeAct :=
  [.registers "s" (.ofFunction "slow" fun _ payload => (60000, .returned payload)),
    .calls 0 0 ⟨1, site, "s", [7]⟩ 5000]

/-- The stream takes three bytes of a request to another node. -/
def partly : List OfficeAct :=
  [.connects 1, .client 1 (.begins 0 ⟨1, site, "s", [7]⟩ 5000), .client 1 (.channel .takes),
    .client 1 (.channel (.writes 3))]

/-- The stream takes all of it, and the call waits for the reply. -/
def wholly : List OfficeAct :=
  partly ++ [.client 1 (.channel (.writes 100)), .client 1 (.channel .flushes), .client 1 (.proceeds 0 10)]

/-- What a client does when its channel is closed. -/
def closing : List OfficeAct :=
  [.client 1 (.channel .stopsReading), .client 1 (.channel .stopsWriting), .client 1 .receives,
    .client 1 (.proceeds 0 20)]

theorem rests_of_one {o : Office} {now : Nat} {client : Client} (hkeys : o.service.clients.keys = [1])
    (hclient : o.service.clients.get? 1 = some client) (hstill : client.Still now)
    (hinside : o.service.link.Rests now) : o.Rests now where
  outside c d hd := by
    have hmem : c ∈ o.service.clients.keys := Table.isSome_lookup.mp (Option.isSome_iff_exists.mpr ⟨d, hd⟩)
    rw [hkeys, List.mem_singleton] at hmem
    rw [hmem, hclient] at hd
    rwa [← Option.some.inj hd]
  inside := hinside

theorem a_stop_leaves_calls_waiting :
    (((start site {}).run (opening site ++ slowly)).service.running = true ∧
      (∀ now < 5000, (((start site {}).run (opening site ++ slowly)).act .stops).Rests now) ∧
      (((start site {}).run (opening site ++ slowly)).act .stops).service.link.calls.get? 0 =
        some ⟨⟨1, site, "s", [7]⟩, 5000, .empty, .waiting 5000⟩) ∧
    (((start site {}).run (opening ⟨"10.0.0.2", 80⟩ ++ partly)).service.running = true ∧
      (∀ now, ((((start site {}).run (opening ⟨"10.0.0.2", 80⟩ ++ partly)).act .stops).run closing).Rests now) ∧
      (((((start site {}).run (opening ⟨"10.0.0.2", 80⟩ ++ partly)).act .stops).run closing).service.clients.get?
        1).bind (·.call? 0) =
          some ⟨⟨1, site, "s", [7]⟩, 5000, .filled (.error .connectionClosed), .sending 0⟩) := by
  have hcalls : (((start site {}).run (opening site ++ slowly)).act .stops).service.link.calls =
      ⟨[(0, ⟨⟨1, site, "s", [7]⟩, 5000, .empty, .waiting 5000⟩)]⟩ := rfl
  have hjobs : (((start site {}).run (opening site ++ slowly)).act .stops).service.link.jobs =
      ⟨[(0, ⟨⟨1, site, "s", [7]⟩, .call 0, false, .working 60000 (.returned [7])⟩)]⟩ := rfl
  refine ⟨⟨rfl, fun now hnow => ⟨nofun, fun j => ?_, fun k => ?_⟩, rfl⟩, ⟨rfl, fun now => ?_, rfl⟩⟩
  · unfold LocalLink.work?
    rw [hjobs]
    by_cases hj : 0 = j
    · have hearly : ¬ 60000 ≤ now := by omega
      simp [Table.get?, Table.lookup, hj, hearly]
    · simp [Table.get?, Table.lookup, hj]
  · unfold LocalLink.proceed?
    rw [hcalls]
    by_cases hk : 0 = k
    · simp [Table.get?, Table.lookup, hk, Call.look?, hnow]
    · simp [Table.get?, Table.lookup, hk]
  · refine rests_of_one rfl rfl ⟨?_, rfl, fun k => ?_⟩ ⟨fun _ => rfl, fun _ => rfl⟩
    · simp only [List.forall_mem_cons]
      exact ⟨rfl, rfl, rfl, rfl, rfl, rfl, by simp⟩
    · cases k <;> rfl

theorem stop_ends_calls_remote :
    ((start site {}).run (opening ⟨"10.0.0.2", 80⟩ ++ wholly)).service.running = true ∧
    ((((start site {}).run (opening ⟨"10.0.0.2", 80⟩ ++ wholly)).act .stops).run closing).Rests 20 ∧
    Aftermath ((start site {}).run (opening ⟨"10.0.0.2", 80⟩ ++ wholly)) closing
      ((((start site {}).run (opening ⟨"10.0.0.2", 80⟩ ++ wholly)).act .stops).run closing) 20 ∧
    (((((start site {}).run (opening ⟨"10.0.0.2", 80⟩ ++ wholly)).act .stops).run closing).service.clients.get?
      1).bind (·.call? 0) = some ⟨⟨1, site, "s", [7]⟩, 5000, .filled (.error .connectionClosed),
        .over (.error .connectionClosed)⟩ := by
  have hrests : ((((start site {}).run (opening ⟨"10.0.0.2", 80⟩ ++ wholly)).act .stops).run closing).Rests 20 := by
    refine rests_of_one rfl rfl ⟨?_, rfl, fun k => ?_⟩ ⟨fun _ => rfl, fun _ => rfl⟩
    · simp only [List.forall_mem_cons]
      exact ⟨rfl, rfl, rfl, rfl, rfl, rfl, by simp⟩
    · cases k <;> rfl
  exact ⟨rfl, hrests, stop_ends_calls site {} rfl hrests, rfl⟩

end Office

end Messaging

end ClusterNet
