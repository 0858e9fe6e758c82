import ClusterNet.Messaging.Link
import ClusterNet.Proofs.Calls
import ClusterNet.Proofs.Flow

/-!
# A client and a server in exchange

A client and a server that are joined by a stream, while calls begin and are given up, handlers
come and go, and either end may be closed. Beside the state stand two accounts: which requests
have come to the server, and which were handed to which handler.
-/

namespace ClusterNet.Messaging

open Wire

/-! ## What may happen -/

inductive LinkAct where
  | begins (k : CallKey) (r : Request) (patience : Nat)
  | abandons (k : CallKey)
  | registers (subject : String) (h : Handler)
  | unregisters (subject : String)
  | closesClient
  | closesServer
  | moves (now : Nat) (m : Move)

structure Exchange where
  link : Link
  handlers : Handlers
  /-- The requests that have come into the server's queue. -/
  arrived : List Request
  /-- The requests that the server took, each with the handler that was there for it. -/
  dispatched : List (Request × Option Handler)

namespace Exchange

def start (limit capacity room : Nat) : Exchange := ⟨.start limit capacity room, .empty, [], []⟩

/-- Neither the key nor the id of a call was used before. -/
def isFresh (x : Exchange) (k : CallKey) (id : UInt64) : Bool :=
  (x.link.client.call? k).isNone && x.link.client.calls.values.all fun call => call.request.id != id

def requests (ms : List Message) : List Request :=
  ms.filterMap fun
    | .request r => some r
    | .reply _ => none

/-- What has come into the server's queue by a move after which the link is `l`. Only the channel
of the server puts something there. -/
def arrives (x : Exchange) (l : Link) : Move → List Request
  | .server (.reads _) | .server .notices | .server (.writes _) =>
    requests (l.server.channel.inbound.drop x.link.server.channel.inbound.length)
  | _ => []

/-- What the server takes by a move, and for whom. -/
def dispatches (x : Exchange) : Move → List (Request × Option Handler)
  | .server .serves =>
    match x.link.server.serving, x.link.server.channel.receive? with
    | .ready, some (.request r, _) => [(r, x.handlers.get? r.subject)]
    | _, _ => []
  | _ => []

/-- What is not possible now changes nothing. -/
def act (x : Exchange) : LinkAct → Exchange
  | .begins k r n =>
    if x.isFresh k r.id then { x with link := { x.link with client := x.link.client.begin k r n } } else x
  | .abandons k => { x with link := { x.link with client := x.link.client.abandon k } }
  | .registers subject h => { x with handlers := x.handlers.insert subject h }
  | .unregisters subject => { x with handlers := x.handlers.erase subject }
  | .closesClient =>
    { x with link := { x.link with client := { x.link.client with
        channel := x.link.client.channel.close } } }
  | .closesServer =>
    { x with link := { x.link with server := { x.link.server with
        channel := x.link.server.channel.close } } }
  | .moves now m =>
    match x.link.move? x.handlers now m with
    | none => x
    | some l =>
      { x with
        link := l
        arrived := x.arrived ++ x.arrives l m
        dispatched := x.dispatched ++ x.dispatches m }

def run (x : Exchange) (acts : List LinkAct) : Exchange := acts.foldl act x

end Exchange

/-! ## Handlers that answer -/

/-- The handler answers each request with one reply: it was made from a function, or from work
that is always set up. -/
def Handler.Adapted (h : Handler) : Prop :=
  ∃ (label : String) (f : Address → Bytes → Nat × Effort),
    h = .ofFunction label f ∨ h = .ofWork label fun a b => some (f a b)

theorem Handler.works_of_adapted {h : Handler} (ha : h.Adapted) (r : Request) :
    ∃ ms effort, h.react r = .works ms effort := by
  obtain ⟨label, f, rfl | rfl⟩ := ha <;> exact ⟨_, _, rfl⟩

/-- The reply that a request is due: of the server itself, or of the handler's work. -/
def Answers (e : Request × Option Handler) (r : Reply) : Prop :=
  r.id = e.1.id ∧
    match e.2 with
    | none => (r.status, r.payload) = refusal e.1
    | some h => ∃ ms effort, h.react e.1 = .works ms effort ∧ (r.status, r.payload) = effort.reply

/-- What a call is due for the way its request was dispatched. -/
def Due (dispatched : List (Request × Option Handler)) (_ : CallKey) (r : Request) (o : Outcome) : Prop :=
  ∃ e ∈ dispatched, e.1 = resolved r ∧ ∃ reply, Answers e reply ∧ o = outcomeOf r.subject reply

theorem Due.append {dispatched : List (Request × Option Handler)} {k : CallKey} {r : Request} {o : Outcome}
    (h : Due dispatched k r o) (more : List (Request × Option Handler)) : Due (dispatched ++ more) k r o := by
  obtain ⟨e, he, hrest⟩ := h
  exact ⟨e, List.mem_append_left more he, hrest⟩

/-- The refusal of a request has a frame if the request has one, because it is shorter. -/
theorem fits_refusal {limit : Nat} {r : Request} (h : Fits limit (.request r)) :
    Fits limit (.reply ⟨r.id, (refusal r).1, (refusal r).2⟩) := by
  obtain ⟨frame, hframe, hlt⟩ := h
  obtain ⟨header, hheader, hle, rfl⟩ := encode_eq_ok.mp hframe
  obtain ⟨ip, -, -, rfl⟩ := headerBytes_request.mp hheader
  refine ⟨_, encode_eq_ok.mpr ⟨_, headerBytes_reply.mpr rfl, ?_, rfl⟩, ?_⟩
  · simp [refusal, Message.payload] at hle ⊢
    omega
  · simp [refusal, Message.payload] at hlt ⊢
    omega

/-- What is asked and what is offered fit the limit: requests have frames, handlers answer, and
their answers to what is asked of them have frames. -/
structure Fitting (limit : Nat) (asked : Request → Prop) (offered : String → Handler → Prop) : Prop where
  request : ∀ {r}, asked r → Fits limit (.request r)
  adapted : ∀ {s h}, offered s h → h.Adapted
  reply : ∀ {r h ms effort}, asked r → offered r.subject h → h.react (resolved r) = .works ms effort →
    Fits limit (.reply ⟨r.id, effort.reply.1, effort.reply.2⟩)

namespace Exchange

/-! ## What always holds -/

/-- A write fails only because the channel is closed or the stream is gone. -/
def Broken (e : Failure) : Prop := e = .connectionClosed ∨ e = .io

/-- The requests that were dispatched, as messages. -/
def sent (x : Exchange) : List Message := x.dispatched.map fun e => .request e.1

/-- A job works on a dispatched request, or has answered it. -/
def JobSound (dispatched : List (Request × Option Handler)) (j : Job) : Prop :=
  (∃ due effort h ms, j.stage = .working due effort ∧ (j.request, some h) ∈ dispatched ∧
    h.react j.request = .works ms effort) ∨ (∃ t, j.stage = .answering t) ∨ j.stage = .done

structure Inv (limit : Nat) (asked : Request → Prop) (offered : String → Handler → Prop) (x : Exchange) :
    Prop where
  registered : ∀ {s h}, x.handlers.get? s = some h → offered s h
  begun : ∀ {k r}, x.link.client.request? k = some r → asked r
  distinct : ∀ {k l r r'}, x.link.client.request? k = some r → x.link.client.request? l = some r' →
    r.id = r'.id → k = l
  limits : x.link.client.channel.limit = limit ∧ x.link.server.channel.limit = limit
  /-- Each request is on its way up once, or was dispatched once. -/
  up : ∃ l, Carries x.link.client.channel x.link.up x.link.server.channel l ∧
    ((x.sent ++ l).map (·.id)).Nodup ∧
    ∀ m ∈ x.sent ++ l, ∃ k r, x.link.client.request? k = some r ∧ m = .request (resolved r)
  /-- What is on its way down is an answer. -/
  down : ∃ l, Carries x.link.server.channel x.link.down x.link.client.channel l ∧
    ∀ m ∈ l, ∃ e ∈ x.dispatched, ∃ r, m = .reply r ∧ Answers e r
  handled : ∀ {r h}, (r, some h) ∈ x.dispatched → offered r.subject h
  jobs : ∀ {k j}, x.link.server.jobs.get? k = some j → JobSound x.dispatched j
  log : x.link.server.log.reverse =
    x.dispatched.filterMap fun e => e.2.map fun h => .invoked h.label e.1
  ledger : x.arrived = x.dispatched.map (·.1) ++ requests x.link.server.channel.inbound
  /-- A server that has stopped has taken all that came, and nothing will come. -/
  drained : x.link.server.serving = .stopped → x.link.server.channel.ended = true
  sound : x.link.client.Sound
  justified : x.link.client.Justified Broken (Due x.dispatched)
  clientErrors : ∀ {t e}, x.link.client.channel.outcome? t = some (.error e) → Broken e
  serverErrors : ∀ {t e}, x.link.server.channel.outcome? t = some (.error e) → Broken e

variable {limit : Nat} {asked : Request → Prop} {offered : String → Handler → Prop} {x : Exchange}

theorem inv_start (limit capacity room : Nat) (asked : Request → Prop)
    (offered : String → Handler → Prop) : (start limit capacity room).Inv limit asked offered where
  registered := by simp [start]
  begun := by simp [start, Link.start, Client.ofChannel, Client.request?, Client.call?]
  distinct := by simp [start, Link.start, Client.ofChannel, Client.request?, Client.call?]
  limits := ⟨rfl, rfl⟩
  up := ⟨[], carries_start limit capacity room, by simp [sent, start], by simp [sent, start]⟩
  down := ⟨[], carries_start limit capacity room, by simp⟩
  handled := by simp [start]
  jobs := by simp [start, Link.start, Server.ofChannel]
  log := rfl
  ledger := rfl
  drained := by simp [start, Link.start, Server.ofChannel]
  sound := Client.sound_ofChannel _
  justified := Client.justified_ofChannel _
  clientErrors := by simp [start, Link.start, Client.ofChannel, Channel.start, Channel.outcome?]
  serverErrors := by simp [start, Link.start, Server.ofChannel, Channel.start, Channel.outcome?]

/-- Every message that can be sent has a frame, so that no write fails for want of one. -/
theorem broken_of_accounts {s s' r : Channel} {p : Pipe} {l : List Message} (hc : Carries s p r l)
    (hs : s.Accounts s') (herrors : ∀ {t e}, s.outcome? t = some (.error e) → Broken e) {t : Ticket}
    {e : Failure} (he : s'.outcome? t = some (.error e)) : Broken e := by
  rcases hs he with he | rfl | rfl | ⟨q, hq, fault, hfault, -⟩
  · exact herrors he
  · exact .inl rfl
  · exact .inr rfl
  · obtain ⟨ms, hms, -⟩ := hc
    obtain ⟨frame, hframe, -⟩ := hms.fits q.message (by
      refine List.mem_append_right ms (List.mem_map.mpr ⟨q, List.mem_append_left _ hq, rfl⟩))
    rw [hms.limit, hframe] at hfault
    simp at hfault

theorem Inv.client (h : x.Inv limit asked offered) {client : Client} {up down : Pipe}
    (hlimit : client.channel.limit = x.link.client.channel.limit)
    (hrequest : ∀ k, client.request? k = x.link.client.request? k) (hsound : client.Sound)
    (hjustified : client.Justified Broken (Due x.dispatched))
    (haccounts : x.link.client.channel.Accounts client.channel)
    (hup : ∀ {l}, Carries x.link.client.channel x.link.up x.link.server.channel l →
      ∃ l', l'.Sublist l ∧ Carries client.channel up x.link.server.channel l')
    (hdown : ∀ {l}, Carries x.link.server.channel x.link.down x.link.client.channel l →
      ∃ l', l'.Sublist l ∧ Carries x.link.server.channel down client.channel l') :
    Inv limit asked offered { x with link := { x.link with client, up, down } } where
  registered := h.registered
  begun hk := h.begun (by rwa [← hrequest])
  distinct hk hl := h.distinct (by rwa [← hrequest]) (by rwa [← hrequest])
  limits := ⟨hlimit.trans h.limits.1, h.limits.2⟩
  up := by
    obtain ⟨l, hc, hnodup, hmem⟩ := h.up
    obtain ⟨l', hl', hc'⟩ := hup hc
    have hsub : (x.sent ++ l').Sublist (x.sent ++ l) := (List.Sublist.refl _).append hl'
    refine ⟨l', hc', hnodup.sublist (hsub.map _), fun m hm => ?_⟩
    obtain ⟨k, r, hk, rfl⟩ := hmem m (hsub.subset hm)
    exact ⟨k, r, (hrequest k).trans hk, rfl⟩
  down := by
    obtain ⟨l, hc, hmem⟩ := h.down
    obtain ⟨l', hl', hc'⟩ := hdown hc
    exact ⟨l', hc', fun m hm => hmem m (hl'.subset hm)⟩
  handled := h.handled
  jobs := h.jobs
  log := h.log
  ledger := h.ledger
  drained := h.drained
  sound := hsound
  justified := hjustified
  clientErrors := by
    obtain ⟨l, hc, -⟩ := h.up
    exact broken_of_accounts hc haccounts h.clientErrors
  serverErrors := h.serverErrors

theorem Inv.server (h : x.Inv limit asked offered) {server : Server} {up down : Pipe}
    {more : List Message}
    (hlimit : server.channel.limit = x.link.server.channel.limit)
    (hjobs : ∀ {k j}, server.jobs.get? k = some j → JobSound x.dispatched j)
    (hlog : server.log = x.link.server.log)
    (hinbound : server.channel.inbound = x.link.server.channel.inbound ++ more)
    (hdrained : server.serving = .stopped → server.channel.ended = true)
    (haccounts : x.link.server.channel.Accounts server.channel)
    (hup : ∀ {l}, Carries x.link.client.channel x.link.up x.link.server.channel l →
      ∃ l', l'.Sublist l ∧ Carries x.link.client.channel up server.channel l')
    (hdown : ∀ {l}, Carries x.link.server.channel x.link.down x.link.client.channel l →
      ∃ l', (∀ m ∈ l', m ∈ l ∨ ∃ e ∈ x.dispatched, ∃ r, m = .reply r ∧ Answers e r) ∧
        Carries server.channel down x.link.client.channel l') :
    Inv limit asked offered { x with
      link := { x.link with server, up, down }, arrived := x.arrived ++ requests more } where
  registered := h.registered
  begun := h.begun
  distinct := h.distinct
  limits := ⟨h.limits.1, hlimit.trans h.limits.2⟩
  up := by
    obtain ⟨l, hc, hnodup, hmem⟩ := h.up
    obtain ⟨l', hl', hc'⟩ := hup hc
    have hsub : (x.sent ++ l').Sublist (x.sent ++ l) := (List.Sublist.refl _).append hl'
    exact ⟨l', hc', hnodup.sublist (hsub.map _), fun m hm => hmem m (hsub.subset hm)⟩
  down := by
    obtain ⟨l, hc, hmem⟩ := h.down
    obtain ⟨l', hl', hc'⟩ := hdown hc
    exact ⟨l', hc', fun m hm => (hl' m hm).elim (hmem m) id⟩
  handled := h.handled
  jobs := hjobs
  log := by rw [hlog, h.log]
  ledger := by simp only [h.ledger, hinbound, requests, List.filterMap_append, List.append_assoc]
  drained := hdrained
  sound := h.sound
  justified := h.justified
  clientErrors := h.clientErrors
  serverErrors := by
    obtain ⟨l, hc, -⟩ := h.down
    exact broken_of_accounts hc haccounts h.serverErrors

/-! ## The client's acts -/

theorem values_of_isFresh {k : CallKey} {id : UInt64} (h : x.isFresh k id = true) :
    x.link.client.call? k = none ∧ ∀ {l r}, x.link.client.request? l = some r → r.id ≠ id := by
  simp only [isFresh, Bool.and_eq_true, Option.isNone_iff_eq_none, List.all_eq_true, bne_iff_ne] at h
  refine ⟨h.1, fun {l r} hr => ?_⟩
  obtain ⟨call, hcall, rfl⟩ := Option.map_eq_some_iff.mp hr
  exact h.2 call (List.mem_map.mpr ⟨(l, call), Table.mem_of_lookup hcall, rfl⟩)

theorem sameReader_begin (c : Client) (k : CallKey) (r : Request) (n : Nat) :
    c.channel.SameReader (c.begin k r n).channel := by
  rw [Client.channel_begin]
  split
  · exact ⟨rfl, rfl, rfl, rfl⟩
  · exact sameReader_submit _ _

theorem carries_begin {c : Client} {p : Pipe} {s : Channel} {l : List Message} {r : Request}
    (hc : Carries c.channel p s l) (hfits : Fits s.limit (.request r)) (k : CallKey) (n : Nat) :
    ∃ l', (l' = l ∨ l' = l ++ [canonical (.request r)]) ∧ Carries (c.begin k r n).channel p s l' := by
  rw [Client.channel_begin]
  split
  · exact ⟨l, .inl rfl, hc⟩
  · exact hc.submit hfits

theorem Inv.up_begin (h : x.Inv limit asked offered) {k : CallKey} {r : Request}
    (hfits : Fits limit (.request r)) (hfresh : x.isFresh k r.id = true) (n : Nat) :
    ∃ l, Carries (x.link.client.begin k r n).channel x.link.up x.link.server.channel l ∧
      ((x.sent ++ l).map (·.id)).Nodup ∧
      ∀ m ∈ x.sent ++ l, ∃ k' r', (x.link.client.begin k r n).request? k' = some r' ∧
        m = .request (resolved r') := by
  obtain ⟨hk, hid⟩ := values_of_isFresh hfresh
  obtain ⟨l, hc, hnodup, hmem⟩ := h.up
  have hold : ∀ m ∈ x.sent ++ l, ∃ k' r', (x.link.client.begin k r n).request? k' = some r' ∧
      m = .request (resolved r') := by
    intro m hm
    obtain ⟨k', r', hk', hm'⟩ := hmem m hm
    exact ⟨k', r', Client.request?_begin_of_some hk n hk', hm'⟩
  have hother : ∀ m ∈ x.sent ++ l, m.id ≠ r.id := by
    intro m hm
    obtain ⟨k', r', hk', rfl⟩ := hmem m hm
    simpa [Message.id] using hid hk'
  rw [← h.limits.2] at hfits
  obtain ⟨l', rfl | rfl, hc'⟩ := carries_begin hc hfits k n
  · exact ⟨l', hc', hnodup, hold⟩
  · refine ⟨_, hc', ?_, fun m hm => ?_⟩
    · rw [← List.append_assoc, List.map_append, List.nodup_append]
      refine ⟨hnodup, by simp, fun a ha b hb => ?_⟩
      obtain ⟨m, hm, rfl⟩ := List.mem_map.mp ha
      simp only [List.map_cons, List.map_nil, List.mem_singleton] at hb
      rw [hb, id_canonical]
      exact hother m hm
    · rw [← List.append_assoc, List.mem_append] at hm
      rcases hm with hm | hm
      · exact hold m hm
      · refine ⟨k, r, by rw [Client.request?_begin, if_pos rfl], ?_⟩
        rw [List.mem_singleton.mp hm]
        rfl

theorem Inv.begin (h : x.Inv limit asked offered) (hfit : Fitting limit asked offered) {k : CallKey}
    {r : Request} (hr : asked r) (hfresh : x.isFresh k r.id = true) (n : Nat) :
    Inv limit asked offered
      { x with link := { x.link with client := x.link.client.begin k r n } } where
  registered := h.registered
  begun {l r'} hl := by
    rw [Client.request?_begin] at hl
    split at hl
    · rwa [← Option.some.inj hl]
    · exact h.begun hl
  distinct {l l' a b} hl hl' hab := by
    obtain ⟨-, hid⟩ := values_of_isFresh hfresh
    rw [Client.request?_begin] at hl hl'
    split at hl <;> split at hl'
    · rename_i h1 h2
      rw [h1, h2]
    · obtain rfl := Option.some.inj hl
      exact absurd hab.symm (hid hl')
    · obtain rfl := Option.some.inj hl'
      exact absurd hab (hid hl)
    · exact h.distinct hl hl' hab
  limits := ⟨(sameReader_begin _ k r n).limit.trans h.limits.1, h.limits.2⟩
  up := h.up_begin (hfit.request hr) hfresh n
  down := by
    obtain ⟨l, hc, hmem⟩ := h.down
    exact ⟨l, hc.receiver (sameReader_begin _ k r n), hmem⟩
  handled := h.handled
  jobs := h.jobs
  log := h.log
  ledger := h.ledger
  drained := h.drained
  sound := by
    obtain ⟨hk, -⟩ := values_of_isFresh hfresh
    exact h.sound.begin hk r n
  justified := h.justified.begin k r n
  clientErrors := by
    obtain ⟨l, hc, -⟩ := h.up
    exact broken_of_accounts hc (Client.accounts_begin _ k r n) h.clientErrors
  serverErrors := h.serverErrors

theorem Inv.clientStep (h : x.Inv limit asked offered) {st : Station}
    (hst : Station.Step ⟨x.link.client.channel, x.link.up, x.link.down, .none⟩ st) :
    Inv limit asked offered { x with link := { x.link with
      client := { x.link.client with channel := st.channel }, up := st.out, down := st.into } } :=
  h.client hst.limit (fun _ => rfl) (h.sound.setChannel _) h.justified hst.accounts hst.sends hst.takes

theorem Inv.closeClient (h : x.Inv limit asked offered) :
    Inv limit asked offered { x with link := { x.link with
      client := { x.link.client with channel := x.link.client.channel.close } } } :=
  h.client rfl (fun _ => rfl) (h.sound.setChannel _) h.justified (Channel.accounts_of_settled rfl)
    (fun hc => ⟨_, .refl _, hc.sender ⟨rfl, rfl, rfl⟩⟩)
    (fun hc => ⟨_, .refl _, hc.receiver ⟨rfl, rfl, rfl, rfl⟩⟩)

theorem Inv.abandon (h : x.Inv limit asked offered) (k : CallKey) :
    Inv limit asked offered { x with link := { x.link with client := x.link.client.abandon k } } := by
  have hrequest := Client.request?_abandon x.link.client k
  have haccounts := Client.accounts_abandon x.link.client k
  rcases Client.channel_abandon x.link.client k with he | ⟨t, he⟩
  · refine h.client (by rw [he]) hrequest (h.sound.abandon k) (h.justified.abandon k) haccounts ?_ ?_ <;>
      rw [he]
    · exact fun hc => ⟨_, .refl _, hc⟩
    · exact fun hc => ⟨_, .refl _, hc⟩
  · refine h.client (by rw [he]; rfl) hrequest (h.sound.abandon k) (h.justified.abandon k) haccounts ?_ ?_ <;>
      rw [he]
    · exact fun hc => hc.withdraw t
    · exact fun hc => ⟨_, .refl _, hc.receiver ⟨rfl, rfl, rfl, rfl⟩⟩

theorem Inv.proceed? (h : x.Inv limit asked offered) {k : CallKey} {now : Nat} {client : Client}
    (hp : x.link.client.proceed? k now = some client) :
    Inv limit asked offered { x with link := { x.link with client } } := by
  have he := Client.channel_proceed? hp
  refine h.client (by rw [he]) (Client.request?_proceed? hp) (h.sound.proceed? hp)
    (h.justified.proceed? (fun _ _ => h.clientErrors) hp) (Client.accounts_proceed? hp) ?_ ?_
  · rw [he]
    exact fun hc => ⟨_, .refl _, hc⟩
  · rw [he]
    exact fun hc => ⟨_, .refl _, hc⟩

theorem Inv.request_of_dispatched (h : x.Inv limit asked offered) {e : Request × Option Handler}
    (he : e ∈ x.dispatched) {k : CallKey} {r : Request} (hk : x.link.client.request? k = some r)
    (hid : r.id = e.1.id) : e.1 = resolved r := by
  obtain ⟨l, -, -, hmem⟩ := h.up
  obtain ⟨k', r', hk', hr'⟩ :=
    hmem (.request e.1) (List.mem_append_left l (List.mem_map.mpr ⟨e, he, rfl⟩))
  have heq : e.1 = resolved r' := Message.request.inj hr'
  have hkk : k = k' := h.distinct hk hk' (by rw [hid, heq, id_resolved])
  subst hkk
  rw [hk] at hk'
  rw [heq, Option.some.inj hk']

theorem Inv.receive? (h : x.Inv limit asked offered) {client : Client}
    (hc : x.link.client.receive? = some client) :
    Inv limit asked offered { x with link := { x.link with client } } := by
  have hrequest := Client.request?_receive? hc
  have hsound := h.sound.receive? hc
  obtain ⟨-, ⟨r, channel, hr, rfl⟩ | ⟨r, channel, hr, rfl⟩ | ⟨-, -, rfl⟩⟩ := Client.receive?_eq_some hc
  · obtain ⟨l, hdown, hmem⟩ := h.down
    obtain ⟨l', rfl, -⟩ := hdown.receive? hr
    obtain ⟨e, he, r', hr', hanswers⟩ := hmem _ List.mem_cons_self
    obtain rfl := Message.reply.inj hr'
    refine h.client ?_ hrequest hsound ?_ ?_ ?_ ?_
    · rw [Client.channel_deliver]
      exact (sameWriter_receive? hr).limit
    · refine Client.Justified.deliver (c := { x.link.client with channel }) h.justified
        fun {k call} hk hcall => ?_
      have hid := h.sound.id_eq hk hcall
      have hreq := h.request_of_dispatched he (Client.request?_of_call? hcall) (hid.trans hanswers.1)
      exact ⟨e, he, hreq, r, hanswers, rfl⟩
    · rw [Client.channel_deliver]
      exact Channel.accounts_of_settled (Channel.settled_receive? hr)
    · rw [Client.channel_deliver]
      exact fun hc => ⟨_, .refl _, hc.sender (sameWriter_receive? hr)⟩
    · rw [Client.channel_deliver]
      intro l hc
      obtain ⟨l', rfl, hc'⟩ := hc.receive? hr
      exact ⟨l', List.sublist_cons_self _ _, hc'⟩
  · refine h.client (sameWriter_receive? hr).limit hrequest hsound h.justified
      (Channel.accounts_of_settled (Channel.settled_receive? hr))
      (fun hc => ⟨_, .refl _, hc.sender (sameWriter_receive? hr)⟩) fun {l} hc => ?_
    obtain ⟨l', rfl, hc'⟩ := hc.receive? hr
    exact ⟨l', List.sublist_cons_self _ _, hc'⟩
  · exact h.client rfl hrequest hsound h.justified.cutOff (Channel.accounts_of_settled rfl)
      (fun hc => ⟨_, .refl _, hc⟩) (fun hc => ⟨_, .refl _, hc⟩)

/-! ## The server's acts -/

theorem Inv.serverStep (h : x.Inv limit asked offered) {st : Station} {more : List Message}
    (hst : Station.Step ⟨x.link.server.channel, x.link.down, x.link.up, .none⟩ st)
    (hmore : st.channel.inbound = x.link.server.channel.inbound ++ more) :
    Inv limit asked offered { x with
      link := { x.link with
        server := { x.link.server with channel := st.channel }, down := st.out, up := st.into }
      arrived := x.arrived ++ requests more } := by
  refine h.server hst.limit h.jobs rfl hmore (fun hstopped => hst.ended (h.drained hstopped)) hst.accounts
    hst.takes fun {l} hc => ?_
  obtain ⟨l', hl', hc'⟩ := hst.sends hc
  exact ⟨l', fun m hm => .inl (hl'.subset hm), hc'⟩

theorem Inv.setServer (h : x.Inv limit asked offered) {server : Server}
    (hlimit : server.channel.limit = x.link.server.channel.limit)
    (hjobs : ∀ {k j}, server.jobs.get? k = some j → JobSound x.dispatched j)
    (hlog : server.log = x.link.server.log)
    (hinbound : server.channel.inbound = x.link.server.channel.inbound)
    (hdrained : server.serving = .stopped → server.channel.ended = true)
    (haccounts : x.link.server.channel.Accounts server.channel)
    (hup : ∀ {l}, Carries x.link.client.channel x.link.up x.link.server.channel l →
      ∃ l', l'.Sublist l ∧ Carries x.link.client.channel x.link.up server.channel l')
    (hdown : ∀ {l}, Carries x.link.server.channel x.link.down x.link.client.channel l →
      ∃ l', (∀ m ∈ l', m ∈ l ∨ ∃ e ∈ x.dispatched, ∃ r, m = .reply r ∧ Answers e r) ∧
        Carries server.channel x.link.down x.link.client.channel l') :
    Inv limit asked offered { x with link := { x.link with server } } := by
  have hnothing : server.channel.inbound = x.link.server.channel.inbound ++ [] := by
    rw [hinbound, List.append_nil]
  have hserver := h.server hlimit hjobs hlog hnothing hdrained haccounts hup hdown
  simpa [requests] using hserver

theorem Inv.closeServer (h : x.Inv limit asked offered) :
    Inv limit asked offered { x with link := { x.link with
      server := { x.link.server with channel := x.link.server.channel.close } } } :=
  h.setServer rfl h.jobs rfl rfl h.drained (Channel.accounts_of_settled rfl)
    (fun hc => ⟨_, .refl _, hc.receiver ⟨rfl, rfl, rfl, rfl⟩⟩)
    (fun hc => ⟨_, fun _ hm => .inl hm, hc.sender ⟨rfl, rfl, rfl⟩⟩)

theorem Inv.setReady (h : x.Inv limit asked offered) :
    Inv limit asked offered
      { x with link := { x.link with server := { x.link.server with serving := .ready } } } :=
  h.setServer rfl h.jobs rfl rfl (by simp) (Channel.accounts_of_settled rfl)
    (fun hc => ⟨_, .refl _, hc⟩) (fun hc => ⟨_, fun _ hm => .inl hm, hc⟩)

theorem Inv.stop (h : x.Inv limit asked offered) (hended : x.link.server.channel.ended = true) :
    Inv limit asked offered { x with link := { x.link with server := x.link.server.stop } } := by
  have hempty : x.link.server.channel.inbound = [] := by
    simp only [Channel.ended, Bool.and_eq_true, List.isEmpty_iff] at hended
    exact hended.2
  have hsame : x.link.server.channel.SameReader x.link.server.stop.channel :=
    ⟨rfl, rfl, rfl, hempty.symm⟩
  exact h.setServer rfl h.jobs rfl hempty.symm (fun _ => Station.ended_of_sameReader hsame hended)
    (Channel.accounts_of_settled rfl) (fun hc => hc.neglect)
    (fun hc => ⟨_, fun _ hm => .inl hm, hc.sender ⟨rfl, rfl, rfl⟩⟩)

theorem JobSound.append {dispatched : List (Request × Option Handler)} {j : Job}
    (h : JobSound dispatched j) (more : List (Request × Option Handler)) :
    JobSound (dispatched ++ more) j := by
  rcases h with ⟨due, effort, h, ms, hstage, hmem, hreact⟩ | h
  · exact .inl ⟨due, effort, h, ms, hstage, List.mem_append_left more hmem, hreact⟩
  · exact .inr h

theorem Inv.asked_of_dispatched (h : x.Inv limit asked offered) {e : Request × Option Handler}
    (he : e ∈ x.dispatched) : ∃ r, asked r ∧ e.1 = resolved r := by
  obtain ⟨l, -, -, hmem⟩ := h.up
  obtain ⟨k, r, hk, hr⟩ :=
    hmem (.request e.1) (List.mem_append_left l (List.mem_map.mpr ⟨e, he, rfl⟩))
  exact ⟨r, h.begun hk, Message.request.inj hr⟩

theorem Inv.take (h : x.Inv limit asked offered) {r : Request} {channel : Channel} {server : Server}
    (hr : x.link.server.channel.receive? = some (.request r, channel))
    (hreader : channel.SameReader server.channel)
    (hjobs : ∀ {k j}, server.jobs.get? k = some j →
      JobSound (x.dispatched ++ [(r, x.handlers.get? r.subject)]) j)
    (hgoing : server.serving ≠ .stopped)
    (hlog : server.log = ((x.handlers.get? r.subject).map fun h => Event.invoked h.label r).toList ++
      x.link.server.log)
    (haccounts : channel.Accounts server.channel)
    (hdown : ∀ {l}, Carries channel x.link.down x.link.client.channel l → ∃ l',
      (∀ m ∈ l', m ∈ l ∨ ∃ reply, m = .reply reply ∧ Answers (r, x.handlers.get? r.subject) reply) ∧
        Carries server.channel x.link.down x.link.client.channel l') :
    Inv limit asked offered { x with
      link := { x.link with server }, dispatched := x.dispatched ++ [(r, x.handlers.get? r.subject)] } where
  registered := h.registered
  begun := h.begun
  distinct := h.distinct
  limits := ⟨h.limits.1, hreader.limit.trans ((sameWriter_receive? hr).limit.trans h.limits.2)⟩
  up := by
    obtain ⟨l, hc, hnodup, hmem⟩ := h.up
    obtain ⟨l', rfl, hc'⟩ := hc.receive? hr
    refine ⟨l', hc'.receiver hreader, ?_, ?_⟩
    · simpa [sent] using hnodup
    · simpa [sent, or_assoc] using hmem
  down := by
    obtain ⟨l, hc, hmem⟩ := h.down
    obtain ⟨l', hl', hc'⟩ := hdown (hc.sender (sameWriter_receive? hr))
    refine ⟨l', hc', fun m hm => ?_⟩
    rcases hl' m hm with hm | ⟨reply, rfl, hanswers⟩
    · obtain ⟨e, he, hrest⟩ := hmem m hm
      exact ⟨e, List.mem_append_left _ he, hrest⟩
    · exact ⟨_, List.mem_append_right _ List.mem_cons_self, reply, rfl, hanswers⟩
  handled {r' h'} hmem := by
    rcases List.mem_append.mp hmem with hmem | hmem
    · exact h.handled hmem
    · obtain ⟨rfl, hh⟩ := Prod.mk.inj (List.mem_singleton.mp hmem)
      exact h.registered hh.symm
  jobs := hjobs
  log := by
    rw [hlog, List.reverse_append, h.log, List.filterMap_append]
    cases x.handlers.get? r.subject <;> rfl
  ledger := by
    obtain ⟨rest, hin, rfl⟩ := Channel.receive?_eq_some hr
    rw [h.ledger, hin, hreader.inbound]
    simp [requests]
  drained hstopped := absurd hstopped hgoing
  sound := h.sound
  justified := h.justified.mono fun _ _ _ hdue => hdue.append _
  clientErrors := h.clientErrors
  serverErrors := by
    obtain ⟨l, hc, -⟩ := h.down
    refine broken_of_accounts (hc.sender (sameWriter_receive? hr)) haccounts fun {t e} he => ?_
    rw [Channel.outcome?, Channel.settled_receive? hr] at he
    exact h.serverErrors he

theorem dispatch_none {s : Server} {handlers : Handlers} {r : Request} (now : Nat)
    (h : handlers.get? r.subject = none) : s.dispatch handlers now r = { s with
      channel := (s.channel.submit (.reply ⟨r.id, (refusal r).1, (refusal r).2⟩)).2
      serving := .refusing (s.channel.submit (.reply ⟨r.id, (refusal r).1, (refusal r).2⟩)).1 } := by
  unfold Server.dispatch
  rw [h]
  rfl

theorem dispatch_works {s : Server} {handlers : Handlers} {r : Request} {h : Handler} {ms : Nat}
    {effort : Effort} (now : Nat) (hh : handlers.get? r.subject = some h)
    (hworks : h.react r = .works ms effort) : s.dispatch handlers now r = { s with
      log := .invoked h.label r :: s.log
      jobs := s.jobs.insert s.nextJob ⟨r, .working (now + ms) effort⟩
      nextJob := s.nextJob + 1 } := by
  unfold Server.dispatch
  simp only [hh, hworks]
  rfl

theorem Inv.fits_refusal (h : x.Inv limit asked offered) (hfit : Fitting limit asked offered)
    {r : Request} {channel : Channel}
    (hr : x.link.server.channel.receive? = some (.request r, channel)) :
    Fits limit (.reply ⟨r.id, (refusal r).1, (refusal r).2⟩) := by
  obtain ⟨l, hup, -, hmem⟩ := h.up
  obtain ⟨l', rfl, -⟩ := hup.receive? hr
  obtain ⟨k, r', hk, hr'⟩ := hmem (.request r) (by simp)
  have hreply := Messaging.fits_refusal (hfit.request (h.begun hk))
  obtain rfl := Message.request.inj hr'
  rw [id_resolved]
  simpa [refusal] using hreply

theorem Inv.dispatch (h : x.Inv limit asked offered) (hfit : Fitting limit asked offered) {r : Request}
    {channel : Channel} (now : Nat) (hready : x.link.server.serving = .ready)
    (hr : x.link.server.channel.receive? = some (.request r, channel)) :
    Inv limit asked offered { x with
      link := { x.link with server := { x.link.server with channel }.dispatch x.handlers now r }
      dispatched := x.dispatched ++ [(r, x.handlers.get? r.subject)] } := by
  have hjobs : ∀ {k j}, x.link.server.jobs.get? k = some j →
      JobSound (x.dispatched ++ [(r, x.handlers.get? r.subject)]) j := fun hj => (h.jobs hj).append _
  cases hh : x.handlers.get? r.subject with
  | none =>
    rw [← hh, dispatch_none now hh]
    apply h.take hr
    · exact sameReader_submit _ _
    · exact hjobs
    · simp
    · rw [hh]
      rfl
    · exact Channel.accounts_submit _ _
    · intro l hc
      have hfits := h.fits_refusal hfit hr
      rw [← h.limits.1] at hfits
      obtain ⟨l', hl', hc'⟩ := hc.submit hfits
      refine ⟨l', fun m hm => ?_, hc'⟩
      rcases hl' with rfl | rfl
      · exact .inl hm
      · rcases List.mem_append.mp hm with hm | hm
        · exact .inl hm
        · rw [List.mem_singleton.mp hm]
          exact .inr ⟨_, rfl, rfl, by rw [hh]⟩
  | some handler =>
    obtain ⟨ms, effort, hworks⟩ := Handler.works_of_adapted (hfit.adapted (h.registered hh)) r
    rw [← hh, dispatch_works now hh hworks]
    apply h.take hr
    · exact ⟨rfl, rfl, rfl, rfl⟩
    · intro k j hj
      simp only [Table.get?_insert] at hj
      split at hj
      · obtain rfl := Option.some.inj hj
        refine .inl ⟨now + ms, effort, handler, ms, rfl, List.mem_append_right _ ?_, hworks⟩
        rw [hh]
        exact List.mem_cons_self
      · exact hjobs hj
    · simp [hready]
    · rw [hh]
      rfl
    · exact Channel.accounts_of_settled rfl
    · exact fun hc => ⟨_, fun _ hm => .inl hm, hc⟩

theorem dispatches_request {r : Request} {channel : Channel} (hserving : x.link.server.serving = .ready)
    (hr : x.link.server.channel.receive? = some (.request r, channel)) :
    x.dispatches (.server .serves) = [(r, x.handlers.get? r.subject)] := by
  simp only [dispatches, hserving, hr]

theorem Inv.serve? (h : x.Inv limit asked offered) (hfit : Fitting limit asked offered) {now : Nat}
    {server : Server} (hs : x.link.server.serve? x.handlers now = some server) :
    Inv limit asked offered { x with
      link := { x.link with server }, dispatched := x.dispatched ++ x.dispatches (.server .serves) } := by
  unfold Server.serve? at hs
  split at hs
  · simp at hs
  · rename_i t hserving
    obtain ⟨-, -, rfl⟩ := Option.map_eq_some_iff.mp hs
    have hnothing : x.dispatches (.server .serves) = [] := by simp only [dispatches, hserving]
    rw [hnothing, List.append_nil]
    exact h.setReady
  · rename_i hserving
    split at hs
    · rename_i r channel hr
      obtain rfl := Option.some.inj hs
      rw [dispatches_request hserving hr]
      exact h.dispatch hfit now hserving hr
    · rename_i r channel hr
      obtain ⟨l, hup, -, hmem⟩ := h.up
      obtain ⟨l', rfl, -⟩ := hup.receive? hr
      obtain ⟨k, r', -, hr'⟩ := hmem (.reply r) (by simp)
      simp at hr'
    · rename_i hnone
      split at hs
      · rename_i hended
        obtain rfl := Option.some.inj hs
        have hnothing : x.dispatches (.server .serves) = [] := by
          simp only [dispatches, hserving, hnone]
        rw [hnothing, List.append_nil]
        exact h.stop hended
      · simp at hs

theorem Inv.setStage (h : x.Inv limit asked offered) {k : JobKey} {stage : Stage}
    (hstage : (∃ t, stage = .answering t) ∨ stage = .done) :
    Inv limit asked offered { x with link := { x.link with server := x.link.server.setStage k stage } } := by
  refine h.setServer rfl (fun {l j} hj => ?_) rfl rfl h.drained (Channel.accounts_of_settled rfl)
    (fun hc => ⟨_, .refl _, hc⟩) (fun hc => ⟨_, fun _ hm => .inl hm, hc⟩)
  simp only [Server.setStage, Table.get?_modify] at hj
  split at hj
  · obtain ⟨i, -, rfl⟩ := Option.map_eq_some_iff.mp hj
    exact .inr hstage
  · exact h.jobs hj

theorem Inv.reply (h : x.Inv limit asked offered) {e : Request × Option Handler} (he : e ∈ x.dispatched)
    {r : Reply} (hanswers : Answers e r) (hfits : Fits limit (.reply r)) :
    Inv limit asked offered { x with link := { x.link with
      server := (x.link.server.reply e.1 (r.status, r.payload)).2 } } := by
  have heq : (x.link.server.reply e.1 (r.status, r.payload)).2 =
      { x.link.server with channel := (x.link.server.channel.submit (.reply r)).2 } := by
    rw [Server.reply, ← hanswers.1]
  rw [heq]
  have hsame := sameReader_submit x.link.server.channel (.reply r)
  have hdrained := fun hstopped => Station.ended_of_sameReader hsame (h.drained hstopped)
  refine h.setServer hsame.limit h.jobs rfl hsame.inbound hdrained (Channel.accounts_submit _ _)
    (fun hc => ⟨_, .refl _, hc.receiver hsame⟩) fun {l} hc => ?_
  obtain ⟨l', hl', hc'⟩ := hc.submit (m := .reply r) (by rwa [h.limits.1])
  refine ⟨l', fun m hm => ?_, hc'⟩
  rcases hl' with rfl | rfl
  · exact .inl hm
  · rcases List.mem_append.mp hm with hm | hm
    · exact .inl hm
    · exact .inr ⟨e, he, r, List.mem_singleton.mp hm, hanswers⟩

theorem Inv.fits_reply (h : x.Inv limit asked offered) (hfit : Fitting limit asked offered) {r : Request}
    {handler : Handler} (hmem : (r, some handler) ∈ x.dispatched) {ms : Nat} {effort : Effort}
    (hreact : handler.react r = .works ms effort) :
    Fits limit (.reply ⟨r.id, effort.reply.1, effort.reply.2⟩) := by
  obtain ⟨asking, hr, hreq⟩ := h.asked_of_dispatched hmem
  simp only at hreq
  have hoffered := h.handled hmem
  rw [hreq, subject_resolved] at hoffered
  rw [hreq] at hreact
  rw [hreq, id_resolved]
  exact hfit.reply hr hoffered hreact

theorem Inv.work? (h : x.Inv limit asked offered) (hfit : Fitting limit asked offered) {k : JobKey}
    {now : Nat} {server : Server} (hs : x.link.server.work? k now = some server) :
    Inv limit asked offered { x with link := { x.link with server } } := by
  unfold Server.work? at hs
  split at hs
  · simp at hs
  · rename_i j hj
    rcases h.jobs hj with ⟨due, effort, handler, ms, hstage, hmem, hreact⟩ | ⟨t, hstage⟩ | hstage
    · simp only [hstage] at hs
      split at hs
      · obtain rfl := Option.some.inj hs
        have hreply := h.reply hmem (r := ⟨j.request.id, effort.reply.1, effort.reply.2⟩)
          ⟨rfl, ms, effort, hreact, rfl⟩ (h.fits_reply hfit hmem hreact)
        exact hreply.setStage (.inl ⟨_, rfl⟩)
      · simp at hs
    · simp only [hstage] at hs
      split at hs
      · simp at hs
      · rename_i size lim hcodec
        rcases h.serverErrors hcodec with he | he <;> simp at he
      · obtain rfl := Option.some.inj hs
        exact h.setStage (.inr rfl)
    · simp [hstage] at hs

/-! ## Every act -/

theorem Inv.clientMove (h : x.Inv limit asked offered) {now : Nat} {m : ClientMove} {l : Link}
    (hm : x.link.move? x.handlers now (.client m) = some l) :
    Inv limit asked offered { x with link := l } := by
  obtain ⟨e, he, rfl⟩ := Option.map_eq_some_iff.mp hm
  cases m with
  | reads n =>
    obtain ⟨st, hst, rfl⟩ := Option.map_eq_some_iff.mp he
    exact h.clientStep (Station.step_read? rfl hst)
  | notices =>
    obtain ⟨st, hst, rfl⟩ := Option.map_eq_some_iff.mp he
    exact h.clientStep (Station.step_notice? hst)
  | writes n =>
    obtain ⟨st, hst, rfl⟩ := Option.map_eq_some_iff.mp he
    exact h.clientStep (Station.step_write? rfl hst)
  | receives =>
    obtain ⟨client, hc, rfl⟩ := Option.map_eq_some_iff.mp he
    exact h.receive? hc
  | proceeds k =>
    obtain ⟨client, hc, rfl⟩ := Option.map_eq_some_iff.mp he
    exact h.proceed? hc

theorem Inv.serverChannel (h : x.Inv limit asked offered) {st : Station}
    (hst : Station.Step ⟨x.link.server.channel, x.link.down, x.link.up, .none⟩ st) :
    Inv limit asked offered { x with
      link := { x.link with
        server := { x.link.server with channel := st.channel }, down := st.out, up := st.into }
      arrived := x.arrived ++
        requests (st.channel.inbound.drop x.link.server.channel.inbound.length) } := by
  obtain ⟨more, hmore⟩ := hst.inbound
  rw [hmore, List.drop_left]
  exact h.serverStep hst hmore

theorem Inv.serverMove (h : x.Inv limit asked offered) (hfit : Fitting limit asked offered) {now : Nat}
    {m : ServerMove} {l : Link} (hm : x.link.move? x.handlers now (.server m) = some l) :
    Inv limit asked offered { x with
      link := l
      arrived := x.arrived ++ x.arrives l (.server m)
      dispatched := x.dispatched ++ x.dispatches (.server m) } := by
  obtain ⟨e, he, rfl⟩ := Option.map_eq_some_iff.mp hm
  cases m with
  | reads n =>
    obtain ⟨st, hst, rfl⟩ := Option.map_eq_some_iff.mp he
    simp only [arrives, dispatches, List.append_nil]
    exact h.serverChannel (Station.step_read? rfl hst)
  | notices =>
    obtain ⟨st, hst, rfl⟩ := Option.map_eq_some_iff.mp he
    simp only [arrives, dispatches, List.append_nil]
    exact h.serverChannel (Station.step_notice? hst)
  | writes n =>
    obtain ⟨st, hst, rfl⟩ := Option.map_eq_some_iff.mp he
    simp only [arrives, dispatches, List.append_nil]
    exact h.serverChannel (Station.step_write? rfl hst)
  | serves =>
    obtain ⟨server, hs, rfl⟩ := Option.map_eq_some_iff.mp he
    simp only [arrives, List.append_nil]
    exact h.serve? hfit hs
  | works k =>
    obtain ⟨server, hs, rfl⟩ := Option.map_eq_some_iff.mp he
    simp only [arrives, dispatches, List.append_nil]
    exact h.work? hfit hs

/-- An act begins only what is asked, and registers only what is offered. -/
def Within (asked : Request → Prop) (offered : String → Handler → Prop) : LinkAct → Prop
  | .begins _ r _ => asked r
  | .registers subject h => offered subject h
  | _ => True

theorem Inv.act (h : x.Inv limit asked offered) (hfit : Fitting limit asked offered) {a : LinkAct}
    (ha : Within asked offered a) : (x.act a).Inv limit asked offered := by
  cases a with
  | begins k r n =>
    simp only [Exchange.act]
    split
    · rename_i hfresh
      exact h.begin hfit ha hfresh n
    · exact h
  | abandons k => exact h.abandon k
  | registers subject handler =>
    refine { h with registered := fun {s g} hg => ?_ }
    simp only [Exchange.act, Table.get?_insert] at hg
    split at hg
    · rename_i hs
      rw [← Option.some.inj hg, hs]
      exact ha
    · exact h.registered hg
  | unregisters subject =>
    refine { h with registered := fun {s g} hg => ?_ }
    simp only [Exchange.act, Table.get?_erase] at hg
    split at hg
    · simp at hg
    · exact h.registered hg
  | closesClient => exact h.closeClient
  | closesServer => exact h.closeServer
  | moves now m =>
    simp only [Exchange.act]
    split
    · exact h
    · rename_i l hl
      cases m with
      | client m =>
        have hmove := h.clientMove hl
        simpa only [arrives, dispatches, List.append_nil] using hmove
      | server m => exact h.serverMove hfit hl

theorem Inv.run (h : x.Inv limit asked offered) (hfit : Fitting limit asked offered) {acts : List LinkAct}
    (hacts : ∀ a ∈ acts, Within asked offered a) : (x.run acts).Inv limit asked offered := by
  induction acts generalizing x with
  | nil => exact h
  | cons a acts ih =>
    exact ih (h.act hfit (hacts a List.mem_cons_self)) fun b hb => hacts b (List.mem_cons_of_mem a hb)

end Exchange

end ClusterNet.Messaging
