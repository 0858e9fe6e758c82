import ClusterNet.Messaging.Link
import ClusterNet.Proofs.Calls
import ClusterNet.Proofs.LengthFields
import ClusterNet.Proofs.Passages
import ClusterNet.Proofs.Tending

/-!
# Full queues wedge nothing

A client and a server joined by a stream, where every queue and both directions of the stream are
bounded. Callers send as much as they like, and handlers reply as they like. Beside the state stand
four accounts: what has come into the queue of the client and what of it the server took, and what
was handed to the channel of the server and what of it the client took.
-/

namespace ClusterNet.Messaging

open Wire

/-! ## What may happen -/

inductive TrafficAct where
  | calls (k : CallKey) (r : Request) (patience : Nat)
  /-- A request for which no reply is expected. -/
  | sends (r : Request)
  | abandons (k : CallKey)
  /-- Whoever sent a message gives up. -/
  | withdraws (t : Ticket)
  /-- From now on the server has these handlers. -/
  | handles (handlers : Handlers)
  | moves (now : Nat) (m : Move)

structure Traffic where
  link : Link
  handlers : Handlers
  /-- What has come into the queue of the client. -/
  entered : List Message
  /-- The requests that the server took. -/
  dispatched : List Message
  /-- What was handed to the channel of the server. -/
  handed : List Message
  /-- The replies that the client took. -/
  processed : List Message

namespace Traffic

def start (limit clientCapacity serverCapacity upRoom downRoom : Nat) : Traffic :=
  ⟨⟨.ofChannel (.start limit clientCapacity), .ofChannel (.start limit serverCapacity), .ofCapacity upRoom,
    .ofCapacity downRoom⟩, .empty, [], [], [], []⟩

/-- The link has changed, and what is new in the queues is put down. -/
def become (t : Traffic) (l : Link) : Traffic :=
  { t with
    link := l
    entered := t.entered ++ joined t.link.client.channel.outbound l.client.channel.outbound
    handed := t.handed ++ joined t.link.server.channel.parcels l.server.channel.parcels }

/-- What the server takes by a move. -/
def dispatches (t : Traffic) : Move → List Message
  | .server .serves =>
    match t.link.server.serving, t.link.server.channel.receive? with
    | .ready, some (.request r, _) => [.request r]
    | _, _ => []
  | _ => []

/-- What the client takes by a move. -/
def processes (t : Traffic) : Move → List Message
  | .client .receives =>
    match t.link.client.channel.receive? with
    | some (.reply r, _) => [.reply r]
    | _ => []
  | _ => []

/-- What either end takes by a move is put down. -/
def takes (t : Traffic) (m : Move) : Traffic :=
  { t with
    dispatched := t.dispatched ++ t.dispatches m
    processed := t.processed ++ t.processes m }

/-- What is not possible now changes nothing. -/
def act (t : Traffic) : TrafficAct → Traffic
  | .calls k r n => t.become { t.link with client := t.link.client.begin k r n }
  | .sends r => t.become { t.link with client := { t.link.client with
      channel := (t.link.client.channel.submit (.request r)).2 } }
  | .abandons k => t.become { t.link with client := t.link.client.abandon k }
  | .withdraws u => t.become { t.link with client := { t.link.client with
      channel := t.link.client.channel.withdraw u } }
  | .handles handlers => { t with handlers }
  | .moves now m =>
    match t.link.move? t.handlers now m with
    | none => t
    | some l => (t.takes m).become l

/-- No handler breaks off before there is any work to wait for, and takes the server down with it. -/
def Lasting (handlers : Handlers) : Prop :=
  ∀ s h r, handlers.get? s = some h → h.react r ≠ .breaksOff

/-- The states to which callers, handlers and the parts of the link bring the two ends. -/
inductive Reached (limit clientCapacity serverCapacity upRoom downRoom : Nat) : Traffic → Prop where
  | start : Reached limit clientCapacity serverCapacity upRoom downRoom
      (start limit clientCapacity serverCapacity upRoom downRoom)
  | acts {t : Traffic} {a : TrafficAct}
      (before : Reached limit clientCapacity serverCapacity upRoom downRoom t)
      (lasting : ∀ handlers, a = .handles handlers → Lasting handlers) :
      Reached limit clientCapacity serverCapacity upRoom downRoom (t.act a)

theorem Reached.run {limit clientCapacity serverCapacity upRoom downRoom : Nat} {acts : List TrafficAct} :
    ∀ {t : Traffic}, Reached limit clientCapacity serverCapacity upRoom downRoom t →
      (∀ a ∈ acts, ∀ handlers, a = .handles handlers → Lasting handlers) →
        Reached limit clientCapacity serverCapacity upRoom downRoom (acts.foldl act t) := by
  induction acts with
  | nil => exact fun h _ => h
  | cons a acts ih =>
    intro t h hacts
    exact ih (h.acts (hacts a List.mem_cons_self)) fun b hb => hacts b (List.mem_cons_of_mem a hb)

/-! ## What always holds -/

structure Inv (limit : Nat) (t : Traffic) : Prop where
  client : t.link.client.channel.Going
  server : t.link.server.channel.Going
  capacity : 0 < t.link.client.channel.capacity ∧ 0 < t.link.server.channel.capacity
  room : 0 < t.link.up.capacity ∧ 0 < t.link.down.capacity
  receiving : t.link.client.receiving = true
  serving : t.link.server.serving ≠ .stopped
  /-- The refusal for which the server waits was handed over. -/
  refusing : ∀ u, t.link.server.serving = .refusing u → u < t.link.server.channel.nextTicket
  lasting : Lasting t.handlers
  up : ∃ gone, Queued t.link.client.channel t.entered gone ∧
    Passage limit gone t.link.client.channel t.link.up t.link.server.channel t.dispatched
  down : ∃ gone, Ledger limit t.handed t.link.server.channel gone ∧
    Passage limit gone t.link.server.channel t.link.down t.link.client.channel t.processed
  replies : ∀ m ∈ t.handed, ∃ r, m = .reply r

variable {limit clientCapacity serverCapacity upRoom downRoom : Nat} {t : Traffic}

theorem inv_start (limit : Nat) (hclient : 0 < clientCapacity) (hserver : 0 < serverCapacity) (hup : 0 < upRoom)
    (hdown : 0 < downRoom) : (start limit clientCapacity serverCapacity upRoom downRoom).Inv limit where
  client := going_start limit clientCapacity
  server := going_start limit serverCapacity
  capacity := ⟨hclient, hserver⟩
  room := ⟨hup, hdown⟩
  receiving := rfl
  serving := by simp [start, Server.ofChannel]
  refusing u h := by simp [start, Server.ofChannel] at h
  lasting s h r hs := by simp [start] at hs
  up := ⟨[], .start limit clientCapacity, .start limit clientCapacity serverCapacity upRoom⟩
  down := ⟨[], .start limit serverCapacity, .start limit serverCapacity clientCapacity downRoom⟩
  replies := by simp [start]

theorem takes_eq {m : Move} (hd : t.dispatches m = []) (hp : t.processes m = []) : t.takes m = t := by
  rw [takes, hd, hp, List.append_nil, List.append_nil]

theorem append_joined_self (ms : List Message) (l : List Parcel) : ms ++ joined l l = ms := by
  rw [joined_eq_nil fun _ => id, List.append_nil]

/-! ## Callers -/

theorem Inv.setClient (h : t.Inv limit) {client : Client} (hgoing : client.channel.Going)
    (hreader : t.link.client.channel.SameReader client.channel)
    (hwriter : client.channel.writer = t.link.client.channel.writer)
    (hcapacity : client.channel.capacity = t.link.client.channel.capacity)
    (hreceiving : client.receiving = t.link.client.receiving)
    (hqueued : ∀ {gone}, Queued t.link.client.channel t.entered gone → Queued client.channel
      (t.entered ++ joined t.link.client.channel.outbound client.channel.outbound) gone) :
    (t.become { t.link with client }).Inv limit := by
  obtain ⟨gone, hqueue, hup⟩ := h.up
  obtain ⟨gone', hledger, hdown⟩ := h.down
  have hhanded := append_joined_self t.handed t.link.server.channel.parcels
  exact {
    client := hgoing
    server := h.server
    capacity := ⟨Nat.lt_of_lt_of_eq h.capacity.1 hcapacity.symm, h.capacity.2⟩
    room := h.room
    receiving := hreceiving.trans h.receiving
    serving := h.serving
    refusing := h.refusing
    lasting := h.lasting
    up := ⟨gone, hqueued hqueue, hup.sender_eq hreader.limit hwriter⟩
    down := ⟨gone', by rw [become, hhanded]; exact hledger, hdown.receiver_eq hreader⟩
    replies := by rw [become, hhanded]; exact h.replies }

theorem Inv.sends (h : t.Inv limit) {client : Client} {r : Request}
    (hchannel : client.channel = (t.link.client.channel.submit (.request r)).2)
    (hreceiving : client.receiving = t.link.client.receiving) :
    (t.become { t.link with client }).Inv limit := by
  obtain ⟨outbound, blocked, settled, he⟩ := Channel.submit_eq t.link.client.channel (.request r)
  refine h.setClient (by rw [hchannel]; exact h.client.submit _) ?_ ?_ ?_ hreceiving fun hqueue => ?_
  · rw [hchannel]
    exact sameReader_submit _ _
  · rw [hchannel, he]
  · rw [hchannel, he]
  · rw [hchannel]
    exact hqueue.submit h.client.closed r

theorem Inv.withdraws (h : t.Inv limit) {client : Client} {u : Ticket}
    (hchannel : client.channel = t.link.client.channel.withdraw u)
    (hreceiving : client.receiving = t.link.client.receiving) :
    (t.become { t.link with client }).Inv limit := by
  have hclient := h.client
  refine h.setClient ?_ ?_ ?_ ?_ hreceiving fun hqueue => ?_
  · rw [hchannel]
    exact ⟨hclient.closed, hclient.held, hclient.attended, hclient.writer, hclient.reader⟩
  · rw [hchannel]
    exact ⟨rfl, rfl, rfl, rfl⟩
  · rw [hchannel]
    rfl
  · rw [hchannel]
    rfl
  · rw [hchannel]
    exact hqueue.shrink rfl List.filter_sublist rfl

theorem Inv.sameChannel (h : t.Inv limit) {client : Client} (hchannel : client.channel = t.link.client.channel)
    (hreceiving : client.receiving = t.link.client.receiving) :
    (t.become { t.link with client }).Inv limit := by
  refine h.setClient (by rw [hchannel]; exact h.client) (by rw [hchannel]; exact ⟨rfl, rfl, rfl, rfl⟩)
    (by rw [hchannel]) (by rw [hchannel]) hreceiving fun hqueue => ?_
  rw [hchannel]
  exact hqueue.shrink rfl (List.Sublist.refl _) rfl

/-! ## The client's parts -/

theorem Inv.clientWrites (h : t.Inv limit) (hexp : ∀ m ∈ t.entered, Expressible limit m) {w : Station} {n : Nat}
    (hw : (Station.mk t.link.client.channel t.link.up t.link.down .none).write? n = some w) :
    (t.become { t.link with
      client := { t.link.client with channel := w.channel }, up := w.out, down := w.into }).Inv limit := by
  obtain ⟨gone, hqueue, hup⟩ := h.up
  obtain ⟨gone', hledger, hdown⟩ := h.down
  have hhanded := append_joined_self t.handed t.link.server.channel.parcels
  obtain ⟨b, popped, hwrote, hmoved⟩ :=
    Passage.write? (w := ⟨t.link.client.channel, t.link.up, t.link.down, .none⟩) hup rfl hw
  have hpopped : ∀ m ∈ popped, Expressible limit m := by
    intro m hm
    rcases hwrote.parcels_cases h.client with ⟨rfl, -, -⟩ | ⟨q, rest, hfirst, rfl, -, -⟩
    · exact absurd hm List.not_mem_nil
    · refine hexp m ?_
      rw [hqueue.split, List.mem_singleton.mp hm]
      exact List.mem_append_right _ (List.mem_map_of_mem (hfirst ▸ List.mem_cons_self))
  have hsame := hwrote.sameReader
  exact {
    client := hwrote.going_of_going h.client
    server := h.server
    capacity := ⟨Nat.lt_of_lt_of_eq h.capacity.1 hwrote.capacity_eq.symm, h.capacity.2⟩
    room := ⟨Nat.lt_of_lt_of_eq h.room.1 hmoved.outCapacity.symm, Nat.lt_of_lt_of_eq h.room.2 hmoved.intoCapacity.symm⟩
    receiving := h.receiving
    serving := h.serving
    refusing := h.refusing
    lasting := h.lasting
    up := ⟨gone ++ popped, hqueue.wrote hwrote h.client, hup.out_of_write hwrote hmoved hpopped⟩
    down := ⟨gone', by rw [become, hhanded]; exact hledger, hdown.into_of_write hwrote hmoved⟩
    replies := by rw [become, hhanded]; exact h.replies }

theorem Inv.clientReads (h : t.Inv limit) {w : Station} {n : Nat}
    (hw : (Station.mk t.link.client.channel t.link.up t.link.down .none).read? n = some w) :
    (t.become { t.link with
      client := { t.link.client with channel := w.channel }, up := w.out, down := w.into }).Inv limit := by
  obtain ⟨gone, hqueue, hup⟩ := h.up
  obtain ⟨gone', hledger, hdown⟩ := h.down
  have hhanded := append_joined_self t.handed t.link.server.channel.parcels
  obtain ⟨b, hread, hmoved⟩ := Station.read_read? rfl hw
  have hsame := hread.sameSender
  have hblocked : w.channel.blocked.Sublist t.link.client.channel.blocked := by rw [hsame.blocked]
  have hdown' : Passage limit gone' t.link.server.channel w.into w.channel t.processed :=
    Passage.into_of_read (w := ⟨t.link.client.channel, t.link.up, t.link.down, .none⟩) hdown hread hmoved
      h.client.attended
  exact {
    client := h.client.sameSender hsame (hdown'.going h.server.writer)
    server := h.server
    capacity := ⟨Nat.lt_of_lt_of_eq h.capacity.1 hsame.capacity.symm, h.capacity.2⟩
    room := ⟨Nat.lt_of_lt_of_eq h.room.1 hmoved.outCapacity.symm, Nat.lt_of_lt_of_eq h.room.2 hmoved.intoCapacity.symm⟩
    receiving := h.receiving
    serving := h.serving
    refusing := h.refusing
    lasting := h.lasting
    up := ⟨gone, hqueue.shrink hsame.outbound hblocked hsame.nextTicket,
      Passage.out_of_read (w := ⟨t.link.client.channel, t.link.up, t.link.down, .none⟩) hup hsame hmoved⟩
    down := ⟨gone', by rw [become, hhanded]; exact hledger, hdown'⟩
    replies := by rw [become, hhanded]; exact h.replies }

theorem Inv.reply_of_receive? (h : t.Inv limit) {m : Message} {channel : Channel}
    (hr : t.link.client.channel.receive? = some (m, channel)) : ∃ r, m = .reply r := by
  obtain ⟨gone, hledger, hdown⟩ := h.down
  obtain ⟨lost, hsplit, -⟩ := hledger.split
  obtain ⟨a, ha, rfl⟩ := List.mem_map.mp (hdown.mem_of_receive? hr)
  have hhanded : a ∈ t.handed := by
    rw [hsplit]
    exact List.mem_append_left _ (List.mem_append_left _ (List.mem_of_mem_filter ha))
  obtain ⟨r, rfl⟩ := h.replies a hhanded
  exact ⟨r, rfl⟩

theorem Inv.request_of_receive? (h : t.Inv limit) {m : Message} {channel : Channel}
    (hr : t.link.server.channel.receive? = some (m, channel)) : ∃ r, m = .request r := by
  obtain ⟨gone, hqueue, hup⟩ := h.up
  obtain ⟨a, ha, rfl⟩ := List.mem_map.mp (hup.mem_of_receive? hr)
  have hentered : a ∈ t.entered := by
    rw [hqueue.split]
    exact List.mem_append_left _ (List.mem_of_mem_filter ha)
  obtain ⟨r, rfl⟩ := hqueue.entered a hentered
  exact ⟨resolved r, rfl⟩

theorem Inv.clientReceives (h : t.Inv limit) {client : Client} (hd : t.link.client.receive? = some client) :
    ((t.takes (.client .receives)).become { t.link with client }).Inv limit := by
  obtain ⟨gone, hqueue, hup⟩ := h.up
  obtain ⟨gone', hledger, hdown⟩ := h.down
  have hhanded := append_joined_self t.handed t.link.server.channel.parcels
  have hclient := h.client
  obtain ⟨-, ⟨r, channel, hr, rfl⟩ | ⟨r, channel, hr, rfl⟩ | ⟨-, hended, -⟩⟩ := Client.receive?_eq_some hd
  · have htakes : t.takes (.client .receives) = { t with processed := t.processed ++ [.reply r] } := by
      unfold takes processes dispatches
      rw [hr, List.append_nil]
    have hdown' := hdown.receive? hr
    have hgoing := hclient.receive? hr
    obtain ⟨rest, -, rfl⟩ := Channel.receive?_eq_some hr
    rw [htakes]
    exact {
      client := by rw [become, Client.channel_deliver]; exact hgoing
      server := h.server
      capacity := ⟨by rw [become, Client.channel_deliver]; exact h.capacity.1, h.capacity.2⟩
      room := h.room
      receiving := by rw [become, Client.receiving_deliver]; exact h.receiving
      serving := h.serving
      refusing := h.refusing
      lasting := h.lasting
      up := ⟨gone, by
        rw [become, Client.channel_deliver]
        exact ⟨hqueue.shrink rfl (List.Sublist.refl _) rfl, hup.sender_eq rfl rfl⟩⟩
      down := ⟨gone', by
        rw [become, hhanded, Client.channel_deliver]
        exact ⟨hledger, hdown'⟩⟩
      replies := by rw [become, hhanded]; exact h.replies }
  · obtain ⟨r', hr'⟩ := h.reply_of_receive? hr
    cases hr'
  · rw [hclient.ended] at hended
    cases hended

/-! ## The server's parts -/

theorem Inv.setServer (h : t.Inv limit) {server : Server} (hgoing : server.channel.Going)
    (hreader : t.link.server.channel.SameReader server.channel)
    (hwriter : server.channel.writer = t.link.server.channel.writer)
    (hcapacity : server.channel.capacity = t.link.server.channel.capacity) (hserving : server.serving ≠ .stopped)
    (hrefusing : ∀ u, server.serving = .refusing u → u < server.channel.nextTicket)
    (hhanded : ∀ {gone}, Ledger limit t.handed t.link.server.channel gone → Ledger limit
      (t.handed ++ joined t.link.server.channel.parcels server.channel.parcels) server.channel gone)
    (hreplies : ∀ m ∈ joined t.link.server.channel.parcels server.channel.parcels, ∃ r, m = .reply r) :
    (t.become { t.link with server }).Inv limit := by
  obtain ⟨gone, hqueue, hup⟩ := h.up
  obtain ⟨gone', hledger, hdown⟩ := h.down
  have hentered := append_joined_self t.entered t.link.client.channel.outbound
  exact {
    client := h.client
    server := hgoing
    capacity := ⟨h.capacity.1, Nat.lt_of_lt_of_eq h.capacity.2 hcapacity.symm⟩
    room := h.room
    receiving := h.receiving
    serving := hserving
    refusing := hrefusing
    lasting := h.lasting
    up := ⟨gone, by rw [become, hentered]; exact hqueue, hup.receiver_eq hreader⟩
    down := ⟨gone', hhanded hledger, hdown.sender_eq hreader.limit hwriter⟩
    replies := fun m hm => (List.mem_append.mp hm).elim (h.replies m) (hreplies m) }

theorem Inv.replying (h : t.Inv limit) {server : Server} {r : Reply}
    (hchannel : server.channel = (t.link.server.channel.submit (.reply r)).2)
    (hserving : server.serving = t.link.server.serving ∨
      server.serving = .refusing t.link.server.channel.nextTicket) :
    (t.become { t.link with server }).Inv limit := by
  obtain ⟨outbound, blocked, settled, he⟩ := Channel.submit_eq t.link.server.channel (.reply r)
  have hnext : server.channel.nextTicket = t.link.server.channel.nextTicket + 1 := by rw [hchannel, he]
  have hparcels := parcels_submit h.server.closed (.reply r)
  have hnew : ∀ q ∈ [(⟨t.link.server.channel.nextTicket, .reply r⟩ : Parcel)], q ∉ t.link.server.channel.parcels := by
    obtain ⟨gone, hledger, -⟩ := h.down
    intro q hq hmem
    rw [List.mem_singleton.mp hq] at hmem
    exact hledger.ticketed.new _ hmem
  refine h.setServer (by rw [hchannel]; exact h.server.submit _) (by rw [hchannel]; exact sameReader_submit _ _)
    (by rw [hchannel, he]) (by rw [hchannel, he]) ?_ ?_ (fun hledger => ?_) ?_
  · rcases hserving with hserving | hserving
    · rw [hserving]
      exact h.serving
    · rw [hserving]
      simp
  · intro u hu
    rw [hnext]
    rcases hserving with hserving | hserving
    · exact Nat.lt_succ_of_lt (h.refusing u (hserving.symm.trans hu))
    · obtain rfl := Serving.refusing.inj (hserving.symm.trans hu)
      exact Nat.lt_succ_self _
  · rw [hchannel]
    exact hledger.submit_joined h.server.closed _
  · rw [hchannel, hparcels, joined_append (fun _ => id) hnew]
    exact fun m hm => ⟨r, by simpa using hm⟩

theorem Inv.sameServer (h : t.Inv limit) {server : Server} (hchannel : server.channel = t.link.server.channel)
    (hserving : server.serving = t.link.server.serving ∨ server.serving = .ready) :
    (t.become { t.link with server }).Inv limit := by
  refine h.setServer (by rw [hchannel]; exact h.server) (by rw [hchannel]; exact ⟨rfl, rfl, rfl, rfl⟩)
    (by rw [hchannel]) (by rw [hchannel]) ?_ ?_ (fun hledger => ?_) ?_
  · rcases hserving with hserving | hserving
    · rw [hserving]
      exact h.serving
    · rw [hserving]
      simp
  · intro u hu
    rw [hchannel]
    rcases hserving with hserving | hserving
    · exact h.refusing u (hserving.symm.trans hu)
    · rw [hserving] at hu
      cases hu
  · rw [hchannel, append_joined_self]
    exact hledger
  · rw [hchannel, joined_eq_nil fun _ => id]
    simp

theorem Inv.serverWrites (h : t.Inv limit) (hexp : ∀ m ∈ t.handed, Expressible limit m) {w : Station} {n : Nat}
    (hw : (Station.mk t.link.server.channel t.link.down t.link.up .none).write? n = some w) :
    (t.become { t.link with
      server := { t.link.server with channel := w.channel }, down := w.out, up := w.into }).Inv limit := by
  obtain ⟨gone, hqueue, hup⟩ := h.up
  obtain ⟨gone', hledger, hdown⟩ := h.down
  have hentered := append_joined_self t.entered t.link.client.channel.outbound
  obtain ⟨b, popped, hwrote, hmoved⟩ :=
    Passage.write? (w := ⟨t.link.server.channel, t.link.down, t.link.up, .none⟩) hdown rfl hw
  have hpopped : ∀ m ∈ popped, Expressible limit m := by
    obtain ⟨lost, hsplit, -⟩ := hledger.split
    intro m hm
    refine hexp m ?_
    rw [hsplit]
    exact List.mem_append_left _ (List.mem_append_right _ (hwrote.mem_queue m hm))
  have hjoined : joined t.link.server.channel.parcels w.channel.parcels = [] :=
    joined_eq_nil (hwrote.parcels_sublist h.server).subset
  have hhanded : t.handed ++ joined t.link.server.channel.parcels w.channel.parcels = t.handed := by
    rw [hjoined, List.append_nil]
  exact {
    client := h.client
    server := hwrote.going_of_going h.server
    capacity := ⟨h.capacity.1, Nat.lt_of_lt_of_eq h.capacity.2 hwrote.capacity_eq.symm⟩
    room := ⟨Nat.lt_of_lt_of_eq h.room.1 hmoved.intoCapacity.symm,
      Nat.lt_of_lt_of_eq h.room.2 hmoved.outCapacity.symm⟩
    receiving := h.receiving
    serving := h.serving
    refusing := fun u hu => Nat.lt_of_lt_of_eq (h.refusing u hu) hwrote.nextTicket_eq.symm
    lasting := h.lasting
    up := ⟨gone, by rw [become, hentered]; exact hqueue, hup.into_of_write hwrote hmoved⟩
    down := ⟨gone' ++ popped, by rw [become, hhanded]; exact hledger.wrote hwrote,
      hdown.out_of_write hwrote hmoved hpopped⟩
    replies := by rw [become, hhanded]; exact h.replies }

theorem Inv.serverReads (h : t.Inv limit) {w : Station} {n : Nat}
    (hw : (Station.mk t.link.server.channel t.link.down t.link.up .none).read? n = some w) :
    (t.become { t.link with
      server := { t.link.server with channel := w.channel }, down := w.out, up := w.into }).Inv limit := by
  obtain ⟨gone, hqueue, hup⟩ := h.up
  obtain ⟨gone', hledger, hdown⟩ := h.down
  have hentered := append_joined_self t.entered t.link.client.channel.outbound
  obtain ⟨b, hread, hmoved⟩ := Station.read_read? rfl hw
  have hsame := hread.sameSender
  have hparcels : w.channel.parcels = t.link.server.channel.parcels := by
    rw [Channel.parcels, Channel.parcels, hsame.outbound, hsame.blocked]
  have hhanded : t.handed ++ joined t.link.server.channel.parcels w.channel.parcels = t.handed := by
    rw [hparcels, append_joined_self]
  have hup' : Passage limit gone t.link.client.channel w.into w.channel t.dispatched :=
    Passage.into_of_read (w := ⟨t.link.server.channel, t.link.down, t.link.up, .none⟩) hup hread hmoved
      h.server.attended
  exact {
    client := h.client
    server := h.server.sameSender hsame (hup'.going h.client.writer)
    capacity := ⟨h.capacity.1, Nat.lt_of_lt_of_eq h.capacity.2 hsame.capacity.symm⟩
    room := ⟨Nat.lt_of_lt_of_eq h.room.1 hmoved.intoCapacity.symm,
      Nat.lt_of_lt_of_eq h.room.2 hmoved.outCapacity.symm⟩
    receiving := h.receiving
    serving := h.serving
    refusing := fun u hu => Nat.lt_of_lt_of_eq (h.refusing u hu) hsame.nextTicket.symm
    lasting := h.lasting
    up := ⟨gone, by rw [become, hentered]; exact hqueue, hup'⟩
    down := ⟨gone', by rw [become, hhanded]; exact hledger.sameSender hsame,
      Passage.out_of_read (w := ⟨t.link.server.channel, t.link.down, t.link.up, .none⟩) hdown hsame hmoved⟩
    replies := by rw [become, hhanded]; exact h.replies }

theorem Inv.serverReceives (h : t.Inv limit) {r : Request} {channel : Channel}
    (hr : t.link.server.channel.receive? = some (.request r, channel)) :
    Inv limit { t with
      link := { t.link with server := { t.link.server with channel } }
      dispatched := t.dispatched ++ [.request r] } := by
  obtain ⟨gone, hqueue, hup⟩ := h.up
  obtain ⟨gone', hledger, hdown⟩ := h.down
  have hup' := hup.receive? hr
  have hledger' := hledger.receive? hr
  have hgoing := h.server.receive? hr
  obtain ⟨rest, -, rfl⟩ := Channel.receive?_eq_some hr
  exact {
    client := h.client
    server := hgoing
    capacity := h.capacity
    room := h.room
    receiving := h.receiving
    serving := h.serving
    refusing := h.refusing
    lasting := h.lasting
    up := ⟨gone, hqueue, hup'⟩
    down := ⟨gone', hledger', hdown.sender_eq rfl rfl⟩
    replies := h.replies }

theorem Inv.dispatch (h : t.Inv limit) (now : Nat) (r : Request) :
    (t.become { t.link with server := t.link.server.dispatch t.handlers now r }).Inv limit := by
  unfold Server.dispatch
  split
  · exact h.replying rfl (.inr rfl)
  · rename_i g hg
    dsimp only
    split
    · exact h.sameServer rfl (.inl rfl)
    · exact h.sameServer rfl (.inl rfl)
    · exact h.sameServer rfl (.inl rfl)
    · exact h.sameServer rfl (.inl rfl)
    · rename_i hreact
      exact absurd hreact (h.lasting _ g r hg)

theorem Inv.serves (h : t.Inv limit) {now : Nat} {server : Server}
    (hs : t.link.server.serve? t.handlers now = some server) :
    ((t.takes (.server .serves)).become { t.link with server }).Inv limit := by
  unfold Server.serve? at hs
  split at hs
  · cases hs
  · rename_i u hrefusing
    obtain ⟨o, -, rfl⟩ := Option.map_eq_some_iff.mp hs
    have hnone : t.dispatches (.server .serves) = [] := by
      unfold dispatches
      rw [hrefusing]
    rw [takes_eq hnone rfl]
    exact h.sameServer rfl (.inr rfl)
  · rename_i hready
    split at hs
    · rename_i r channel hr
      obtain rfl := Option.some.inj hs
      have htakes : t.takes (.server .serves) = { t with dispatched := t.dispatched ++ [.request r] } := by
        unfold takes processes dispatches
        rw [hready, hr, List.append_nil]
      have hdispatched := (h.serverReceives hr).dispatch now r
      obtain ⟨rest, -, rfl⟩ := Channel.receive?_eq_some hr
      rw [htakes]
      exact hdispatched
    · rename_i r channel hr
      obtain ⟨r', hr'⟩ := h.request_of_receive? hr
      cases hr'
    · rw [h.server.ended] at hs
      cases hs

theorem Inv.works (h : t.Inv limit) {k : JobKey} {now : Nat} {server : Server}
    (hs : t.link.server.work? k now = some server) : (t.become { t.link with server }).Inv limit := by
  obtain ⟨hserving, hchannel | ⟨r, hchannel⟩⟩ := Server.work?_channel hs
  · exact h.sameServer hchannel (.inl hserving)
  · exact h.replying hchannel (.inl hserving)

/-! ## Whole runs -/

theorem Inv.clientMove (h : t.Inv limit) (hexp : ∀ m ∈ t.entered, Expressible limit m) {now : Nat} {m : ClientMove}
    {l : Link} (hm : t.link.move? t.handlers now (.client m) = some l) :
    ((t.takes (.client m)).become l).Inv limit := by
  obtain ⟨e, he, rfl⟩ := Option.map_eq_some_iff.mp hm
  cases m with
  | reads n =>
    obtain ⟨w, hw, rfl⟩ := Option.map_eq_some_iff.mp he
    rw [takes_eq rfl rfl]
    exact h.clientReads hw
  | notices =>
    obtain ⟨w, hw, -⟩ := Option.map_eq_some_iff.mp he
    unfold Station.notice? at hw
    rw [h.client.stopReading?] at hw
    cases hw
  | writes n =>
    obtain ⟨w, hw, rfl⟩ := Option.map_eq_some_iff.mp he
    rw [takes_eq rfl rfl]
    exact h.clientWrites hexp hw
  | receives =>
    obtain ⟨client, hc, rfl⟩ := Option.map_eq_some_iff.mp he
    exact h.clientReceives hc
  | proceeds k =>
    obtain ⟨client, hc, rfl⟩ := Option.map_eq_some_iff.mp he
    rw [takes_eq rfl rfl]
    exact h.sameChannel (Client.channel_proceed? hc) (Client.receiving_proceed? hc)

theorem Inv.serverMove (h : t.Inv limit) (hexp : ∀ m ∈ t.handed, Expressible limit m) {now : Nat} {m : ServerMove}
    {l : Link} (hm : t.link.move? t.handlers now (.server m) = some l) :
    ((t.takes (.server m)).become l).Inv limit := by
  obtain ⟨e, he, rfl⟩ := Option.map_eq_some_iff.mp hm
  cases m with
  | reads n =>
    obtain ⟨w, hw, rfl⟩ := Option.map_eq_some_iff.mp he
    rw [takes_eq rfl rfl]
    exact h.serverReads hw
  | notices =>
    obtain ⟨w, hw, -⟩ := Option.map_eq_some_iff.mp he
    unfold Station.notice? at hw
    rw [h.server.stopReading?] at hw
    cases hw
  | writes n =>
    obtain ⟨w, hw, rfl⟩ := Option.map_eq_some_iff.mp he
    rw [takes_eq rfl rfl]
    exact h.serverWrites hexp hw
  | serves =>
    obtain ⟨server, hs, rfl⟩ := Option.map_eq_some_iff.mp he
    exact h.serves hs
  | works k =>
    obtain ⟨server, hs, rfl⟩ := Option.map_eq_some_iff.mp he
    rw [takes_eq rfl rfl]
    exact h.works hs

theorem Inv.act (h : t.Inv limit) (hentered : ∀ m ∈ t.entered, Expressible limit m)
    (hhanded : ∀ m ∈ t.handed, Expressible limit m) {a : TrafficAct}
    (hlasting : ∀ handlers, a = .handles handlers → Lasting handlers) : (t.act a).Inv limit := by
  cases a with
  | calls k r n =>
    refine h.sends (r := r) ?_ (Client.receiving_begin k r n)
    rw [Client.channel_begin, h.client.closed, if_neg Bool.false_ne_true]
  | sends r => exact h.sends rfl rfl
  | abandons k =>
    rcases Client.abandon_eq t.link.client k with he | ⟨call, channel, -, -, ⟨u, -, rfl⟩ | ⟨-, rfl⟩, he⟩
    · exact h.sameChannel (by rw [he]) (by rw [he])
    · exact h.withdraws (by rw [he, Client.channel_finish]) (by rw [he, Client.receiving_finish])
    · exact h.sameChannel (by rw [he, Client.channel_finish]) (by rw [he, Client.receiving_finish])
  | withdraws u => exact h.withdraws rfl rfl
  | handles handlers =>
    exact ⟨h.client, h.server, h.capacity, h.room, h.receiving, h.serving, h.refusing, hlasting handlers rfl,
      h.up, h.down, h.replies⟩
  | moves now m =>
    unfold Traffic.act
    dsimp only
    split
    · exact h
    · rename_i l hm
      cases m with
      | client m => exact h.clientMove hentered hm
      | server m => exact h.serverMove hhanded hm

theorem act_grows (t : Traffic) (a : TrafficAct) :
    t.entered.Sublist (t.act a).entered ∧ t.handed.Sublist (t.act a).handed := by
  have hbecome : ∀ l : Link, t.entered.Sublist (t.become l).entered ∧ t.handed.Sublist (t.become l).handed :=
    fun l => ⟨List.sublist_append_left _ _, List.sublist_append_left _ _⟩
  cases a with
  | handles handlers => exact ⟨List.Sublist.refl _, List.Sublist.refl _⟩
  | moves now m =>
    unfold act
    dsimp only
    split
    · exact ⟨List.Sublist.refl _, List.Sublist.refl _⟩
    · exact hbecome _
  | _ => exact hbecome _

theorem inv_reached (hcapacity : 0 < clientCapacity ∧ 0 < serverCapacity) (hroom : 0 < upRoom ∧ 0 < downRoom)
    (h : Reached limit clientCapacity serverCapacity upRoom downRoom t)
    (hexp : ∀ m ∈ t.entered ++ t.handed, Expressible limit m) : t.Inv limit := by
  induction h with
  | start => exact inv_start limit hcapacity.1 hcapacity.2 hroom.1 hroom.2
  | acts before lasting ih =>
    rename_i t a
    obtain ⟨hentered, hhanded⟩ := t.act_grows a
    have hexp' : ∀ m ∈ t.entered ++ t.handed, Expressible limit m :=
      fun m hm => hexp m ((hentered.append hhanded).subset hm)
    exact (ih hexp').act (fun m hm => hexp' m (List.mem_append_left _ hm))
      (fun m hm => hexp' m (List.mem_append_right _ hm)) lasting

/-! ## What can always move -/

/-- The parts that bring messages from one end to the other. None of them waits for the clock. -/
def carriers : List Move :=
  [.client (.writes 1), .server (.reads 1), .server .serves, .server (.writes 1), .client (.reads 1),
    .client .receives]

/-- Nothing can be done for the messages that are on their way. -/
def Stuck (t : Traffic) : Prop := ∀ m ∈ carriers, ∃ now, t.link.move? t.handlers now m = none

theorem serve?_eq_none {s : Server} {handlers : Handlers} {now : Nat} (hrunning : s.serving ≠ .stopped)
    (hs : s.serve? handlers now = none) :
    (s.serving = .ready ∧ s.channel.inbound = []) ∨ ∃ u, s.serving = .refusing u ∧ s.channel.outcome? u = none := by
  unfold Server.serve? at hs
  split at hs
  · rename_i hstopped
    exact absurd hstopped hrunning
  · rename_i u hrefusing
    exact .inr ⟨u, hrefusing, Option.map_eq_none_iff.mp hs⟩
  · rename_i hready
    refine .inl ⟨hready, ?_⟩
    unfold Channel.receive? at hs
    cases hin : s.channel.inbound with
    | nil => rfl
    | cons m rest =>
      rw [hin] at hs
      cases m <;> cases hs

/-- Where nothing can be done, nothing is left to do. -/
theorem Inv.done (h : t.Inv limit) (hstuck : t.Stuck) :
    t.dispatched = encodable limit t.entered ∧ t.processed = encodable limit t.handed := by
  obtain ⟨gone, hqueue, hup⟩ := h.up
  obtain ⟨gone', hledger, hdown⟩ := h.down
  have hclientMove : ∀ m, .client m ∈ carriers →
      ∃ now, (ClientEnd.mk t.link.client t.link.up t.link.down).move? now m = none := fun m hm => by
    obtain ⟨now, hnone⟩ := hstuck _ hm
    exact ⟨now, Option.map_eq_none_iff.mp hnone⟩
  have hserverMove : ∀ m, .server m ∈ carriers →
      ∃ now, (ServerEnd.mk t.link.server t.link.down t.link.up).move? t.handlers now m = none := fun m hm => by
    obtain ⟨now, hnone⟩ := hstuck _ hm
    exact ⟨now, Option.map_eq_none_iff.mp hnone⟩
  obtain ⟨_, hclientWrite⟩ := hclientMove (.writes 1) (by simp [carriers])
  obtain ⟨_, hclientRead⟩ := hclientMove (.reads 1) (by simp [carriers])
  obtain ⟨_, hclientReceive⟩ := hclientMove .receives (by simp [carriers])
  obtain ⟨_, hserverWrite⟩ := hserverMove (.writes 1) (by simp [carriers])
  obtain ⟨_, hserverRead⟩ := hserverMove (.reads 1) (by simp [carriers])
  obtain ⟨now, hserve⟩ := hserverMove .serves (by simp [carriers])
  have hreceive := Client.inbound_of_receive? h.receiving (Option.map_eq_none_iff.mp hclientReceive)
  -- The way down first: the server can wait for nothing but a refusal, which goes this way.
  obtain ⟨hprocessed, hidle, hempty⟩ := Passage.rests
    (w := ⟨t.link.server.channel, t.link.down, t.link.up, .none⟩)
    (t := ⟨t.link.client.channel, t.link.up, t.link.down, .none⟩) hdown rfl rfl rfl h.room.2 h.capacity.1
    h.server.writer (Option.map_eq_none_iff.mp hserverWrite) (Option.map_eq_none_iff.mp hclientRead) hreceive
  have hall : gone' = t.handed := by
    obtain ⟨lost, hsplit, hlost⟩ := hledger.split
    rw [hsplit, hlost h.server.closed, Channel.queue, hempty, hledger.ready h.capacity.2 hempty]
    simp
  have htold : ∀ u < t.link.server.channel.nextTicket, (t.link.server.channel.outcome? u).isSome = true := by
    intro u hu
    rw [hledger.next, ← hall] at hu
    refine (hledger.told u hu).resolve_right ?_
    rintro ⟨left, hwriting⟩
    rw [hidle] at hwriting
    cases hwriting
  have hinbound : t.link.server.channel.inbound = [] := by
    rcases serve?_eq_none h.serving (Option.map_eq_none_iff.mp hserve) with ⟨-, hnone⟩ | ⟨u, hrefusing, hopen⟩
    · exact hnone
    · have hsome := htold u (h.refusing u hrefusing)
      rw [hopen] at hsome
      cases hsome
  obtain ⟨hdispatched, -, hempty'⟩ := Passage.rests
    (w := ⟨t.link.client.channel, t.link.up, t.link.down, .none⟩)
    (t := ⟨t.link.server.channel, t.link.down, t.link.up, .none⟩) hup rfl rfl rfl h.room.1 h.capacity.2
    h.client.writer (Option.map_eq_none_iff.mp hclientWrite) (Option.map_eq_none_iff.mp hserverRead) hinbound
  have hentered : gone = t.entered := by
    rw [hqueue.split, hempty']
    simp
  exact ⟨hentered ▸ hdispatched, hall ▸ hprocessed⟩

/-- What comes through, and why it goes on. -/
structure Flowing (limit : Nat) (t : Traffic) : Prop where
  dispatched : t.dispatched <+: encodable limit t.entered
  processed : t.processed <+: encodable limit t.handed
  /-- As long as a message waits anywhere, some part can move at once, whatever the time. -/
  moves : t.dispatched ≠ encodable limit t.entered ∨ t.processed ≠ encodable limit t.handed →
    ∃ m ∈ carriers, ∀ now, (t.link.move? t.handlers now m).isSome = true

/-- However small the queues and the stream are, and however full. -/
theorem full_queues_wedge_nothing (hcapacity : 0 < clientCapacity ∧ 0 < serverCapacity)
    (hroom : 0 < upRoom ∧ 0 < downRoom) (h : Reached limit clientCapacity serverCapacity upRoom downRoom t)
    (hexp : ∀ m ∈ t.entered ++ t.handed, Expressible limit m) : Flowing limit t := by
  have hinv := inv_reached hcapacity hroom h hexp
  obtain ⟨gone, hqueue, hup⟩ := hinv.up
  obtain ⟨gone', hledger, hdown⟩ := hinv.down
  obtain ⟨lost, hsplit, -⟩ := hledger.split
  refine ⟨?_, ?_, fun hleft => ?_⟩
  · rw [hqueue.split, encodable_append]
    exact hup.isPrefix.trans (List.prefix_append _ _)
  · rw [hsplit, List.append_assoc, encodable_append]
    exact hdown.isPrefix.trans (List.prefix_append _ _)
  · by_contra hnone
    have hstuck : t.Stuck := by simpa [Stuck] using hnone
    obtain ⟨hdispatched, hprocessed⟩ := hinv.done hstuck
    exact hleft.elim (absurd hdispatched) (absurd hprocessed)

/-- Three calls to a server without handlers, while the client does not read. -/
def crowd : List TrafficAct :=
  [.calls 0 ⟨1, ⟨"10.0.0.1", 7⟩, "s", []⟩ 9, .calls 1 ⟨2, ⟨"10.0.0.1", 7⟩, "s", []⟩ 9,
    .calls 2 ⟨3, ⟨"10.0.0.1", 7⟩, "s", []⟩ 9] ++
  (List.replicate 14 [.moves 0 (.client (.writes 30)), .moves 0 (.server (.reads 30)), .moves 0 (.server .serves),
    .moves 0 (.server (.writes 1))]).flatten

/-- Only the reader of the client can move: the server waits until a refusal is out, and for that the
stream has no room. -/
theorem full_queues_wedge_nothing_crowded :
    Reached 256 1 1 30 1 (crowd.foldl act (start 256 1 1 30 1)) ∧
    (crowd.foldl act (start 256 1 1 30 1)).dispatched ≠
      encodable 256 (crowd.foldl act (start 256 1 1 30 1)).entered ∧
    (carriers.filter fun m => ((crowd.foldl act (start 256 1 1 30 1)).link.move? .empty 0 m).isSome) =
      [.client (.reads 1)] ∧
    Flowing 256 (crowd.foldl act (start 256 1 1 30 1)) := by
  have hacts : ∀ a ∈ crowd, ∀ handlers, a ≠ .handles handlers := by
    intro a ha handlers
    rw [crowd, List.mem_append, List.mem_flatten] at ha
    rcases ha with ha | ⟨l, hl, ha⟩
    · rintro rfl
      simp at ha
    · rw [List.eq_of_mem_replicate hl] at ha
      rintro rfl
      simp at ha
  have hreached : Reached 256 1 1 30 1 (crowd.foldl act (start 256 1 1 30 1)) :=
    Reached.start.run fun a ha handlers heq => absurd heq (hacts a ha handlers)
  exact ⟨hreached, by decide +kernel, by decide +kernel,
    full_queues_wedge_nothing ⟨by decide, by decide⟩ ⟨by decide, by decide⟩ hreached
      fun m _ => expressible_of_limit (by decide) m⟩

/-! ## Beyond the range of the length fields -/

section
variable {t : Traffic} {w : Station} {n : Nat}

theorem act_writes (h : Station.write? ⟨t.link.client.channel, t.link.up, t.link.down, .none⟩ n = some w)
    (hnone : joined t.link.client.channel.outbound w.channel.outbound = []) :
    t.act (.moves 0 (.client (.writes n))) = { t with link :=
      { t.link with client := { t.link.client with channel := w.channel }, up := w.out, down := w.into } } := by
  have htakes : t.takes (.client (.writes n)) = t := takes_eq rfl rfl
  simp only [act, Link.move?, ClientEnd.move?, ClientEnd.lift?, h, Option.map_some, htakes, become, hnone,
    append_joined_self, List.append_nil]

theorem act_reads (h : Station.read? ⟨t.link.server.channel, t.link.down, t.link.up, .none⟩ n = some w)
    (hsame : w.channel.parcels = t.link.server.channel.parcels) :
    t.act (.moves 0 (.server (.reads n))) = { t with link :=
      { t.link with server := { t.link.server with channel := w.channel }, down := w.out, up := w.into } } := by
  have htakes : t.takes (.server (.reads n)) = t := takes_eq rfl rfl
  simp only [act, Link.move?, ServerEnd.move?, ServerEnd.lift?, h, Option.map_some, htakes, become, hsame,
    append_joined_self]

theorem run_writes {m : Message} {u : Ticket} {frame : Bytes} (hidle : t.link.client.channel.writer = .idle)
    (hopen : t.link.client.channel.closed = false) (hout : t.link.client.channel.outbound = [⟨u, m⟩])
    (hblocked : t.link.client.channel.blocked = []) (habandoned : t.link.up.abandoned = false)
    (hframe : encode t.link.client.channel.limit m = .ok frame) (hsome : frame ≠ []) (hn : frame.length ≤ n)
    (hroom : frame.length ≤ t.link.up.room) :
    (List.replicate 3 (.moves 0 (.client (.writes n)))).foldl act t = { t with link := { t.link with
      client := { t.link.client with channel := { t.link.client.channel with
        outbound := [], writer := .idle, settled := t.link.client.channel.settled.insert u (.ok ()) } }
      up := t.link.up.put frame } } := by
  have htakes := act_writes (n := n) (Station.write?_takes hidle hopen hout hblocked hframe) rfl
  have hwrites := act_writes (t := { t with link := { t.link with client := { t.link.client with
      channel := { t.link.client.channel with outbound := [], writer := .writing u frame } } } }) (n := n)
    (Station.write?_writes rfl habandoned rfl hsome hn hroom) rfl
  have hflushes := act_writes (t := { t with link := { t.link with
      client := { t.link.client with channel := { t.link.client.channel with outbound := [], writer := .writing u [] } }
      up := t.link.up.put frame } }) (n := n)
    (Station.write?_flushes rfl rfl) rfl
  simp only [List.replicate, List.foldl_cons, List.foldl_nil]
  rw [htakes, hwrites, hflushes]
  rfl

theorem run_reads {m : Message} {k needed present : Nat} (hwaiting : t.link.server.channel.reader = .waiting)
    (hbuffer : t.link.server.channel.buffer = []) (hinbound : t.link.server.channel.inbound = [])
    (hcapacity : 0 < t.link.server.channel.capacity) (hattended : t.link.server.channel.attended = true)
    (hwriter : t.link.server.channel.writer ≠ .stopped) (hsome : t.link.up.held ≠ [])
    (hn : t.link.up.held.length ≤ n) (hfirst : decode t.link.server.channel.limit t.link.up.held = .ok (m, k))
    (hlacks : decode t.link.server.channel.limit (t.link.up.held.drop k) = .error (.insufficient needed present)) :
    (List.replicate 4 (.moves 0 (.server (.reads n)))).foldl act t = { t with link := { t.link with
      server := { t.link.server with channel := { t.link.server.channel with
        buffer := t.link.up.held.drop k, reader := .waiting, inbound := [m] } }
      up := { t.link.up with held := [] } } } := by
  have hreads := act_reads (n := n) (Station.read?_reads rfl hwaiting hsome hn) rfl
  have hdecodes := act_reads (t := { t with link := { t.link with
      server := { t.link.server with channel :=
        { t.link.server.channel with reader := .decoding, buffer := t.link.up.held } }
      up := { t.link.up with held := [] } } }) (n := n)
    (Station.read?_decodes rfl hwriter hfirst) rfl
  have hforwards := act_reads (t := { t with link := { t.link with
      server := { t.link.server with channel :=
        { t.link.server.channel with reader := .holding m, buffer := t.link.up.held.drop k } }
      up := { t.link.up with held := [] } } }) (n := n)
    (Station.read?_forwards rfl hwriter hattended (by simpa [hinbound] using hcapacity)) rfl
  have hwaits := act_reads (t := { t with link := { t.link with
      server := { t.link.server with channel :=
        { t.link.server.channel with reader := .decoding, buffer := t.link.up.held.drop k, inbound := [m] } }
      up := { t.link.up with held := [] } } }) (n := n)
    (Station.read?_lacks rfl hwriter hlacks) rfl
  rw [hbuffer, List.nil_append] at hreads
  rw [hinbound, List.nil_append] at hforwards
  simp only [List.replicate, List.foldl_cons, List.foldl_nil]
  rw [hreads, hdecodes, hforwards, hwaits]

end

/-- Only messages are taken, and nothing is replied. -/
def silent : Handlers := Table.empty.insert "s" (.ofConsumer "s")

theorem lasting_silent : Lasting silent := by
  intro s h r hs
  simp only [silent, Table.get?_insert] at hs
  split at hs
  · obtain rfl := Option.some.inj hs
    simp [Handler.ofConsumer]
  · cases hs

/-- The request, and what brings it over in one go. -/
def overlong (n : Nat) (payload : Bytes) : List TrafficAct :=
  [.handles silent, .sends ⟨9, ⟨"10.0.0.1", 7⟩, "s", payload⟩] ++
    List.replicate 3 (.moves 0 (.client (.writes n))) ++ List.replicate 4 (.moves 0 (.server (.reads n))) ++
    [.moves 0 (.server .serves)]

/-- A limit beyond the range lets a request with 4 GiB of payload through. The server takes a request with nothing
in it for it, and waits for the end of a frame that is not there. Nothing moves any more. -/
theorem a_long_request_is_never_dispatched : ∃ payload : Bytes, payload.length = 2 ^ 32 ∧
    let t := (overlong (2 ^ 33) payload).foldl act (start (2 ^ 33) 1 1 (2 ^ 33) 1)
    Reached (2 ^ 33) 1 1 (2 ^ 33) 1 t ∧ sendable (2 ^ 33) (.request ⟨9, ⟨"10.0.0.1", 7⟩, "s", payload⟩) = true ∧
      t.entered = [.request ⟨9, ⟨"10.0.0.1", 7⟩, "s", payload⟩] ∧
      t.dispatched = [.request ⟨9, ⟨"10.0.0.1", 7⟩, "s", []⟩] ∧ t.link.server.channel.closed = false ∧
      ∀ m now, t.link.move? t.handlers now m = none := by
  obtain ⟨payload, hlength, hlacks⟩ := exists_stray (show 2 ^ 32 ≤ 2 ^ 33 by decide)
  let long : Request := ⟨9, ⟨"10.0.0.1", 7⟩, "s", payload⟩
  let short : Request := ⟨9, ⟨"10.0.0.1", 7⟩, "s", []⟩
  let empty : Bytes := [0, 0, 0, 25, 1, 0, 0, 0, 0, 0, 0, 0, 9, 4, 10, 0, 0, 1, 0, 0, 0, 7, 0, 1, 115, 0, 0, 0, 0]
  have hempty : encode (2 ^ 33) (.request short) = .ok empty := by decide
  have hframe : encode (2 ^ 33) (.request long) = .ok (empty ++ payload) :=
    encode_of_emptied hempty hlength (by decide)
  have hcanonical : canonical (.request short) = .request short := by decide
  have hfirst : decode (2 ^ 33) (empty ++ payload) = .ok (.request short, 29) :=
    hcanonical ▸ decode_of_encode hempty (by decide) payload
  have hsize : (empty ++ payload).length ≤ 2 ^ 33 := by
    rw [List.length_append, hlength]
    decide
  let begun : Traffic := { start (2 ^ 33) 1 1 (2 ^ 33) 1 with
    link := { (start (2 ^ 33) 1 1 (2 ^ 33) 1).link with
      client := .ofChannel { Channel.start (2 ^ 33) 1 with outbound := [⟨0, .request long⟩], nextTicket := 1 } }
    handlers := silent
    entered := [.request long] }
  let written : Traffic := { begun with
    link := { begun.link with
      client := .ofChannel { Channel.start (2 ^ 33) 1 with nextTicket := 1, settled := Table.empty.insert 0 (.ok ()) }
      up := ⟨2 ^ 33, empty ++ payload, false, false⟩ } }
  let read : Traffic := { written with
    link := { written.link with
      server := .ofChannel { Channel.start (2 ^ 33) 1 with
        buffer := payload, inbound := [.request { long with payload := [] }] }
      up := .ofCapacity (2 ^ 33) } }
  have hrunning : Writer.idle ≠ .stopped := by decide
  have hwritten : (List.replicate 3 (.moves 0 (.client (.writes (2 ^ 33))))).foldl act begun = written :=
    run_writes (t := begun) rfl rfl rfl rfl rfl hframe (List.cons_ne_nil _ _) hsize hsize
  have hread : (List.replicate 4 (.moves 0 (.server (.reads (2 ^ 33))))).foldl act written = read :=
    run_reads (t := written) rfl rfl rfl Nat.one_pos rfl hrunning (List.cons_ne_nil _ _) hsize hfirst hlacks
  have hrun : (overlong (2 ^ 33) payload).foldl act (start (2 ^ 33) 1 1 (2 ^ 33) 1) =
      read.act (.moves 0 (.server .serves)) := by
    rw [overlong, List.foldl_append, List.foldl_append, List.foldl_append,
      show [_, _].foldl act (start _ _ _ _ _) = begun from rfl, hwritten, hread]
    rfl
  refine ⟨payload, hlength, Reached.start.run ?_, sendable_of_encode hframe, hrun ▸ rfl, hrun ▸ rfl, hrun ▸ rfl, ?_⟩
  · rintro a ha handlers rfl
    obtain rfl : handlers = silent := by simpa [overlong] using ha
    exact lasting_silent
  · rw [hrun]
    rintro ((n | _ | n | _ | k) | (n | _ | n | _ | k)) now <;> rfl

end Traffic

end ClusterNet.Messaging
