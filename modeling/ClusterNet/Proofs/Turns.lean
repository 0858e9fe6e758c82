import ClusterNet.Proofs.Lines

/-!
# Turns of a connection

What a move of a client or a server does to what is on its way, to the calls and to the jobs, when
nobody closes. A message leaves a line only by being taken at its end, and a request that is taken is
refused or becomes a job.
-/

namespace ClusterNet.Messaging

open Wire

/-- What a client has to do with calls stays as it is. -/
structure Client.SameCalls (c d : Client) : Prop where
  calls : d.calls = c.calls
  pending : d.pending = c.pending
  nextTicket : d.channel.nextTicket = c.channel.nextTicket

/-- A server that has refused a request makes one more step until it is ready. -/
def Serving.steps : Serving → Nat
  | .refusing _ => 1
  | _ => 0

namespace Link

/-- What is on its way in both directions, as it is read. -/
structure Flowing (limit : Nat) (l : Link) (up down : List Message) : Prop where
  up : Line limit l.client.channel l.up l.server.channel up
  down : Line limit l.server.channel l.down l.client.channel down
  room : (0 < l.client.channel.capacity ∧ 0 < l.up.capacity) ∧ 0 < l.server.channel.capacity ∧ 0 < l.down.capacity
  refusing : ∀ t, l.server.serving = .refusing t → t < l.server.channel.nextTicket
  jobs : ∀ j job, l.server.jobs.get? j = some job → j < l.server.nextJob

theorem flowing_start (limit : Nat) {capacity room : Nat} (hcapacity : 0 < capacity) (hroom : 0 < room) :
    (start limit capacity room).Flowing limit [] [] where
  up := line_start limit capacity room
  down := line_start limit capacity room
  room := ⟨⟨hcapacity, hroom⟩, hcapacity, hroom⟩
  refusing t h := by simp [start, Server.ofChannel] at h
  jobs j job h := by simp [start, Server.ofChannel] at h

/-- What the channels still have to do, and the server until it is ready. -/
def pace (l : Link) : Nat :=
  haul l.client.channel l.up l.server.channel + haul l.server.channel l.down l.client.channel +
    l.server.serving.steps

/-- What a move comes to. -/
inductive Turn (limit : Nat) (handlers : Handlers) (now : Nat) (l l' : Link) (up down : List Message) :
    List Message → List Message → Prop where
  /-- Bytes move, or the server becomes ready again. -/
  | idles (client : l.client.SameCalls l'.client) (jobs : l'.server.jobs = l.server.jobs)
      (pace : l'.pace < l.pace) :
      Turn limit handlers now l l' up down up down
  | delivers {r : Reply} {rest : List Message} {c : Client} (first : down = .reply r :: rest)
      (client : l.client.SameCalls c) (delivered : l'.client = c.deliver r)
      (jobs : l'.server.jobs = l.server.jobs) (pace : l'.pace ≤ l.pace) :
      Turn limit handlers now l l' up down up rest
  | ignores {r : Request} {rest : List Message} (first : down = .request r :: rest)
      (client : l.client.SameCalls l'.client) (jobs : l'.server.jobs = l.server.jobs)
      (pace : l'.pace ≤ l.pace) : Turn limit handlers now l l' up down up rest
  | proceeds {k : CallKey} (step : l.client.proceed? k now = some l'.client)
      (jobs : l'.server.jobs = l.server.jobs) (pace : l'.pace ≤ l.pace) :
      Turn limit handlers now l l' up down up down
  | refuses {r : Request} {rest : List Message} (first : up = .request r :: rest)
      (nobody : handlers.get? r.subject = none) (client : l'.client = l.client)
      (jobs : l'.server.jobs = l.server.jobs)
      (pace : l'.pace ≤ l.pace + postage limit (.reply ⟨r.id, (refusal r).1, (refusal r).2⟩) + 1) :
      Turn limit handlers now l l' up down rest (down ++ [.reply ⟨r.id, (refusal r).1, (refusal r).2⟩])
  | hands {r : Request} {rest : List Message} {h : Handler} {ms : Nat} {effort : Effort}
      (first : up = .request r :: rest) (handler : handlers.get? r.subject = some h)
      (works : h.react r = .works ms effort) (client : l'.client = l.client)
      (jobs : l'.server.jobs = l.server.jobs.insert l.server.nextJob ⟨r, .working (now + ms) effort⟩)
      (pace : l'.pace ≤ l.pace) : Turn limit handlers now l l' up down rest down
  | skips {r : Reply} {rest : List Message} (first : up = .reply r :: rest) (client : l'.client = l.client)
      (jobs : l'.server.jobs = l.server.jobs) (pace : l'.pace ≤ l.pace) :
      Turn limit handlers now l l' up down rest down
  | answers {j : JobKey} {job : Job} {due : Nat} {effort : Effort} {t : Ticket}
      (there : l.server.jobs.get? j = some job) (working : job.stage = .working due effort) (time : due ≤ now)
      (client : l'.client = l.client)
      (jobs : l'.server.jobs = l.server.jobs.modify j fun x => { x with stage := .answering t })
      (pace : l'.pace ≤ l.pace + postage limit (.reply ⟨job.request.id, effort.reply.1, effort.reply.2⟩)) :
      Turn limit handlers now l l' up down up
        (down ++ [.reply ⟨job.request.id, effort.reply.1, effort.reply.2⟩])
  | settles {j : JobKey} {job : Job} {t : Ticket} (there : l.server.jobs.get? j = some job)
      (answering : job.stage = .answering t) (client : l'.client = l.client)
      (jobs : l'.server.jobs = l.server.jobs.modify j fun x => { x with stage := .done })
      (pace : l'.pace ≤ l.pace) : Turn limit handlers now l l' up down up down

end Link

namespace Exchange

open Link

variable {limit now : Nat} {asked : Request → Prop} {offered : String → Handler → Prop} {x : Exchange}
  {l : Link} {up down : List Message}

/-! ## The client -/

theorem turn_clientStep (hflow : x.link.Flowing limit up down) {st : Station}
    (hup : Line limit st.channel st.out x.link.server.channel up)
    (hdown : Line limit x.link.server.channel st.into st.channel down)
    (hkeeps : Station.Keeps ⟨x.link.client.channel, x.link.up, x.link.down, .none⟩ st)
    (hlighter : haul st.channel st.out x.link.server.channel + haul x.link.server.channel st.into st.channel <
      haul x.link.client.channel x.link.up x.link.server.channel +
        haul x.link.server.channel x.link.down x.link.client.channel) :
    Flowing limit { x.link with
      client := { x.link.client with channel := st.channel }, up := st.out, down := st.into } up down ∧
    Turn limit x.handlers now x.link { x.link with
      client := { x.link.client with channel := st.channel }, up := st.out, down := st.into } up down up down := by
  refine ⟨⟨hup, hdown, ?_, hflow.refusing, hflow.jobs⟩, .idles ⟨rfl, rfl, hkeeps.nextTicket⟩ rfl
    (Nat.add_lt_add_right hlighter _)⟩
  rw [hkeeps.capacity, hkeeps.out, hkeeps.into]
  exact hflow.room

theorem turn_receives (hflow : x.link.Flowing limit up down) (hopen : x.Open) {client : Client}
    (hc : x.link.client.receive? = some client) : ∃ down',
      Flowing limit { x.link with client } up down' ∧
        Turn limit x.handlers now x.link { x.link with client } up down up down' := by
  have htaken : ∀ {m channel}, x.link.client.channel.receive? = some (m, channel) → ∃ rest, down = m :: rest ∧
      ∀ d : Client, d.channel = channel → Flowing limit { x.link with client := d } up rest ∧
        Link.pace { x.link with client := d } ≤ x.link.pace := by
    intro m channel hr
    obtain ⟨rest, hdown, hline⟩ := hflow.down.receive? hr
    have hup := hflow.up.sender_receive? hr
    refine ⟨rest, hdown, ?_⟩
    rintro d rfl
    obtain ⟨more, -, he⟩ := Channel.receive?_eq_some hr
    refine ⟨⟨hup, hline, ?_, hflow.refusing, hflow.jobs⟩, ?_⟩
    · rw [he]
      exact hflow.room
    · unfold Link.pace
      dsimp only
      rw [he]
      exact Nat.le_refl _
  have hticket : ∀ {m channel}, x.link.client.channel.receive? = some (m, channel) →
      channel.nextTicket = x.link.client.channel.nextTicket := by
    intro m channel hr
    obtain ⟨more, -, rfl⟩ := Channel.receive?_eq_some hr
    rfl
  obtain ⟨-, ⟨r, channel, hr, rfl⟩ | ⟨r, channel, hr, rfl⟩ | ⟨-, hended, -⟩⟩ := Client.receive?_eq_some hc
  · obtain ⟨rest, hdown, hflowing⟩ := htaken hr
    obtain ⟨hflow', hpace⟩ := hflowing (({ x.link.client with channel } : Client).deliver r) (Client.channel_deliver r)
    refine ⟨rest, hflow', ?_⟩
    exact .delivers (c := { x.link.client with channel }) hdown ⟨rfl, rfl, hticket hr⟩ rfl rfl hpace
  · obtain ⟨rest, hdown, hflowing⟩ := htaken hr
    obtain ⟨hflow', hpace⟩ := hflowing { x.link.client with channel } rfl
    exact ⟨rest, hflow', .ignores hdown ⟨rfl, rfl, hticket hr⟩ rfl hpace⟩
  · simp [Channel.ended, hopen.client.reader] at hended

theorem turn_proceeds (hflow : x.link.Flowing limit up down) {k : CallKey} {client : Client}
    (hc : x.link.client.proceed? k now = some client) :
    Flowing limit { x.link with client } up down ∧
      Turn limit x.handlers now x.link { x.link with client } up down up down := by
  have hchannel := Client.channel_proceed? hc
  refine ⟨⟨?_, ?_, ?_, hflow.refusing, hflow.jobs⟩, .proceeds hc rfl ?_⟩
  · rw [hchannel]
    exact hflow.up
  · rw [hchannel]
    exact hflow.down
  · rw [hchannel]
    exact hflow.room
  · unfold Link.pace
    dsimp only
    rw [hchannel]

theorem turn_client (hflow : x.link.Flowing limit up down) (hopen : x.Open) {m : ClientMove}
    (hm : x.link.move? x.handlers now (.client m) = some l) : ∃ down', Flowing limit l up down' ∧
      Turn limit x.handlers now x.link l up down up down' := by
  have hstation : Station.Open ⟨x.link.client.channel, x.link.up, x.link.down, .none⟩ :=
    ⟨hopen.client, hopen.up, hopen.down⟩
  obtain ⟨e, he, rfl⟩ := Option.map_eq_some_iff.mp hm
  cases m with
  | reads n =>
    obtain ⟨st, hst, rfl⟩ := Option.map_eq_some_iff.mp he
    obtain ⟨hup, hdown, hkeeps⟩ := Line.read? (w := ⟨x.link.client.channel, x.link.up, x.link.down, .none⟩)
      hflow.up hflow.down hstation rfl hst
    exact ⟨down, turn_clientStep hflow hup hdown hkeeps (Station.lighter_read? hstation rfl hst _)⟩
  | notices =>
    obtain ⟨st, hst, -⟩ := Option.map_eq_some_iff.mp he
    rw [Station.notice?_eq_none hstation] at hst
    cases hst
  | writes n =>
    obtain ⟨st, hst, rfl⟩ := Option.map_eq_some_iff.mp he
    obtain ⟨hup, hdown, hkeeps⟩ := Line.write? (w := ⟨x.link.client.channel, x.link.up, x.link.down, .none⟩)
      hflow.up hflow.down hstation rfl hst
    exact ⟨down, turn_clientStep hflow hup hdown hkeeps (Station.lighter_write? hstation rfl hst _)⟩
  | receives =>
    obtain ⟨client, hc, rfl⟩ := Option.map_eq_some_iff.mp he
    exact turn_receives hflow hopen hc
  | proceeds k =>
    obtain ⟨client, hc, rfl⟩ := Option.map_eq_some_iff.mp he
    exact ⟨down, turn_proceeds hflow hc⟩

/-! ## The server -/

theorem turn_serverStep (hflow : x.link.Flowing limit up down) {st : Station}
    (hdown : Line limit st.channel st.out x.link.client.channel down)
    (hup : Line limit x.link.client.channel st.into st.channel up)
    (hkeeps : Station.Keeps ⟨x.link.server.channel, x.link.down, x.link.up, .none⟩ st)
    (hlighter : haul st.channel st.out x.link.client.channel + haul x.link.client.channel st.into st.channel <
      haul x.link.server.channel x.link.down x.link.client.channel +
        haul x.link.client.channel x.link.up x.link.server.channel) :
    Flowing limit { x.link with
      server := { x.link.server with channel := st.channel }, down := st.out, up := st.into } up down ∧
    Turn limit x.handlers now x.link { x.link with
      server := { x.link.server with channel := st.channel }, down := st.out, up := st.into } up down up down := by
  refine ⟨⟨hup, hdown, ?_, ?_, hflow.jobs⟩, .idles ⟨rfl, rfl, rfl⟩ rfl ?_⟩
  · rw [hkeeps.capacity, hkeeps.out, hkeeps.into]
    exact hflow.room
  · rw [hkeeps.nextTicket]
    exact hflow.refusing
  · unfold Link.pace
    dsimp only
    omega

theorem Flowing.reply (hflow : Flowing limit l up down) (hopen : l.server.channel.closed = false) {r : Reply}
    (hr : Fits limit (.reply r)) {serving : Serving}
    (hserving : ∀ t, serving = .refusing t → t ≤ l.server.channel.nextTicket) :
    Flowing limit { l with server := { l.server with
      channel := (l.server.channel.submit (.reply r)).2, serving } } up (down ++ [.reply r]) := by
  have hup := hflow.up.receiver_eq (sameReader_submit l.server.channel (.reply r))
  have hdown := hflow.down.submit hopen hr
  obtain ⟨outbound, blocked, settled, he⟩ := Channel.submit_eq l.server.channel (.reply r)
  rw [he] at hup hdown ⊢
  exact ⟨hup, hdown, hflow.room, fun t ht => Nat.lt_succ_of_le (hserving t ht), hflow.jobs⟩

theorem pace_reply (hopen : l.server.channel.closed = false) (r : Reply) (serving : Serving) :
    Link.pace { l with server := { l.server with
      channel := (l.server.channel.submit (.reply r)).2, serving } } + l.server.serving.steps =
        l.pace + postage l.server.channel.limit (.reply r) + serving.steps := by
  have hwriting := writing_submit (.reply r) hopen
  have hreading := reading_eq (sameReader_submit l.server.channel (.reply r))
  unfold Link.pace haul
  dsimp only
  omega

theorem Flowing.take (hflow : Flowing limit l up down) {m : Message} {channel : Channel}
    (hr : l.server.channel.receive? = some (m, channel)) : ∃ rest, up = m :: rest ∧
      Flowing limit { l with server := { l.server with channel } } rest down ∧
        Link.pace { l with server := { l.server with channel } } = l.pace := by
  obtain ⟨rest, hup, hline⟩ := hflow.up.receive? hr
  have hdown := hflow.down.sender_receive? hr
  obtain ⟨more, -, rfl⟩ := Channel.receive?_eq_some hr
  exact ⟨rest, hup, ⟨hline, hdown, hflow.room, hflow.refusing, hflow.jobs⟩, rfl⟩

theorem turn_serves (hflow : x.link.Flowing limit up down) (h : x.Inv limit asked offered)
    (hfit : Fitting limit asked offered) (hopen : x.Open) {server : Server}
    (hs : x.link.server.serve? x.handlers now = some server) : ∃ up' down',
      Flowing limit { x.link with server } up' down' ∧
        Turn limit x.handlers now x.link { x.link with server } up down up' down' := by
  unfold Server.serve? at hs
  split at hs
  · cases hs
  · rename_i t hrefusing
    obtain ⟨o, -, rfl⟩ := Option.map_eq_some_iff.mp hs
    refine ⟨up, down, ⟨hflow.up, hflow.down, hflow.room, by simp, hflow.jobs⟩, .idles ⟨rfl, rfl, rfl⟩ rfl ?_⟩
    unfold Link.pace
    rw [hrefusing]
    exact Nat.lt_succ_self _
  · rename_i hready
    split at hs
    · rename_i r channel hr
      obtain rfl := Option.some.inj hs
      obtain ⟨rest, hup, hflowing, hpace⟩ := Flowing.take hflow hr
      cases hh : x.handlers.get? r.subject with
      | none =>
        rw [dispatch_none now hh]
        have hclosed := (Station.open_receive? hopen.server hr).closed
        refine ⟨rest, _, Flowing.reply hflowing hclosed (h.fits_refusal hfit hr) ?_,
          .refuses hup hh rfl rfl (Nat.le_of_eq ?_)⟩
        · intro t ht
          rw [← Serving.refusing.inj ht]
          exact Nat.le_refl _
        · have hreply := pace_reply (l := { x.link with server := { x.link.server with channel } }) hclosed
            ⟨r.id, (refusal r).1, (refusal r).2⟩ (.refusing channel.nextTicket)
          have hlimit : channel.limit = limit := by
            obtain ⟨more, -, rfl⟩ := Channel.receive?_eq_some hr
            exact h.limits.2
          dsimp only at hreply
          rw [hpace, hready, hlimit] at hreply
          exact hreply
      | some handler =>
        obtain ⟨ms, effort, hworks⟩ := Handler.works_of_adapted (hfit.adapted (h.registered hh)) r
        rw [dispatch_works now hh hworks]
        refine ⟨rest, down, ⟨hflowing.up, hflowing.down, hflowing.room, hflowing.refusing, ?_⟩,
          .hands hup hh hworks rfl rfl (Nat.le_of_eq hpace)⟩
        intro j job hj
        change (x.link.server.jobs.insert x.link.server.nextJob _).get? j = some job at hj
        rw [Table.get?_insert] at hj
        split at hj
        · rename_i heq
          rw [heq]
          exact Nat.lt_succ_self _
        · exact Nat.lt_succ_of_lt (hflow.jobs j job hj)
    · rename_i r channel hr
      obtain rfl := Option.some.inj hs
      obtain ⟨rest, hup, hflowing, hpace⟩ := Flowing.take hflow hr
      exact ⟨rest, down, hflowing, .skips hup rfl rfl (Nat.le_of_eq hpace)⟩
    · split at hs
      · rename_i hended
        simp [Channel.ended, hopen.server.reader] at hended
      · cases hs

theorem Flowing.setStage (hflow : Flowing limit l up down) (k : JobKey) (stage : Stage) :
    Flowing limit { l with server := l.server.setStage k stage } up down := by
  refine ⟨hflow.up, hflow.down, hflow.room, hflow.refusing, ?_⟩
  intro j job hj
  change (l.server.jobs.modify k _).get? j = some job at hj
  rw [Table.get?_modify] at hj
  split at hj
  · obtain ⟨old, hold, -⟩ := Option.map_eq_some_iff.mp hj
    exact hflow.jobs j old (by assumption)
  · exact hflow.jobs j job hj

theorem turn_works (hflow : x.link.Flowing limit up down) (h : x.Inv limit asked offered)
    (hfit : Fitting limit asked offered) (hopen : x.Open) {k : JobKey} {server : Server}
    (hs : x.link.server.work? k now = some server) : ∃ down',
      Flowing limit { x.link with server } up down' ∧
        Turn limit x.handlers now x.link { x.link with server } up down up down' := by
  unfold Server.work? at hs
  split at hs
  · cases hs
  · rename_i job hjob
    rcases h.jobs hjob with ⟨due, effort, handler, ms, hstage, hmem, hreact⟩ | ⟨t, hstage⟩ | hstage
    · simp only [hstage] at hs
      split at hs
      · rename_i hdue
        obtain rfl := Option.some.inj hs
        refine ⟨_, Flowing.setStage (l := { x.link with server := { x.link.server with
          channel := (x.link.server.channel.submit (.reply ⟨job.request.id, effort.reply.1, effort.reply.2⟩)).2 } })
          (Flowing.reply hflow hopen.server.closed (h.fits_reply hfit hmem hreact) fun t ht =>
            Nat.le_of_lt (hflow.refusing t ht)) k _, .answers hjob hstage hdue rfl rfl (Nat.le_of_eq ?_)⟩
        have hreply := pace_reply hopen.server.closed ⟨job.request.id, effort.reply.1, effort.reply.2⟩
          x.link.server.serving
        rw [h.limits.2] at hreply
        exact Nat.add_right_cancel hreply
      · cases hs
    · simp only [hstage] at hs
      split at hs
      · cases hs
      · rename_i hcodec
        exact absurd hcodec (hopen.server.settled _ _)
      · obtain rfl := Option.some.inj hs
        exact ⟨down, Flowing.setStage hflow k .done, .settles hjob hstage rfl rfl (Nat.le_refl _)⟩
    · simp only [hstage] at hs
      cases hs

theorem turn_server (hflow : x.link.Flowing limit up down) (h : x.Inv limit asked offered)
    (hfit : Fitting limit asked offered) (hopen : x.Open) {m : ServerMove}
    (hm : x.link.move? x.handlers now (.server m) = some l) : ∃ up' down', Flowing limit l up' down' ∧
      Turn limit x.handlers now x.link l up down up' down' := by
  have hstation : Station.Open ⟨x.link.server.channel, x.link.down, x.link.up, .none⟩ :=
    ⟨hopen.server, hopen.down, hopen.up⟩
  obtain ⟨e, he, rfl⟩ := Option.map_eq_some_iff.mp hm
  cases m with
  | reads n =>
    obtain ⟨st, hst, rfl⟩ := Option.map_eq_some_iff.mp he
    obtain ⟨hdown, hup, hkeeps⟩ := Line.read? (w := ⟨x.link.server.channel, x.link.down, x.link.up, .none⟩)
      hflow.down hflow.up hstation rfl hst
    exact ⟨up, down, turn_serverStep hflow hdown hup hkeeps (Station.lighter_read? hstation rfl hst _)⟩
  | notices =>
    obtain ⟨st, hst, -⟩ := Option.map_eq_some_iff.mp he
    rw [Station.notice?_eq_none hstation] at hst
    cases hst
  | writes n =>
    obtain ⟨st, hst, rfl⟩ := Option.map_eq_some_iff.mp he
    obtain ⟨hdown, hup, hkeeps⟩ := Line.write? (w := ⟨x.link.server.channel, x.link.down, x.link.up, .none⟩)
      hflow.down hflow.up hstation rfl hst
    exact ⟨up, down, turn_serverStep hflow hdown hup hkeeps (Station.lighter_write? hstation rfl hst _)⟩
  | serves =>
    obtain ⟨server, hs, rfl⟩ := Option.map_eq_some_iff.mp he
    exact turn_serves hflow h hfit hopen hs
  | works k =>
    obtain ⟨server, hs, rfl⟩ := Option.map_eq_some_iff.mp he
    exact ⟨up, turn_works hflow h hfit hopen hs⟩

theorem turn_move (hflow : x.link.Flowing limit up down) (h : x.Inv limit asked offered)
    (hfit : Fitting limit asked offered) (hopen : x.Open) {m : Move}
    (hm : x.link.move? x.handlers now m = some l) : ∃ up' down', Flowing limit l up' down' ∧
      Turn limit x.handlers now x.link l up down up' down' := by
  cases m with
  | client m => exact ⟨up, turn_client hflow hopen hm⟩
  | server m => exact turn_server hflow h hfit hopen hm

theorem Flowing.begin (hflow : Flowing limit l up down) (hopen : l.client.channel.closed = false)
    {r : Request} (hr : Fits limit (.request r)) (k : CallKey) (n : Nat) :
    Flowing limit { l with client := l.client.begin k r n } (up ++ [.request (resolved r)]) down := by
  have hchannel : (l.client.begin k r n).channel = (l.client.channel.submit (.request r)).2 := by
    rw [Client.channel_begin, hopen, if_neg Bool.false_ne_true]
  refine ⟨?_, ?_, ?_, hflow.refusing, hflow.jobs⟩
  · rw [hchannel]
    exact hflow.up.submit hopen hr
  · rw [hchannel]
    exact hflow.down.receiver_eq (sameReader_submit _ _)
  · rw [hchannel]
    obtain ⟨outbound, blocked, settled, he⟩ := Channel.submit_eq l.client.channel (.request r)
    rw [he]
    exact hflow.room

end Exchange

end ClusterNet.Messaging
