import ClusterNet.Proofs.Exchange

/-!
# A connection that nobody closes

As long as neither end is closed, neither end stops: what comes through the stream can be read,
and what is sent has a frame. Then no call ends because the connection is gone.
-/

namespace ClusterNet.Messaging

open Wire

/-! ## Ends that go on -/

structure Channel.Open (c : Channel) : Prop where
  closed : c.closed = false
  writer : c.writer ≠ .stopped
  reader : c.reader ≠ .stopped
  held : c.held = true
  attended : c.attended = true
  settled : ∀ t e, c.outcome? t ≠ some (.error e)

def Pipe.Open (p : Pipe) : Prop := p.shut = false ∧ p.abandoned = false

namespace Station

variable {st st' : Station} {n : Nat} {c : Channel}

structure Open (st : Station) : Prop where
  channel : st.channel.Open
  out : st.out.Open
  into : st.into.Open

theorem open_tidy (h : st.Open) : st.tidy.Open := by
  refine ⟨h.channel, ?_, ?_⟩
  · simp only [tidy, h.channel.writer, if_false]
    exact h.out
  · simp only [tidy, Channel.isDone, h.channel.writer, decide_false, Bool.false_and, Bool.false_eq_true,
      if_false]
    exact h.into

theorem Open.setChannel (h : st.Open) (hc : c.Open) : ({ st with channel := c } : Station).tidy.Open :=
  open_tidy ⟨hc, h.out, h.into⟩

theorem stopWriting?_eq_none (h : c.Open) : c.stopWriting? = none := by
  unfold Channel.stopWriting?
  rw [if_neg]
  rintro ⟨-, hclosed | ⟨hheld, -⟩⟩
  · rw [h.closed] at hclosed
    simp at hclosed
  · exact hheld h.held

theorem open_submit (h : c.Open) (m : Message) : (c.submit m).2.Open := by
  simp only [Channel.submit, h.closed, Bool.false_eq_true, if_false]
  split
  · exact ⟨rfl, h.writer, h.reader, h.held, h.attended, h.settled⟩
  · exact ⟨rfl, h.writer, h.reader, h.held, h.attended, h.settled⟩

theorem open_receive? {d : Channel} {m : Message} (h : c.Open) (hd : c.receive? = some (m, d)) : d.Open := by
  obtain ⟨rest, -, rfl⟩ := Channel.receive?_eq_some hd
  exact ⟨h.closed, h.writer, h.reader, h.held, h.attended, h.settled⟩

theorem open_next? {d r : Channel} {p : Pipe} {l : List Message} (h : c.Open) (hc : Carries c p r l)
    (hd : c.next? = some d) : d.Open := by
  obtain ⟨ms, hms, -⟩ := hc
  unfold Channel.next? at hd
  split at hd
  · rename_i q rest hwriter hclosed hout
    obtain ⟨frame, hframe, -⟩ := hms.fits q.message (by simp [Channel.queue, hout])
    simp only [hms.limit, hframe] at hd
    obtain rfl := Option.some.inj hd
    exact ⟨h.closed, by simp, h.reader, h.held, h.attended, h.settled⟩
  · simp at hd

theorem open_flush? {d : Channel} (h : c.Open) (hd : c.flush? = some d) : d.Open := by
  unfold Channel.flush? at hd
  split at hd
  · obtain rfl := Option.some.inj hd
    refine ⟨h.closed, by simp [Channel.settle], h.reader, h.held, h.attended, fun t e => ?_⟩
    rw [Channel.outcome?_settle]
    split
    · simp
    · exact h.settled t e
  · simp at hd

theorem open_write? (h : st.Open) {r : Channel} {l : List Message} (hc : Carries st.channel st.out r l)
    (hfaults : st.faults = .none) (hw : st.write? n = some st') : st'.Open := by
  unfold write? at hw
  split at hw
  · simp at hw
  · rw [stopWriting?_eq_none h.channel] at hw
    obtain ⟨d, hd, rfl⟩ := Option.map_eq_some_iff.mp hw
    exact h.setChannel (open_next? h.channel hc hd)
  · rename_i t left hwriter
    split at hw
    · have hflush : st.faults.flush = false := by rw [hfaults, Faults.none]
      rw [if_neg (by simp [hflush])] at hw
      obtain ⟨d, hd, rfl⟩ := Option.map_eq_some_iff.mp hw
      exact h.setChannel (open_flush? h.channel hd)
    · have hwrite : st.faults.write = false := by rw [hfaults, Faults.none]
      rw [if_neg (by simp [hwrite, h.out.2])] at hw
      obtain ⟨⟨b, d⟩, hd, rfl⟩ := Option.map_eq_some_iff.mp hw
      unfold Channel.write? at hd
      split at hd
      · split at hd
        · simp at hd
        · obtain ⟨rfl, rfl⟩ := Prod.mk.inj (Option.some.inj hd)
          exact ⟨⟨h.channel.closed, by simp, h.channel.reader, h.channel.held, h.channel.attended,
            h.channel.settled⟩, h.out, h.into⟩
      · simp at hd

/-- Where nothing but frames comes and somebody takes the messages, a reader stops at the end only. -/
theorem open_read {d s : Channel} {p : Pipe} {l : List Message} {b : Bytes} (h : c.Open) (hc : Carries s p c l)
    (hr : Read c false d b) : d.Open := by
  obtain ⟨ms, hms, -⟩ := hc
  cases hr with
  | takes | decodes | parks | passes => exact ⟨h.closed, h.writer, by simp, h.held, h.attended, h.settled⟩
  | ends _ last => cases last
  | breaks decoding broken serious =>
    have hb : c.buffer ++ (p.held ++ s.writer.left) = ms.flatMap (frameOf c.limit) := by
      rcases hms.bytes with hstopped | hb
      · exact absurd hstopped h.reader
      · rwa [← List.append_assoc]
    rcases decode_stream (fun m hm => hms.fits m (List.mem_append_left _ hm)) hb with
      ⟨m, rest, k, -, he, -⟩ | ⟨need, have_, he⟩
    · cases broken.symm.trans he
    · exact absurd (Except.error.inj (broken.symm.trans he)) (serious need have_)
  | leaves holding neglected => exact absurd h.attended (by simp [neglected])

theorem open_read? (h : st.Open) {s : Channel} {l : List Message} (hc : Carries s st.into st.channel l)
    (hfaults : st.faults = .none) (hr : st.read? n = some st') : st'.Open := by
  have hopen : st.into.ended = false := by simp [Pipe.ended, h.into.1]
  obtain ⟨d, ⟨hread, rfl⟩ | ⟨b, rest, -, hread, -, rfl⟩⟩ := read?_cases hfaults hr
  · exact h.setChannel (open_read h.channel hc (hopen ▸ hread))
  · exact ⟨open_read h.channel hc (hopen ▸ hread), h.out, h.into⟩

theorem notice?_eq_none (h : st.Open) : st.notice? = none := by
  simp [notice?, Channel.stopReading?, h.channel.closed]

end Station

/-! ## Calls that nobody cuts off -/

/-- The call has no word of a connection that is gone. -/
structure Call.Steady (call : Call) : Prop where
  lost : call.isOpen = true → call.slot ≠ .lost
  slot : ∀ e, Exchange.Broken e → call.slot ≠ .filled (.error e)
  progress : ∀ e, Exchange.Broken e → call.progress ≠ .over (.error e)

theorem outcomeOf_ne_broken {e : Failure} (h : Exchange.Broken e) (subject : String) (r : Reply) :
    outcomeOf subject r ≠ .error e := by
  unfold outcomeOf
  rcases h with rfl | rfl <;> split <;> simp

namespace Client

variable {c d : Client} {k : CallKey} {call : Call}

def Steady (c : Client) : Prop := ∀ ⦃k call⦄, c.call? k = some call → call.Steady

/-- No id is used by two calls. -/
def Apart (c : Client) : Prop :=
  ∀ ⦃k l r r'⦄, c.request? k = some r → c.request? l = some r' → r.id = r'.id → k = l

theorem Apart.listed (h : c.Apart) (hc : c.Sound) {id : UInt64} {l : CallKey}
    (hid : c.pending.get? id = some l) (hk : c.call? k = some call) (hcall : call.request.id = id) :
    l = k := by
  obtain ⟨a, ha, haid, -⟩ := hc.listed hid
  exact h (request?_of_call? ha) (request?_of_call? hk) (haid.trans hcall.symm)

theorem Steady.finish (h : c.Steady) (hc : c.Sound) (ha : c.Apart) (hk : c.call? k = some call)
    {p : Progress} (hclosed : ∀ a : Call, a.progress = p → a.isOpen = false)
    (hp : ∀ e, Exchange.Broken e → p ≠ .over (.error e)) : (c.finish k p).Steady := by
  intro l a hl
  rw [call?_finish hk] at hl
  obtain ⟨b, hb, rfl⟩ := Option.map_eq_some_iff.mp hl
  obtain ⟨hlost, hslot, hprogress⟩ := h hb
  by_cases hlk : l = k
  · subst hlk
    refine ⟨fun hopen => ?_, fun e he => ?_, ?_⟩
    · rw [hclosed _ (by simp [ended])] at hopen
      simp at hopen
    · intro hfilled
      apply hslot e he
      unfold ended at hfilled
      split at hfilled
      · exact Call.slot_lose hfilled
      · exact hfilled
    · simpa [ended] using hp
  · have hother : c.pending.get? call.request.id ≠ some l := fun hid => hlk (ha.listed hc hid hk rfl)
    simp only [ended, hlk, hother, if_false]
    exact ⟨hlost, hslot, hprogress⟩

theorem Steady.begin (h : c.Steady) (hc : c.Sound) (hopen : c.channel.closed = false) {r : Request}
    (hfresh : ∀ {l r'}, c.request? l = some r' → r'.id ≠ r.id) (k : CallKey) (n : Nat) :
    (c.begin k r n).Steady := by
  intro l a hl
  obtain ⟨slot, progress, hor, hcall⟩ := call?_begin c k r n
  rw [hcall] at hl
  split at hl
  · obtain rfl := Option.some.inj hl
    rcases hor with ⟨hclosed, -⟩ | ⟨-, rfl, rfl⟩
    · rw [hopen] at hclosed
      simp at hclosed
    · exact ⟨by simp, by simp, by simp⟩
  · rw [call?_forget, if_neg] at hl
    · exact h hl
    · intro hid
      obtain ⟨b, hb, hbid, -⟩ := hc.listed hid
      exact hfresh (request?_of_call? hb) hbid

theorem Steady.proceed? (h : c.Steady) (hc : c.Sound) (ha : c.Apart) (hopen : c.channel.Open) {now : Nat}
    (hd : c.proceed? k now = some d) : d.Steady := by
  obtain ⟨call, hcall, hisOpen, ⟨t, -, -, rfl⟩ | ⟨o, rfl, hor⟩⟩ := proceed?_eq_some hd
  · intro l a hl
    simp only [call?, Table.get?_insert] at hl
    split at hl
    · obtain rfl := Option.some.inj hl
      obtain ⟨hlost, hslot, -⟩ := h hcall
      exact ⟨fun _ => hlost hisOpen, hslot, by simp⟩
    · exact h hl
  · refine h.finish hc ha hcall (fun a hp => by simp [Call.isOpen, hp]) fun e he hover => ?_
    obtain rfl := Progress.over.inj hover
    rcases hor with ⟨t, e', -, he', -⟩ | ⟨-, hlook⟩
    · exact hopen.settled t e' he'
    · obtain ⟨hlost, hslot, -⟩ := h hcall
      unfold Call.look? at hlook
      split at hlook
      · split at hlook
        · rename_i hfilled
          rw [Option.some.inj hlook] at hfilled
          exact hslot e he hfilled
        · rename_i hslot'
          exact hlost hisOpen hslot'
        · split at hlook
          · have := Except.error.inj (Option.some.inj hlook)
            rcases he with rfl | rfl <;> simp at this
          · simp at hlook
      · simp at hlook

theorem Steady.abandon (h : c.Steady) (hc : c.Sound) (ha : c.Apart) (k : CallKey) :
    (c.abandon k).Steady := by
  rcases abandon_eq c k with he | ⟨call, channel, hcall, -, -, he⟩
  · rwa [he]
  · rw [he]
    exact Steady.finish (c := { c with channel }) h (hc.setChannel channel) ha hcall
      (fun a hp => by simp [Call.isOpen, hp]) (by simp)

theorem Steady.receive? (h : c.Steady) (hopen : c.channel.Open) (hd : c.receive? = some d) :
    d.Steady ∧ d.receiving = true := by
  obtain ⟨hreceiving, ⟨r, channel, -, rfl⟩ | ⟨r, channel, -, rfl⟩ | ⟨-, hended, -⟩⟩ := receive?_eq_some hd
  · refine ⟨fun l a hl => ?_, by simpa using hreceiving⟩
    rw [call?_deliver] at hl
    split at hl
    · obtain ⟨b, hb, rfl⟩ := Option.map_eq_some_iff.mp hl
      obtain ⟨hlost, hslot, hprogress⟩ := h hb
      refine ⟨fun hb' hf => ?_, fun e he hf => ?_, by simpa using hprogress⟩
      · apply hlost
        · rwa [isOpen_congr (Call.progress_fill b _)] at hb'
        · unfold Call.fill at hf
          split at hf
          · simp at hf
          · exact hf
      · rcases Call.slot_fill hf with hf | hf
        · exact hslot e he hf
        · exact outcomeOf_ne_broken he _ r hf.symm
    · exact h hl
  · exact ⟨h, hreceiving⟩
  · simp [Channel.ended, hopen.reader] at hended

end Client

namespace Exchange

variable {limit : Nat} {asked : Request → Prop} {offered : String → Handler → Prop} {x : Exchange}

/-! ## While nobody closes -/

/-- Both ends go on, and no call has word of anything else. -/
structure Open (x : Exchange) : Prop where
  client : x.link.client.channel.Open
  server : x.link.server.channel.Open
  up : x.link.up.Open
  down : x.link.down.Open
  serving : x.link.server.serving ≠ .stopped
  receiving : x.link.client.receiving = true
  steady : x.link.client.Steady

theorem open_start (limit capacity room : Nat) : (start limit capacity room).Open := by
  have hchannel : (Channel.start limit capacity).Open :=
    ⟨rfl, by simp [Channel.start], by simp [Channel.start], rfl, rfl, by simp [Channel.start, Channel.outcome?]⟩
  refine ⟨hchannel, hchannel, ⟨rfl, rfl⟩, ⟨rfl, rfl⟩, by simp [start, Link.start, Server.ofChannel], rfl, ?_⟩
  intro k call hk
  simp [start, Link.start, Client.ofChannel, Client.call?] at hk

theorem Open.begin (h : x.Open) (hinv : x.Inv limit asked offered) {k : CallKey} {r : Request}
    (hfresh : x.isFresh k r.id = true) (n : Nat) :
    Open { x with link := { x.link with client := x.link.client.begin k r n } } := by
  obtain ⟨-, hid⟩ := values_of_isFresh hfresh
  refine ⟨?_, h.server, h.up, h.down, h.serving, by simpa using h.receiving,
    h.steady.begin hinv.sound h.client.closed hid k n⟩
  simp only [Client.channel_begin, h.client.closed, Bool.false_eq_true, if_false]
  exact Station.open_submit h.client _

theorem Open.abandon (h : x.Open) (hinv : x.Inv limit asked offered) (k : CallKey) :
    Open { x with link := { x.link with client := x.link.client.abandon k } } := by
  have hsteady := h.steady.abandon hinv.sound (fun _ _ _ _ => hinv.distinct) k
  refine ⟨?_, h.server, h.up, h.down, h.serving, ?_, hsteady⟩
  · rcases Client.channel_abandon x.link.client k with he | ⟨t, he⟩
    · simp only [he]
      exact h.client
    · simp only [he]
      exact ⟨h.client.closed, h.client.writer, h.client.reader, h.client.held, h.client.attended,
        h.client.settled⟩
  · rcases Client.abandon_eq x.link.client k with he | ⟨call, channel, -, -, -, he⟩
    · simp only [he]
      exact h.receiving
    · simp only [he, Client.receiving_finish]
      exact h.receiving

theorem Open.clientMove (h : x.Open) (hinv : x.Inv limit asked offered) {now : Nat} {m : ClientMove}
    {l : Link} (hm : x.link.move? x.handlers now (.client m) = some l) : Open { x with link := l } := by
  obtain ⟨e, he, rfl⟩ := Option.map_eq_some_iff.mp hm
  have hstation : Station.Open ⟨x.link.client.channel, x.link.up, x.link.down, .none⟩ :=
    ⟨h.client, h.up, h.down⟩
  obtain ⟨up, hup, -⟩ := hinv.up
  obtain ⟨down, hdown, -⟩ := hinv.down
  cases m with
  | reads n =>
    obtain ⟨st, hst, rfl⟩ := Option.map_eq_some_iff.mp he
    obtain ⟨hc, ho, hi⟩ := Station.open_read? hstation hdown rfl hst
    exact ⟨hc, h.server, ho, hi, h.serving, h.receiving, h.steady⟩
  | notices =>
    obtain ⟨st, hst, -⟩ := Option.map_eq_some_iff.mp he
    rw [Station.notice?_eq_none hstation] at hst
    simp at hst
  | writes n =>
    obtain ⟨st, hst, rfl⟩ := Option.map_eq_some_iff.mp he
    obtain ⟨hc, ho, hi⟩ := Station.open_write? hstation hup rfl hst
    exact ⟨hc, h.server, ho, hi, h.serving, h.receiving, h.steady⟩
  | receives =>
    obtain ⟨client, hc, rfl⟩ := Option.map_eq_some_iff.mp he
    obtain ⟨hsteady, hreceiving⟩ := h.steady.receive? h.client hc
    refine ⟨?_, h.server, h.up, h.down, h.serving, hreceiving, hsteady⟩
    obtain ⟨-, ⟨r, channel, hr, rfl⟩ | ⟨r, channel, hr, rfl⟩ | ⟨-, hended, -⟩⟩ := Client.receive?_eq_some hc
    · simp only [Client.channel_deliver]
      exact Station.open_receive? h.client hr
    · exact Station.open_receive? h.client hr
    · simp [Channel.ended, h.client.reader] at hended
  | proceeds k =>
    obtain ⟨client, hc, rfl⟩ := Option.map_eq_some_iff.mp he
    have hsteady := h.steady.proceed? hinv.sound (fun _ _ _ _ => hinv.distinct) h.client hc
    refine ⟨?_, h.server, h.up, h.down, h.serving, ?_, hsteady⟩
    · rw [Client.channel_proceed? hc]
      exact h.client
    · rw [Client.receiving_proceed? hc]
      exact h.receiving

theorem open_work? {s s' : Server} {k : JobKey} {now : Nat} (h : s.channel.Open)
    (hs : s.work? k now = some s') : s'.channel.Open ∧ s'.serving = s.serving := by
  obtain ⟨hserving, hchannel | ⟨r, hchannel⟩⟩ := Server.work?_channel hs
  · exact ⟨hchannel ▸ h, hserving⟩
  · exact ⟨hchannel ▸ Station.open_submit h _, hserving⟩

theorem open_serve? {s s' : Server} {handlers : Handlers} {now : Nat} (h : s.channel.Open)
    (hadapted : ∀ {n g}, handlers.get? n = some g → g.Adapted) (hserving : s.serving ≠ .stopped)
    (hs : s.serve? handlers now = some s') : s'.channel.Open ∧ s'.serving ≠ .stopped := by
  unfold Server.serve? at hs
  split at hs
  · simp at hs
  · obtain ⟨-, -, rfl⟩ := Option.map_eq_some_iff.mp hs
    exact ⟨h, by simp⟩
  · split at hs
    · rename_i r channel hr
      obtain rfl := Option.some.inj hs
      have hchannel := Station.open_receive? h hr
      cases hh : handlers.get? r.subject with
      | none =>
        rw [dispatch_none now hh]
        exact ⟨Station.open_submit hchannel _, by simp⟩
      | some g =>
        obtain ⟨ms, effort, hworks⟩ := Handler.works_of_adapted (hadapted hh) r
        rw [dispatch_works now hh hworks]
        exact ⟨hchannel, hserving⟩
    · rename_i r channel hr
      obtain rfl := Option.some.inj hs
      exact ⟨Station.open_receive? h hr, hserving⟩
    · split at hs
      · rename_i hended
        simp [Channel.ended, h.reader] at hended
      · simp at hs

theorem Open.serverMove (h : x.Open) (hinv : x.Inv limit asked offered) (hfit : Fitting limit asked offered)
    {now : Nat} {m : ServerMove} {l : Link} (hm : x.link.move? x.handlers now (.server m) = some l)
    (arrived : List Request) (dispatched : List (Request × Option Handler)) :
    Open { x with link := l, arrived, dispatched } := by
  obtain ⟨e, he, rfl⟩ := Option.map_eq_some_iff.mp hm
  have hstation : Station.Open ⟨x.link.server.channel, x.link.down, x.link.up, .none⟩ :=
    ⟨h.server, h.down, h.up⟩
  obtain ⟨up, hup, -⟩ := hinv.up
  obtain ⟨down, hdown, -⟩ := hinv.down
  cases m with
  | reads n =>
    obtain ⟨st, hst, rfl⟩ := Option.map_eq_some_iff.mp he
    obtain ⟨hc, ho, hi⟩ := Station.open_read? hstation hup rfl hst
    exact ⟨h.client, hc, hi, ho, h.serving, h.receiving, h.steady⟩
  | notices =>
    obtain ⟨st, hst, -⟩ := Option.map_eq_some_iff.mp he
    rw [Station.notice?_eq_none hstation] at hst
    simp at hst
  | writes n =>
    obtain ⟨st, hst, rfl⟩ := Option.map_eq_some_iff.mp he
    obtain ⟨hc, ho, hi⟩ := Station.open_write? hstation hdown rfl hst
    exact ⟨h.client, hc, hi, ho, h.serving, h.receiving, h.steady⟩
  | serves =>
    obtain ⟨server, hs, rfl⟩ := Option.map_eq_some_iff.mp he
    obtain ⟨hc, hserving⟩ := open_serve? h.server (fun hh => hfit.adapted (hinv.registered hh)) h.serving hs
    exact ⟨h.client, hc, h.up, h.down, hserving, h.receiving, h.steady⟩
  | works k =>
    obtain ⟨server, hs, rfl⟩ := Option.map_eq_some_iff.mp he
    obtain ⟨hc, hserving⟩ := open_work? h.server hs
    exact ⟨h.client, hc, h.up, h.down, by rw [hserving]; exact h.serving, h.receiving, h.steady⟩

theorem Open.act (h : x.Open) (hinv : x.Inv limit asked offered) (hfit : Fitting limit asked offered)
    {a : LinkAct} (hclient : a ≠ .closesClient) (hserver : a ≠ .closesServer) : (x.act a).Open := by
  cases a with
  | begins k r n =>
    simp only [Exchange.act]
    split
    · rename_i hfresh
      exact h.begin hinv hfresh n
    · exact h
  | abandons k => exact h.abandon hinv k
  | registers subject handler => exact { h with }
  | unregisters subject => exact { h with }
  | closesClient => exact absurd rfl hclient
  | closesServer => exact absurd rfl hserver
  | moves now m =>
    simp only [Exchange.act]
    split
    · exact h
    · rename_i l hl
      cases m with
      | client m => exact { h.clientMove hinv hl with }
      | server m => exact h.serverMove hinv hfit hl _ _

theorem Open.run (h : x.Open) (hinv : x.Inv limit asked offered) (hfit : Fitting limit asked offered)
    {acts : List LinkAct} (hacts : ∀ a ∈ acts, Within asked offered a)
    (hclient : .closesClient ∉ acts) (hserver : .closesServer ∉ acts) : (x.run acts).Open := by
  induction acts generalizing x with
  | nil => exact h
  | cons a acts ih =>
    simp only [List.mem_cons, not_or] at hclient hserver
    have ha := hacts a List.mem_cons_self
    exact ih (h.act hinv hfit (Ne.symm hclient.1) (Ne.symm hserver.1)) (hinv.act hfit ha)
      (fun b hb => hacts b (List.mem_cons_of_mem a hb)) hclient.2 hserver.2

end Exchange

end ClusterNet.Messaging
