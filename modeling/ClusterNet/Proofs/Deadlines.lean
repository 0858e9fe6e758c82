import ClusterNet.Messaging.Link
import ClusterNet.Proofs.Answers

/-!
# How long a call takes

A caller says how long to wait for the reply. The timer is set when the caller learns that the request has
been flushed, and until then no timer runs. So a call takes no longer than its caller has, and as long again
as the stream holds the writer up in the middle of a frame: a peer that does not read can keep a call for
ever.
-/

namespace ClusterNet.Messaging

open Wire

/-! ## A client at its end of a stream -/

namespace Station

variable {w w' : Station} {n : Nat}

theorem move?_of_write? (h : w.write? n = some w') :
    ∃ m, (∀ t, m ≠ .withdraws t) ∧ w.channel.move? m = some w'.channel := by
  unfold write? at h
  split at h
  · cases h
  · obtain ⟨c, hc, rfl⟩ := Option.map_eq_some_iff.mp h
    cases hstop : w.channel.stopWriting? with
    | some d =>
      rw [hstop] at hc
      obtain rfl := Option.some.inj hc
      exact ⟨.stopsWriting, nofun, hstop⟩
    | none =>
      rw [hstop] at hc
      exact ⟨.takes, nofun, hc⟩
  · split at h
    · split at h
      · obtain ⟨c, hc, rfl⟩ := Option.map_eq_some_iff.mp h
        exact ⟨.writeFails, nofun, hc⟩
      · obtain ⟨c, hc, rfl⟩ := Option.map_eq_some_iff.mp h
        exact ⟨.flushes, nofun, hc⟩
    · split at h
      · obtain ⟨c, hc, rfl⟩ := Option.map_eq_some_iff.mp h
        exact ⟨.writeFails, nofun, hc⟩
      · obtain ⟨⟨b, c⟩, hc, rfl⟩ := Option.map_eq_some_iff.mp h
        exact ⟨.writes _, nofun, by rw [Channel.move?, hc, Option.map_some]⟩

theorem move?_of_read? (h : w.read? n = some w') :
    ∃ m, (∀ t, m ≠ .withdraws t) ∧ w.channel.move? m = some w'.channel := by
  unfold read? at h
  split at h
  · cases h
  · obtain ⟨c, hc, rfl⟩ := Option.map_eq_some_iff.mp h
    exact ⟨.decodes, nofun, hc⟩
  · obtain ⟨c, hc, rfl⟩ := Option.map_eq_some_iff.mp h
    exact ⟨.forwards, nofun, hc⟩
  · split at h
    · obtain ⟨c, hc, rfl⟩ := Option.map_eq_some_iff.mp h
      exact ⟨.readFails, nofun, hc⟩
    · split at h
      · obtain ⟨c, hc, rfl⟩ := Option.map_eq_some_iff.mp h
        exact ⟨.reads [], nofun, hc⟩
      · split at h
        · cases h
        · obtain ⟨c, hc, rfl⟩ := Option.map_eq_some_iff.mp h
          exact ⟨.reads _, nofun, hc⟩

theorem move?_of_notice? (h : w.notice? = some w') :
    ∃ m, (∀ t, m ≠ .withdraws t) ∧ w.channel.move? m = some w'.channel := by
  obtain ⟨c, hc, rfl⟩ := Option.map_eq_some_iff.mp h
  exact ⟨.stopsReading, nofun, hc⟩

/-- The writer is in the middle of a frame, and the pipe is full. -/
def Stalled (w : Station) : Prop := ∃ t left, w.channel.writer = .writing t left ∧ left ≠ [] ∧ w.out.room = 0

theorem writer_of_write?_eq_none (hfaults : w.faults = .none) (h : w.write? 1 = none) :
    w.channel.writer = .stopped ∨
      (w.channel.writer = .idle ∧ w.channel.closed = false ∧ w.channel.outbound = []) ∨ w.Stalled := by
  unfold write? at h
  split at h
  · exact .inl ‹_›
  · rename_i hidle
    have hnone := Option.map_eq_none_iff.mp h
    cases hstop : w.channel.stopWriting? with
    | some d =>
      rw [hstop] at hnone
      cases hnone
    | none =>
      rw [hstop] at hnone
      change w.channel.next? = none at hnone
      have hopen : w.channel.closed = false := by
        by_contra hclosed
        unfold Channel.stopWriting? at hstop
        rw [if_pos ⟨hidle, .inl (by simpa using hclosed)⟩] at hstop
        cases hstop
      refine .inr (.inl ⟨hidle, hopen, ?_⟩)
      cases hout : w.channel.outbound with
      | nil => rfl
      | cons p rest =>
        unfold Channel.next? at hnone
        simp only [hidle, hopen, hout] at hnone
        split at hnone <;> cases hnone
  · rename_i t left hwriting
    cases left with
    | nil =>
      simp [hfaults, Faults.none, Channel.flush?, hwriting] at h
    | cons b left =>
      rw [if_neg (by simp)] at h
      split at h
      · simp [Channel.writeFails?, hwriting] at h
      · refine .inr (.inr ⟨t, b :: left, hwriting, by simp, ?_⟩)
        by_contra hroom
        have hmin : min 1 w.out.room ≠ 0 := by omega
        simp [Channel.write?, hwriting, hmin] at h

theorem write?_of_stalled (h : w.Stalled) (hfaults : w.faults = .none) (hpeer : w.out.abandoned = false) (n : Nat) :
    w.write? n = none := by
  obtain ⟨t, left, hwriting, hsome, hroom⟩ := h
  unfold write?
  simp only [hwriting]
  rw [if_neg (by simpa using hsome), if_neg (by simp [hfaults, Faults.none, hpeer]), hroom, Nat.min_zero]
  obtain ⟨b, left, rfl⟩ := List.exists_cons_of_ne_nil hsome
  simp [Channel.write?, hwriting]

end Station

/-- How the client at an end looks to its channel. -/
def ClientEnd.station (e : ClientEnd) : Station := ⟨e.client.channel, e.out, e.into, .none⟩

/-- What a client may do by itself at some time: it takes no request back, and no call begins. -/
def ClientAct.Own (now : Nat) : ClientAct → Prop
  | .begins _ _ _ => False
  | .abandons _ => False
  | .proceeds _ t => t = now
  | .receives => True
  | .channel m => ∀ t, m ≠ .withdraws t

theorem ClientAct.Own.permits {now : Nat} {a : ClientAct} (h : a.Own now) (c : Client) : c.Permits a = true := by
  cases a with
  | channel m =>
    cases m with
    | withdraws t => exact absurd rfl (h t)
    | _ => rfl
  | _ => rfl

theorem ClientEnd.move?_eq_some {e d : ClientEnd} {now : Nat} {m : ClientMove} (h : e.move? now m = some d) :
    ∃ a : ClientAct, a.Own now ∧ d.client = e.client.act a := by
  have hlift : ∀ {w : Station} {m : ChannelMove}, (∀ t, m ≠ .withdraws t) →
      e.client.channel.move? m = some w.channel →
        ∃ a : ClientAct, a.Own now ∧ { e.client with channel := w.channel } = e.client.act a := by
    intro w m hkeeps hmove
    refine ⟨.channel m, hkeeps, ?_⟩
    rw [Client.act, hmove, Option.getD_some]
  cases m with
  | reads n =>
    obtain ⟨w, hw, rfl⟩ := Option.map_eq_some_iff.mp h
    obtain ⟨m, hkeeps, hmove⟩ := Station.move?_of_read? hw
    exact hlift hkeeps hmove
  | notices =>
    obtain ⟨w, hw, rfl⟩ := Option.map_eq_some_iff.mp h
    obtain ⟨m, hkeeps, hmove⟩ := Station.move?_of_notice? hw
    exact hlift hkeeps hmove
  | writes n =>
    obtain ⟨w, hw, rfl⟩ := Option.map_eq_some_iff.mp h
    obtain ⟨m, hkeeps, hmove⟩ := Station.move?_of_write? hw
    exact hlift hkeeps hmove
  | receives =>
    obtain ⟨c, hc, rfl⟩ := Option.map_eq_some_iff.mp h
    exact ⟨.receives, trivial, by rw [Client.act, hc, Option.getD_some]⟩
  | proceeds k =>
    obtain ⟨c, hc, rfl⟩ := Option.map_eq_some_iff.mp h
    exact ⟨.proceeds k now, rfl, by rw [Client.act, hc, Option.getD_some]⟩

/-- A client at its end of a stream, and when each of its calls began. -/
structure Booth where
  site : ClientEnd
  began : Table CallKey Nat

inductive BoothAct where
  | begins (k : CallKey) (r : Request) (patience : Nat)
  | abandons (k : CallKey)
  /-- A message to which no reply is expected. -/
  | sends (m : Message)
  /-- The sender of such a message gives up. -/
  | withdraws (t : Ticket)
  | closes
  | readFails
  | writeFails
  /-- What the client does by itself. -/
  | moves (m : ClientMove)
  /-- The peer reads. -/
  | drains (n : Nat)
  /-- The peer writes as much as there is room for. -/
  | feeds (b : Bytes)
  /-- The peer has written all. -/
  | finishes
  /-- The peer reads no more. -/
  | leaves

namespace Booth

/-- The client over pipes of its own, with a queue that holds so many messages. -/
def start (limit capacity outRoom intoRoom : Nat) : Booth :=
  ⟨⟨.ofChannel (.start limit capacity), .ofCapacity outRoom, .ofCapacity intoRoom⟩, .empty⟩

def onClient (x : Booth) (a : ClientAct) : Booth := { x with site := { x.site with client := x.site.client.act a } }

/-- What is not possible now changes nothing. A key is used for one call only, and nobody takes the request
of a call back but the call itself. -/
def act (x : Booth) (now : Nat) : BoothAct → Booth
  | .begins k r n =>
    if (x.site.client.call? k).isNone then { x.onClient (.begins k r n) with began := x.began.insert k now } else x
  | .abandons k => x.onClient (.abandons k)
  | .sends m => x.onClient (.channel (.sends m))
  | .withdraws t =>
    if x.site.client.Permits (.channel (.withdraws t)) then x.onClient (.channel (.withdraws t)) else x
  | .closes => x.onClient (.channel .closes)
  | .readFails => x.onClient (.channel .readFails)
  | .writeFails => x.onClient (.channel .writeFails)
  | .moves m =>
    match x.site.move? now m with
    | some site => { x with site }
    | none => x
  | .drains n => { x with site := { x.site with out := (x.site.out.take n).2 } }
  | .feeds b => { x with site := { x.site with into := x.site.into.put (b.take x.site.into.room) } }
  | .finishes => { x with site := { x.site with into := x.site.into.finish } }
  | .leaves => { x with site := { x.site with out := x.site.out.leave } }

def run (x : Booth) (now : Nat) (acts : List BoothAct) : Booth := acts.foldl (fun x m => x.act now m) x

/-- Nothing can move by itself until some timer is due, or the peer does something. -/
def Rests (x : Booth) (now : Nat) : Prop := ∀ m, x.site.move? now m = none

/-- The moments for which timers are set. -/
def dues (x : Booth) : List Nat := x.site.client.calls.values.filterMap Call.due?

/-- The stream is full in the middle of a frame. -/
def Stalled (x : Booth) : Prop := x.site.station.Stalled

/-- What a client comes to until some time. Time goes on when nothing moves and the stream does not hold the
writer up, but not past a timer, and what goes by otherwise is lost. -/
inductive Reached (s : Booth) : (lost now : Nat) → Booth → Prop where
  | opens (now : Nat) : Reached s 0 now s
  | acts {lost now : Nat} {x : Booth} (m : BoothAct) (before : Reached s lost now x) : Reached s lost now (x.act now m)
  | waits {lost now later : Nat} {x : Booth} (before : Reached s lost now x) (quiet : x.Rests now)
      (free : ¬ x.Stalled) (forward : now ≤ later) (soon : ∀ due ∈ x.dues, later ≤ due) : Reached s lost later x
  | loses {lost now : Nat} {x : Booth} (d : Nat) (before : Reached s lost now x) : Reached s (lost + d) (now + d) x

/-! ## What always holds -/

/-- How far a call has come by some time, if it began then and so much time has been lost. -/
inductive Dated (lost now began : Nat) (a : Call) : Prop where
  | sending {t : Ticket} (progress : a.progress = .sending t) (since : began ≤ now) (soon : now ≤ began + lost)
  | waiting {due : Nat} (progress : a.progress = .waiting due) (set : began + a.patience ≤ due)
      (soon : due ≤ began + a.patience + lost) (time : now ≤ began + a.patience + lost)

structure Inv (lost now : Nat) (x : Booth) : Prop where
  tended : x.site.client.Tended
  candid : x.site.client.channel.Candid
  dated : ∀ k a, x.site.client.call? k = some a → a.isOpen = true →
    ∃ began, x.began.get? k = some began ∧ Dated lost now began a

variable {x y : Booth} {k : CallKey} {a b : Call} {lost now later began : Nat}

theorem Dated.time (h : Dated lost now began a) : now ≤ began + a.patience + lost := by
  cases h with
  | sending _ _ soon => omega
  | waiting _ _ _ time => exact time

theorem inv_start (limit : Nat) {capacity : Nat} (hcapacity : 0 < capacity) (outRoom intoRoom now : Nat) :
    Inv 0 now (start limit capacity outRoom intoRoom) where
  tended := Client.tended_ofChannel limit hcapacity
  candid := Channel.candid_start limit capacity
  dated k a ha := by simp [start, Client.ofChannel, Client.call?] at ha

theorem candid_withdraw {c : Channel} (h : c.Candid) (t : Ticket) : (c.withdraw t).Candid where
  refused := h.refused
  ready hcapacity hnone := by
    rw [Channel.withdraw, h.ready hcapacity hnone]
    rfl

theorem candid_act {c : Client} (h : c.channel.Candid) (a : ClientAct) : (c.act a).channel.Candid := by
  rcases Client.shift_act c a with hshift | ⟨t, he, -⟩
  · exact hshift.candid h
  · rw [he]
    exact candid_withdraw h t

/-- What an act does: the client takes an act of its own or of someone else, and a call that begins gets a
date. -/
inductive Happens (x : Booth) (now : Nat) : Booth → Prop where
  | begins {y : Booth} (k : CallKey) (r : Request) (n : Nat) (new : x.site.client.call? k = none)
      (client : y.site.client = x.site.client.act (.begins k r n)) (began : y.began = x.began.insert k now) :
      Happens x now y
  | does {y : Booth} (a : ClientAct) (permits : x.site.client.Permits a = true)
      (time : ∀ k t, a = .proceeds k t → t = now) (older : ∀ k r n, a ≠ .begins k r n)
      (client : y.site.client = x.site.client.act a) (began : y.began = x.began) : Happens x now y
  | idle {y : Booth} (client : y.site.client = x.site.client) (began : y.began = x.began) : Happens x now y

theorem happens (x : Booth) (now : Nat) (m : BoothAct) : x.Happens now (x.act now m) := by
  cases m with
  | begins k r n =>
    simp only [act]
    split
    · exact .begins k r n (Option.isNone_iff_eq_none.mp ‹_›) rfl rfl
    · exact .idle rfl rfl
  | withdraws t =>
    simp only [act]
    split
    · exact .does (.channel (.withdraws t)) ‹_› (by simp) (by simp) rfl rfl
    · exact .idle rfl rfl
  | moves m =>
    simp only [act]
    split
    · obtain ⟨a, hown, hclient⟩ := ClientEnd.move?_eq_some ‹_›
      refine .does a (hown.permits _) (fun k t he => ?_) (fun k r n he => ?_) hclient rfl
      · rw [he] at hown
        exact hown
      · rw [he] at hown
        exact hown
    · exact .idle rfl rfl
  | abandons k => exact .does (.abandons k) rfl (by simp) (by simp) rfl rfl
  | sends m => exact .does (.channel (.sends m)) rfl (by simp) (by simp) rfl rfl
  | closes => exact .does (.channel .closes) rfl (by simp) (by simp) rfl rfl
  | readFails => exact .does (.channel .readFails) rfl (by simp) (by simp) rfl rfl
  | writeFails => exact .does (.channel .writeFails) rfl (by simp) (by simp) rfl rfl
  | drains | feeds | finishes | leaves => exact .idle rfl rfl

/-- A call that has begun before keeps its date. The timer is set for the time its caller has from now on. -/
theorem Dated.turns {channel : Channel} {act : ClientAct} (h : Dated lost now began a) (hturns : a.Turns channel act b)
    (hpatience : b.patience = a.patience) (htime : ∀ k t, act = .proceeds k t → t = now) (hopen : b.isOpen = true) :
    Dated lost now began b := by
  have hpasses := hturns.progress
  generalize hp : b.progress = p at hpasses
  have hover : ∀ o, p ≠ .over o := by
    rintro o rfl
    rw [Call.isOpen, hp] at hopen
    cases hopen
  cases hpasses with
  | stays =>
    cases h with
    | sending progress since soon => exact .sending (hp.trans progress) since soon
    | waiting progress set soon time =>
      rw [← hpatience] at set soon time
      exact .waiting (hp.trans progress) set soon time
  | leaves =>
    rw [Call.isOpen, hp] at hopen
    cases hopen
  | sent proceeds sending =>
    obtain rfl := htime _ _ proceeds
    -- The timer starts only now, so all that has gone by since the call began has been lost.
    cases h with
    | sending progress since soon => exact .waiting hp (by omega) (by omega) (by omega)
    | waiting progress => cases progress.symm.trans sending
  | fails => exact absurd rfl (hover _)
  | looks => exact absurd rfl (hover _)

theorem Inv.dated_of_older (h : x.Inv lost now) {act : ClientAct} (htime : ∀ k t, act = .proceeds k t → t = now)
    (ha : x.site.client.call? k = some a) (hb : (x.site.client.act act).call? k = some b) (hopen : b.isOpen = true) :
    ∃ began, x.began.get? k = some began ∧ Dated lost now began b := by
  obtain ⟨b', hb', -, hpatience, hsame⟩ := Watched.keeps_act x.site.client act ha
  obtain rfl := Option.some.inj (hb'.symm.trans hb)
  have hbefore : a.isOpen = true := by
    by_contra hclosed
    rw [Client.isOpen_congr (hsame (by simpa using hclosed))] at hopen
    exact hclosed hopen
  obtain ⟨began, hk, hdated⟩ := h.dated k a ha hbefore
  refine ⟨began, hk, ?_⟩
  rcases Client.turns_act act hb with ⟨a', ha', hturns⟩ | ⟨hnone, -⟩
  · obtain rfl := Option.some.inj (ha.symm.trans ha')
    exact hdated.turns hturns hpatience htime hopen
  · rw [ha] at hnone
    cases hnone

theorem Inv.act (h : x.Inv lost now) (m : BoothAct) : (x.act now m).Inv lost now := by
  have happened := x.happens now m
  generalize x.act now m = y at happened
  cases happened with
  | begins k r n new client began =>
    refine ⟨?_, ?_, fun l b hb hopen => ?_⟩
    · rw [client]
      exact h.tended.act rfl
    · rw [client]
      exact candid_act h.candid _
    rw [client] at hb
    rw [began]
    rcases Client.turns_act _ hb with ⟨a, ha, -⟩ | ⟨-, r', n', he, -, hnew⟩
    · have hl : l ≠ k := by
        rintro rfl
        rw [new] at ha
        cases ha
      rw [Table.get?_insert_of_ne _ hl]
      exact h.dated_of_older (by simp) ha hb hopen
    · cases he
      refine ⟨now, Table.get?_insert_self _ _ _, ?_⟩
      rcases hnew with ⟨-, hover⟩ | ⟨-, -, hsending⟩
      · rw [Call.isOpen, hover] at hopen
        cases hopen
      · exact .sending hsending (Nat.le_refl _) (Nat.le_add_right _ _)
  | does act permits time older client began =>
    refine ⟨?_, ?_, fun k b hb hopen => ?_⟩
    · rw [client]
      exact h.tended.act permits
    · rw [client]
      exact candid_act h.candid act
    rw [client] at hb
    rw [began]
    rcases Client.turns_act act hb with ⟨a, ha, -⟩ | ⟨-, r, n, he, -⟩
    · exact h.dated_of_older time ha hb hopen
    · exact absurd he (older k r n)
  | idle client began =>
    refine ⟨?_, ?_, ?_⟩
    · rw [client]
      exact h.tended
    · rw [client]
      exact h.candid
    · rw [client, began]
      exact h.dated

/-! ## When nothing moves -/

/-- A timer is set for the call, and it is still to come. -/
structure Timed (lost now began : Nat) (a : Call) : Prop where
  slot : a.slot = .empty
  timer : ∃ due, a.progress = .waiting due ∧ now < due ∧ began + a.patience ≤ due ∧ due ≤ began + a.patience + lost

/-- It is not known yet what became of the request, because the stream is full. -/
structure Held (x : Booth) (a : Call) : Prop where
  untold : ∃ t, a.progress = .sending t ∧ x.site.client.channel.outcome? t = none
  stalled : x.Stalled

theorem Inv.held (h : x.Inv lost now) (hrests : x.Rests later) (hk : x.site.client.call? k = some a) {t : Ticket}
    (hsending : a.progress = .sending t) : x.Held a := by
  have hproceed : x.site.client.proceed? k later = none := Option.map_eq_none_iff.mp (hrests (.proceeds k))
  have hnone : x.site.client.channel.outcome? t = none := by
    unfold Client.proceed? at hproceed
    rw [hk] at hproceed
    cases htold : x.site.client.channel.outcome? t with
    | none => rfl
    | some o => cases o <;> simp [hsending, htold] at hproceed
  refine ⟨⟨t, hsending, hnone⟩, ?_⟩
  have htracks := (h.tended.ticket hk hsending).2
  have hwrite : x.site.station.write? 1 = none := Option.map_eq_none_iff.mp (hrests (.writes 1))
  rcases Station.writer_of_write?_eq_none rfl hwrite with hstopped | ⟨hidle, -, hout⟩ | hstalled
  · obtain ⟨-, hout, hblocked⟩ := h.tended.regular.writer hstopped
    rcases htracks with hsome | hmem | ⟨left, hwriting⟩
    · rw [hnone] at hsome
      cases hsome
    · simp [hout, hblocked] at hmem
    · cases hstopped.symm.trans hwriting
  · -- A writer without a frame leaves nothing in the queue, and nobody waits for room that is there.
    have hblocked := h.candid.ready h.tended.regular.capacity hout
    change x.site.client.channel.outbound = [] at hout
    rcases htracks with hsome | hmem | ⟨left, hwriting⟩
    · rw [hnone] at hsome
      cases hsome
    · simp [hout, hblocked] at hmem
    · cases hidle.symm.trans hwriting
  · exact hstalled

theorem Inv.timed (h : x.Inv lost now) (hrests : x.Rests now) (hk : x.site.client.call? k = some a) {due : Nat}
    (hwaiting : a.progress = .waiting due) :
    ∃ began, x.began.get? k = some began ∧ Timed lost now began a := by
  obtain ⟨began, hbegan, hdated⟩ := h.dated k a hk (by rw [Call.isOpen, hwaiting])
  refine ⟨began, hbegan, ?_⟩
  have hlook : a.look? now = none := by
    have hproceed : x.site.client.proceed? k now = none := Option.map_eq_none_iff.mp (hrests (.proceeds k))
    unfold Client.proceed? at hproceed
    rw [hk] at hproceed
    simpa [hwaiting] using hproceed
  unfold Call.look? at hlook
  rw [hwaiting] at hlook
  dsimp only at hlook
  split at hlook
  · cases hlook
  · cases hlook
  · rename_i hslot
    split at hlook
    · cases hlook
    · rename_i hearly
      cases hdated with
      | sending progress => cases progress.symm.trans hwaiting
      | waiting progress set soon =>
        obtain rfl := Progress.waiting.inj (progress.symm.trans hwaiting)
        exact ⟨hslot, _, progress, Nat.not_le.mp hearly, set, soon⟩

theorem mem_dues {due : Nat} (hk : x.site.client.call? k = some a) (hwaiting : a.progress = .waiting due) :
    due ∈ x.dues :=
  List.mem_filterMap.mpr ⟨a, List.mem_map.mpr ⟨_, Table.mem_of_lookup hk, rfl⟩, by rw [Call.due?, hwaiting]⟩

/-- While time goes on, nobody sends, and no timer is passed. -/
theorem Inv.waits (h : x.Inv lost now) (hquiet : x.Rests now) (hfree : ¬ x.Stalled)
    (hsoon : ∀ due ∈ x.dues, later ≤ due) : x.Inv lost later where
  tended := h.tended
  candid := h.candid
  dated k a ha hopen := by
    obtain ⟨began, hbegan, hdated⟩ := h.dated k a ha hopen
    refine ⟨began, hbegan, ?_⟩
    cases hdated with
    | sending progress => exact absurd (h.held hquiet ha progress).stalled hfree
    | waiting progress set soon => exact .waiting progress set soon ((hsoon _ (mem_dues ha progress)).trans soon)

theorem Inv.loses (h : x.Inv lost now) (d : Nat) : x.Inv (lost + d) (now + d) where
  tended := h.tended
  candid := h.candid
  dated k a ha hopen := by
    obtain ⟨began, hbegan, hdated⟩ := h.dated k a ha hopen
    refine ⟨began, hbegan, ?_⟩
    cases hdated with
    | sending progress since soon => exact .sending progress (by omega) (by omega)
    | waiting progress set soon time => exact .waiting progress set (by omega) (by omega)

theorem Reached.run {s : Booth} (h : s.Reached lost now x) (acts : List BoothAct) :
    s.Reached lost now (x.run now acts) := by
  induction acts generalizing x with
  | nil => exact h
  | cons m acts ih => exact ih (h.acts m)

theorem Reached.inv {limit capacity outRoom intoRoom : Nat} (hcapacity : 0 < capacity)
    (h : (start limit capacity outRoom intoRoom).Reached lost now x) : x.Inv lost now := by
  induction h with
  | opens now => exact inv_start limit hcapacity outRoom intoRoom now
  | acts m _ ih => exact ih.act m
  | waits _ quiet free _ soon ih => exact ih.waits quiet free soon
  | loses d _ ih => exact ih.loses d

/-- What is true of the calls at some time, when so much time has been lost. -/
structure OnTime (lost now : Nat) (x : Booth) : Prop where
  /-- When nothing moves, whoever has not come to an end has a timer that is set, unless the stream is full. -/
  rests : x.Rests now → ∀ k a, x.site.client.call? k = some a → a.isOpen = true →
    (∃ began, x.began.get? k = some began ∧ Timed lost now began a) ∨ x.Held a
  /-- Nobody takes longer than the caller has and than the time that was lost. -/
  ends : ∀ k a, x.site.client.call? k = some a → a.isOpen = true →
    ∃ began, x.began.get? k = some began ∧ now ≤ began + a.patience + lost

/-- Whatever the peer does, and however small the pipes and the queues are. -/
theorem calls_keep_their_time {limit capacity outRoom intoRoom : Nat} (hcapacity : 0 < capacity)
    (h : (start limit capacity outRoom intoRoom).Reached lost now x) : OnTime lost now x := by
  have hinv := Reached.inv hcapacity h
  refine ⟨fun hrests k a hk hopen => ?_, fun k a hk hopen => ?_⟩
  · rcases Call.sending_or_waiting hopen with ⟨t, hsending⟩ | ⟨due, hwaiting⟩
    · exact .inr (hinv.held hrests hk hsending)
    · exact .inl (hinv.timed hrests hk hwaiting)
  · obtain ⟨began, hbegan, hdated⟩ := hinv.dated k a hk hopen
    exact ⟨began, hbegan, hdated.time⟩

/-! ## A call that waits, and a call whose request the stream does not take -/

/-- A call begins, and the stream is offered its request. -/
def calling : List BoothAct :=
  [.begins 0 ⟨1, ⟨"127.0.0.1", 7⟩, "s", [112]⟩ 1000, .moves (.writes 64), .moves (.writes 64)]

/-- The rest of the request is offered, and the call learns that it has been flushed. -/
def called : List BoothAct := calling ++ [.moves (.writes 64), .moves (.proceeds 0)]

/-- The stream takes all of the request, and after a while the call still waits for the reply. -/
theorem calls_keep_their_time_waiting :
    0 < 1 ∧ (start 64 1 64 64).Reached 0 400 ((start 64 1 64 64).run 0 called) ∧
      ((start 64 1 64 64).run 0 called).Rests 400 ∧
      ((start 64 1 64 64).run 0 called).site.client.call? 0 =
        some ⟨⟨1, ⟨"127.0.0.1", 7⟩, "s", [112]⟩, 1000, .empty, .waiting 1000⟩ ∧
      OnTime 0 400 ((start 64 1 64 64).run 0 called) := by
  have hrests : ∀ now < 1000, ((start 64 1 64 64).run 0 called).Rests now := by
    intro now hnow m
    cases m with
    | proceeds k =>
      cases k with
      | zero =>
        have hlook : Call.look? ⟨⟨1, ⟨"127.0.0.1", 7⟩, "s", [112]⟩, 1000, .empty, .waiting 1000⟩ now = none :=
          if_neg (Nat.not_le.mpr hnow)
        have hproceed : ((start 64 1 64 64).run 0 called).site.client.proceed? 0 now = none :=
          congrArg (Option.map _) hlook
        exact congrArg (Option.map _) hproceed
      | succ k => rfl
    | _ => rfl
  have hfree : ¬ ((start 64 1 64 64).run 0 called).Stalled := by
    rintro ⟨t, left, hwriting, -⟩
    cases hwriting
  have hsoon : ∀ due ∈ ((start 64 1 64 64).run 0 called).dues, 400 ≤ due := by
    change ∀ due ∈ [1000], 400 ≤ due
    decide
  have hlater : (start 64 1 64 64).Reached 0 400 ((start 64 1 64 64).run 0 called) :=
    ((Reached.opens 0).run called).waits (hrests 0 (by decide)) hfree (by decide) hsoon
  exact ⟨by decide, hlater, hrests 400 (by decide), rfl, calls_keep_their_time (by decide) hlater⟩

/-- Nothing moves any more, no timer is set, and the time of the call has been up for long. -/
theorem a_full_stream_keeps_a_call :
    let x := (start 65536 16 4 4).run 0 calling
    (start 65536 16 4 4).Reached 5000 5000 x ∧ (∀ now, x.Rests now) ∧ x.dues = [] ∧ x.began.get? 0 = some 0 ∧
      x.site.client.call? 0 = some ⟨⟨1, ⟨"127.0.0.1", 7⟩, "s", [112]⟩, 1000, .empty, .sending 0⟩ := by
  refine ⟨((Reached.opens 0).run calling).loses 5000, fun now m => ?_, rfl, rfl, rfl⟩
  cases m with
  | writes n =>
    have hstalled : ((start 65536 16 4 4).run 0 calling).site.station.Stalled := ⟨0, _, rfl, by decide, rfl⟩
    exact congrArg (Option.map _) (Station.write?_of_stalled hstalled rfl rfl n)
  | proceeds k => cases k <;> rfl
  | _ => rfl

end Booth

end ClusterNet.Messaging
