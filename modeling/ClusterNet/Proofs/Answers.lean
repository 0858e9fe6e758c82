import ClusterNet.Messaging.Server
import ClusterNet.Proofs.Recording
import ClusterNet.Proofs.Replies

/-!
# One reply to a request

When the work on a request has ended, the job hands a reply over, and another one if the first is too
long. Whatever else goes on at the server, what the stream takes for the request is one frame or the
start of it. Once neither the job nor the writer can go on the job is done, and what an open channel has
sent by then is the whole frame.
-/

namespace ClusterNet.Messaging

open Wire

/-! ## An open channel -/

namespace Channel

variable {c d : Channel} {t : Ticket}

/-- An open channel refuses only messages without a frame, and nobody waits for room that is there. -/
structure Candid (c : Channel) : Prop where
  refused : c.closed = false → ∀ t e, c.outcome? t = some (.error e) → ∃ fault, e = .codec fault
  ready : 0 < c.capacity → c.outbound = [] → c.blocked = []

theorem candid_start (limit capacity : Nat) : (start limit capacity).Candid :=
  ⟨by simp [start, outcome?], fun _ _ => rfl⟩

theorem SameOut.candid (h : c.SameOut d) (hc : c.Candid) : d.Candid where
  refused hopen t e ht := by
    refine hc.refused ?_ t e ((h.outcome? t).symm.trans ht)
    by_contra hclosed
    rw [h.closed (by simpa using hclosed)] at hopen
    cases hopen
  ready := by
    rw [h.capacity, h.outbound, h.blocked]
    exact hc.ready

theorem SameOut.tracks (h : c.SameOut d) (ht : c.Tracks t) : d.Tracks t := by
  rw [Tracks, h.outcome?, h.outbound, h.blocked, h.writer]
  exact ht

theorem sameOut_neglect (c : Channel) : c.SameOut c.neglect := ⟨rfl, rfl, rfl, rfl, rfl, rfl, rfl, id⟩

theorem sameOut_receive? {m : Message} (h : c.receive? = some (m, d)) : c.SameOut d := by
  obtain ⟨rest, -, rfl⟩ := receive?_eq_some h
  exact ⟨rfl, rfl, rfl, rfl, rfl, rfl, rfl, id⟩

theorem Candid.submit (hc : c.Candid) (m : Message) : (c.submit m).2.Candid := by
  unfold Channel.submit
  dsimp only
  split
  · rename_i hclosed
    refine ⟨fun hopen => ?_, hc.ready⟩
    rw [Channel.settle, hclosed] at hopen
    cases hopen
  · split
    · exact ⟨hc.refused, by simp⟩
    · rename_i hroom
      refine ⟨hc.refused, fun hcapacity hnone => ?_⟩
      simp [hc.ready hcapacity hnone, show c.outbound = [] from hnone, show 0 < c.capacity from hcapacity] at hroom

theorem Candid.wrote (hc : c.Candid) {b : Bytes} {popped : List Message} (h : Wrote c d b popped) : d.Candid := by
  have hpop : ∀ {rest : List Parcel}, rest ++ c.blocked.take 1 = [] → c.blocked.drop 1 = [] := by
    intro rest hnone
    cases hblocked : c.blocked with
    | nil => rfl
    | cons p ps => simp [hblocked] at hnone
  cases h with
  | ends =>
    obtain ⟨settled, he⟩ := endWriting_eq c
    rw [he]
    exact ⟨by simp, fun _ _ => rfl⟩
  | takes => exact ⟨hc.refused, fun _ => hpop⟩
  | refuses idle running first refused =>
    refine ⟨fun hopen t e ht => ?_, fun _ => hpop⟩
    rw [outcome?_settle] at ht
    split at ht
    · exact ⟨_, (Except.error.inj (Option.some.inj ht)).symm⟩
    · exact hc.refused hopen t e ht
  | puts => exact ⟨hc.refused, hc.ready⟩
  | flushes =>
    refine ⟨fun hopen t e ht => ?_, hc.ready⟩
    rw [outcome?_settle] at ht
    split at ht
    · cases Option.some.inj ht
    · exact hc.refused hopen t e ht

theorem Shift.candid (h : c.Shift d) (hc : c.Candid) : d.Candid := by
  cases h with
  | unsent hd =>
    refine ⟨fun hopen t e ht => ?_, by rw [hd.capacity, hd.outbound, hd.blocked]; exact hc.ready⟩
    rw [outcome?, hd.settled] at ht
    refine hc.refused ?_ t e ht
    by_contra hclosed
    rw [hd.closed (by simpa using hclosed)] at hopen
    cases hopen
  | submits m => exact hc.submit m
  | wrote hw => exact hc.wrote hw
  | fails =>
    obtain ⟨settled, he⟩ := endWriting_eq c
    rw [he]
    exact ⟨by simp [Channel.settle], fun _ _ => rfl⟩

end Channel

/-! ## Jobs that answer -/

/-- What a job has handed over for a request on which the work has ended. -/
structure Response where
  request : Request
  effort : Effort
  first : Parcel
  second? : Option Parcel

def Response.parcels (r : Response) : List Parcel := r.first :: r.second?.toList

/-- What the stream took of the replies to a request. -/
def Response.taken (r : Response) (ys : List Piece) : Bytes :=
  r.parcels.flatMap fun p => Messaging.taken p.ticket ys

/-- A server with the record of its channel and of the replies to requests. -/
structure Answering where
  server : Server
  tape : Tape
  responses : Table JobKey Response

inductive AnswerAct where
  | serves (handlers : Handlers) (now : Nat)
  | works (k : JobKey) (now : Nat)
  /-- A job does not give up what it sends. -/
  | channel (m : ChannelMove) (keeps : ∀ t, m ≠ .withdraws t)

namespace Answering

def start (limit capacity : Nat) : Answering :=
  ⟨.ofChannel (.start limit capacity), .start limit capacity, .empty⟩

/-- What a job hands over in its next step. -/
def responds (x : Answering) (k : JobKey) : Table JobKey Response :=
  let t := x.server.channel.nextTicket
  match x.server.jobs.get? k with
  | some ⟨request, .working _ effort⟩ =>
    x.responses.insert k ⟨request, effort, ⟨t, .reply (effort.replyTo request.id)⟩, none⟩
  | some ⟨request, .answering u⟩ =>
    match x.server.channel.outcome? u with
    | some (.error (.codec (.tooLarge size limit))) =>
      x.responses.modify k fun r => { r with second? := some ⟨t, .reply (explanationTo request.id size limit)⟩ }
    | _ => x.responses
  | _ => x.responses

/-- An act that is not possible now changes nothing. -/
def act (x : Answering) : AnswerAct → Answering
  | .serves handlers now =>
    match x.server.serve? handlers now with
    | some server => { x with server, tape := x.tape.turn server.channel }
    | none => x
  | .works k now =>
    match x.server.work? k now with
    | some server => ⟨server, x.tape.turn server.channel, x.responds k⟩
    | none => x
  | .channel m _ =>
    match x.tape.move? m with
    | some tape => { x with server := { x.server with channel := tape.channel }, tape }
    | none => x

def run (x : Answering) (acts : List AnswerAct) : Answering := acts.foldl act x

/-- How far a job is, and what it has handed over. -/
inductive Matches (c : Channel) : Option Job → Option Response → Prop where
  | absent : Matches c none none
  | busy {j : Job} (stage : ∀ t, j.stage ≠ .answering t ∧ j.stage ≠ .explaining t) : Matches c (some j) none
  | answering {r : Request} {e : Effort} {p : Parcel} (first : p.message = .reply (e.replyTo r.id)) :
      Matches c (some ⟨r, .answering p.ticket⟩) (some ⟨r, e, p, none⟩)
  | explaining {r : Request} {e : Effort} {p q : Parcel} (first : p.message = .reply (e.replyTo r.id))
      (long : sendable c.limit (.reply (e.replyTo r.id)) = false)
      (second : q.message = .reply (explanationTo r.id (14 + e.reply.2.length) c.limit)) :
      Matches c (some ⟨r, .explaining q.ticket⟩) (some ⟨r, e, p, some q⟩)
  | answered {r : Request} {e : Effort} {p : Parcel} {o : Except Failure Unit}
      (first : p.message = .reply (e.replyTo r.id)) (told : c.outcome? p.ticket = some o)
      (notLong : ∀ size limit, o ≠ .error (.codec (.tooLarge size limit))) :
      Matches c (some ⟨r, .done⟩) (some ⟨r, e, p, none⟩)
  | explained {r : Request} {e : Effort} {p q : Parcel} {o : Except Failure Unit}
      (first : p.message = .reply (e.replyTo r.id))
      (long : sendable c.limit (.reply (e.replyTo r.id)) = false)
      (second : q.message = .reply (explanationTo r.id (14 + e.reply.2.length) c.limit))
      (told : c.outcome? q.ticket = some o) : Matches c (some ⟨r, .done⟩) (some ⟨r, e, p, some q⟩)

structure Inv (x : Answering) : Prop where
  same : x.tape.channel = x.server.channel
  faithful : ∃ gone, x.tape.Faithful gone
  candid : x.tape.channel.Candid
  fresh : ∀ k j, x.server.jobs.get? k = some j → k < x.server.nextJob
  matched : ∀ k, Matches x.tape.channel (x.server.jobs.get? k) (x.responses.get? k)
  issued : ∀ k r p, x.responses.get? k = some r → p ∈ r.parcels → p.ticket < x.tape.channel.nextTicket
  /-- What is in the queue under the ticket of a reply is this reply. -/
  own : ∀ k r p, x.responses.get? k = some r → p ∈ r.parcels →
    ∀ q ∈ x.tape.queued ++ x.tape.channel.blocked, q.ticket = p.ticket → q = p
  distinct : ∀ k l r r' p p', x.responses.get? k = some r → x.responses.get? l = some r' → p ∈ r.parcels →
    p' ∈ r'.parcels → p.ticket = p'.ticket → k = l
  /-- Who waits for a ticket will be told. -/
  tracked : ∀ k j t, x.server.jobs.get? k = some j → j.stage = .answering t ∨ j.stage = .explaining t →
    x.tape.channel.Tracks t

variable {x : Answering}

theorem inv_start (limit capacity : Nat) : (start limit capacity).Inv where
  same := rfl
  faithful := ⟨[], Tape.faithful_start limit capacity⟩
  candid := Channel.candid_start limit capacity
  fresh := by simp [start, Server.ofChannel]
  matched _ := .absent
  issued := by simp [start]
  own := by simp [start]
  distinct := by simp [start]
  tracked := by simp [start, Server.ofChannel]

theorem Matches.later {c d : Channel} {j : Option Job} {r : Option Response} (h : Matches c j r)
    (hlimit : d.limit = c.limit) (htold : ∀ t o, c.outcome? t = some o → d.outcome? t = some o) : Matches d j r := by
  cases h with
  | absent => exact .absent
  | busy stage => exact .busy stage
  | answering first => exact .answering first
  | explaining first long second => exact .explaining first (hlimit ▸ long) (hlimit ▸ second)
  | answered first told notLong => exact .answered first (htold _ _ told) notLong
  | explained first long second told => exact .explained first (hlimit ▸ long) (hlimit ▸ second) (htold _ _ told)

theorem Inv.extend (h : x.Inv) {y : Tape} (hy : x.tape.Extends y) (hfaithful : ∃ gone, y.Faithful gone)
    (hcandid : y.channel.Candid) (htracks : ∀ t, x.tape.channel.Tracks t → y.channel.Tracks t) :
    Inv { x with server := { x.server with channel := y.channel }, tape := y } where
  same := rfl
  faithful := hfaithful
  candid := hcandid
  fresh := h.fresh
  matched k := (h.matched k).later hy.later.limit hy.told
  issued k r p hr hp := Nat.lt_of_lt_of_le (h.issued k r p hr hp) hy.later.nextTicket
  own k r p hr hp q hq hqp := by
    rcases hy.parcels q hq with hq | hq
    · exact h.own k r p hr hp q hq hqp
    · exact absurd (h.issued k r p hr hp) (Nat.not_lt.mpr (hqp ▸ hq))
  distinct := h.distinct
  tracked k j t hj ht := htracks t (h.tracked k j t hj ht)

theorem Inv.sameOut (h : x.Inv) {d : Channel} (hd : x.server.channel.SameOut d) :
    Inv { x with server := { x.server with channel := d }, tape := x.tape.turn d } := by
  obtain ⟨gone, hgone⟩ := h.faithful
  rw [← h.same] at hd
  exact h.extend (hgone.extends_sameOut hd) ⟨gone, hgone.sameOut hd⟩ (hd.candid h.candid) fun _ => hd.tracks

theorem Inv.submit (h : x.Inv) (m : Message) :
    Inv { x with
      server := { x.server with channel := (x.server.channel.submit m).2 }
      tape := x.tape.turn (x.server.channel.submit m).2 } := by
  obtain ⟨gone, hgone⟩ := h.faithful
  rw [← h.same]
  exact h.extend (hgone.extends_submit m) ⟨gone, hgone.submit m⟩ (h.candid.submit m)
    fun _ => Channel.tracks_submit m

theorem Inv.channel (h : x.Inv) {m : ChannelMove} (hkeeps : ∀ t, m ≠ .withdraws t) {y : Tape}
    (hy : x.tape.move? m = some y) : Inv { x with server := { x.server with channel := y.channel }, tape := y } := by
  obtain ⟨gone, hgone⟩ := h.faithful
  obtain ⟨more, hmore⟩ := hgone.move? hy
  have hchannel : x.tape.channel.move? m = some y.channel := by
    rw [← Tape.channel_move?, hy]
    rfl
  have hshift := Channel.shift_move? hkeeps hchannel
  exact h.extend (hgone.extends_move? hy) ⟨_, hmore⟩ (hshift.candid h.candid) fun _ => hshift.tracks

theorem Inv.set (h : x.Inv) {k : JobKey} {j : Job} (hj : x.server.jobs.get? k = some j) (stage : Stage)
    {responses : Table JobKey Response} (hothers : ∀ l, l ≠ k → responses.get? l = x.responses.get? l)
    (hmatched : Matches x.tape.channel (some { j with stage }) (responses.get? k))
    (hparcels : ∀ r p, responses.get? k = some r → p ∈ r.parcels → p.ticket < x.tape.channel.nextTicket ∧
      (∀ q ∈ x.tape.queued ++ x.tape.channel.blocked, q.ticket = p.ticket → q = p) ∧
      ∀ l r' p', x.responses.get? l = some r' → p' ∈ r'.parcels → p'.ticket = p.ticket → l = k)
    (htracked : ∀ t, stage = .answering t ∨ stage = .explaining t → x.tape.channel.Tracks t) :
    Inv { x with server := x.server.setStage k stage, responses } := by
  have hjobs : ∀ l, (x.server.setStage k stage).jobs.get? l =
      if l = k then some { j with stage } else x.server.jobs.get? l := by
    intro l
    rw [Server.setStage, Table.get?_modify]
    split
    · rename_i hl
      rw [hl, hj]
      rfl
    · rfl
  refine ⟨h.same, h.faithful, h.candid, fun l i hl => ?_, fun l => ?_, fun l r p hl hp => ?_, fun l r p hl hp => ?_,
    fun l l' r r' p p' hl hl' hp hp' ht => ?_, fun l i t hl ht => ?_⟩
  · dsimp only at hl
    rw [hjobs] at hl
    split at hl
    · rename_i hlk
      exact hlk ▸ h.fresh k j hj
    · exact h.fresh l i hl
  · dsimp only
    rw [hjobs]
    split
    · rename_i hl
      rw [hl]
      exact hmatched
    · rename_i hl
      rw [hothers l hl]
      exact h.matched l
  · by_cases hlk : l = k
    · exact (hparcels r p (hlk ▸ hl) hp).1
    · exact h.issued l r p ((hothers l hlk).symm.trans hl) hp
  · by_cases hlk : l = k
    · exact (hparcels r p (hlk ▸ hl) hp).2.1
    · exact h.own l r p ((hothers l hlk).symm.trans hl) hp
  · by_cases hlk : l = k
    · by_cases hlk' : l' = k
      · rw [hlk, hlk']
      · rw [hlk]
        exact ((hparcels r p (hlk ▸ hl) hp).2.2 l' r' p' ((hothers l' hlk').symm.trans hl') hp' ht.symm).symm
    · have hold := (hothers l hlk).symm.trans hl
      by_cases hlk' : l' = k
      · rw [hlk']
        exact (hparcels r' p' (hlk' ▸ hl') hp').2.2 l r p hold hp ht
      · exact h.distinct l l' r r' p p' hold ((hothers l' hlk').symm.trans hl') hp hp' ht
  · dsimp only at hl
    rw [hjobs] at hl
    split at hl
    · obtain rfl := Option.some.inj hl
      exact htracked t ht
    · exact h.tracked l i t hl ht

theorem Inv.addJob (h : x.Inv) (r : Request) (stage : Stage)
    (hstage : ∀ t, stage ≠ .answering t ∧ stage ≠ .explaining t) :
    Inv { x with server := x.server.addJob r stage } := by
  have hjobs : ∀ l, (x.server.addJob r stage).jobs.get? l =
      if l = x.server.nextJob then some ⟨r, stage⟩ else x.server.jobs.get? l := fun l => Table.get?_insert _ _ _ _
  refine ⟨h.same, h.faithful, h.candid, fun l i hl => ?_, fun l => ?_, h.issued, h.own, h.distinct,
    fun l i t hl ht => ?_⟩
  · dsimp only at hl
    rw [hjobs] at hl
    change l < x.server.nextJob + 1
    split at hl
    · exact Nat.lt_succ_of_le (Nat.le_of_eq ‹_›)
    · exact Nat.lt_succ_of_lt (h.fresh l i hl)
  · dsimp only
    rw [hjobs]
    split
    · rename_i hl
      have hnone : x.server.jobs.get? l = none := by
        cases hold : x.server.jobs.get? l with
        | none => rfl
        | some i => exact absurd (h.fresh l i hold) (hl ▸ Nat.lt_irrefl _)
      have hmatched := h.matched l
      rw [hnone] at hmatched
      cases hresponse : x.responses.get? l with
      | none => exact .busy hstage
      | some ρ =>
        rw [hresponse] at hmatched
        cases hmatched
    · exact h.matched l
  · dsimp only at hl
    rw [hjobs] at hl
    split at hl
    · obtain rfl := Option.some.inj hl
      rcases ht with ht | ht
      · exact absurd ht (hstage t).1
      · exact absurd ht (hstage t).2
    · exact h.tracked l i t hl ht

theorem Inv.aside (h : x.Inv) (server : Server) (hchannel : server.channel = x.server.channel)
    (hjobs : server.jobs = x.server.jobs) (hnext : server.nextJob = x.server.nextJob) :
    Inv { x with server } := by
  refine ⟨h.same.trans hchannel.symm, h.faithful, h.candid, ?_, ?_, h.issued, h.own, h.distinct, ?_⟩
  · simpa only [hjobs, hnext] using h.fresh
  · simpa only [hjobs] using h.matched
  · simpa only [hjobs] using h.tracked

/-! ## What an act keeps -/

theorem Inv.dispatch (h : x.Inv) {d : Channel} (hd : x.server.channel.SameOut d) (handlers : Handlers) (now : Nat)
    (r : Request) : Inv { x with
      server := ({ x.server with channel := d } : Server).dispatch handlers now r
      tape := x.tape.turn (({ x.server with channel := d } : Server).dispatch handlers now r).channel } := by
  have hreceived := h.sameOut hd
  have hturn : ∀ e, (x.tape.turn d).turn e = x.tape.turn e := by
    intro e
    rw [Tape.turn_of_subset (d := d) fun p hp => by rwa [hd.outbound, ← h.same] at hp]
    simp only [Tape.turn, hd.outbound, h.same]
  unfold Server.dispatch
  split
  · have hrefused := hreceived.submit (.reply ⟨r.id, (refusal r).1, (refusal r).2⟩)
    rw [hturn] at hrefused
    exact hrefused.aside _ rfl rfl rfl
  · dsimp only
    split
    · rename_i handler _ _ ms effort _
      exact (hreceived.aside ({ x.server with channel := d }.record (.invoked handler.label r)) rfl rfl rfl).addJob r
        (.working (now + ms) effort) (by simp)
    · rename_i handler _ _ rs _
      exact (hreceived.aside ({ x.server with channel := d }.record (.invoked handler.label r)) rfl rfl rfl).addJob r
        (.turning rs) (by simp)
    · exact hreceived.aside _ rfl rfl rfl
    · exact hreceived.aside _ rfl rfl rfl
    · have hneglected := hreceived.sameOut d.sameOut_neglect
      rw [hturn] at hneglected
      exact hneglected.aside _ rfl rfl rfl

theorem Inv.serve? (h : x.Inv) {handlers : Handlers} {now : Nat} {s : Server}
    (hs : x.server.serve? handlers now = some s) : Inv { x with server := s, tape := x.tape.turn s.channel } := by
  have hself : ∀ {s : Server}, s.channel = x.server.channel → x.tape.turn s.channel = x.tape := by
    intro s hs
    rw [hs, ← h.same, Tape.turn_of_subset fun p hp => hp]
  unfold Server.serve? at hs
  split at hs
  · cases hs
  · obtain ⟨o, -, rfl⟩ := Option.map_eq_some_iff.mp hs
    rw [hself rfl]
    exact h.aside _ rfl rfl rfl
  · split at hs
    · rename_i r d hd
      obtain rfl := Option.some.inj hs
      exact h.dispatch (Channel.sameOut_receive? hd) handlers now r
    · rename_i r d hd
      obtain rfl := Option.some.inj hs
      exact h.sameOut (Channel.sameOut_receive? hd)
    · split at hs
      · obtain rfl := Option.some.inj hs
        exact (h.sameOut x.server.channel.sameOut_neglect).aside _ rfl rfl rfl
      · cases hs

theorem Inv.hand (h : x.Inv) {k : JobKey} {j : Job} (hj : x.server.jobs.get? k = some j) (m : Message)
    (stage : Stage) {responses : Table JobKey Response}
    (hothers : ∀ l, l ≠ k → responses.get? l = x.responses.get? l)
    (hmatched : Matches x.tape.channel (some { j with stage }) (responses.get? k))
    (hparcels : ∀ r p, responses.get? k = some r → p ∈ r.parcels →
      p = ⟨x.server.channel.nextTicket, m⟩ ∨ ∃ r', x.responses.get? k = some r' ∧ p ∈ r'.parcels)
    (hstage : ∀ t, stage = .answering t ∨ stage = .explaining t → t = (x.server.channel.submit m).1) :
    Inv ⟨({ x.server with channel := (x.server.channel.submit m).2 } : Server).setStage k stage,
      x.tape.turn (x.server.channel.submit m).2, responses⟩ := by
  have hsubmitted := h.submit m
  obtain ⟨gone, hgone⟩ := h.faithful
  have hextends : x.tape.Extends (x.tape.turn (x.server.channel.submit m).2) := h.same ▸ hgone.extends_submit m
  refine hsubmitted.set hj stage hothers (hmatched.later hextends.later.limit hextends.told) (fun r p hr hp => ?_)
    fun t ht => ?_
  · rcases hparcels r p hr hp with rfl | ⟨r', hr', hp'⟩
    · refine ⟨?_, ?_, fun l r' p' hl hp' ht => ?_⟩
      · obtain ⟨outbound, blocked, settled, he⟩ := Channel.submit_eq x.server.channel m
        change x.server.channel.nextTicket < (x.server.channel.submit m).2.nextTicket
        rw [he]
        exact Nat.lt_succ_self _
      · rw [← h.same]
        exact hgone.own_submit m
      · have hlt := h.issued l r' p' hl hp'
        rw [ht, h.same] at hlt
        exact absurd hlt (Nat.lt_irrefl _)
    · exact ⟨hsubmitted.issued k r' p hr' hp', hsubmitted.own k r' p hr' hp', fun l r₀ p₀ hl hp₀ ht =>
        h.distinct l k r₀ r' p₀ p hl hr' hp₀ hp' ht⟩
  · rw [hstage t ht]
    exact Channel.tracks_submit_new _ m

theorem Inv.rest (h : x.Inv) {k : JobKey} {j : Job} (hj : x.server.jobs.get? k = some j) {stage : Stage}
    (hmatched : Matches x.tape.channel (some { j with stage }) (x.responses.get? k))
    (hstage : ∀ t, stage ≠ .answering t ∧ stage ≠ .explaining t) :
    Inv { x with server := x.server.setStage k stage } :=
  h.set hj stage (fun _ _ => rfl) hmatched (fun r p hr hp => ⟨h.issued k r p hr hp, h.own k r p hr hp,
      fun l r' p' hl hp' ht => h.distinct l k r' r p' p hl hr hp' hp ht⟩)
    fun t ht => ht.elim (fun ht => absurd ht (hstage t).1) fun ht => absurd ht (hstage t).2

theorem Inv.busy (h : x.Inv) {k : JobKey} {j : Job} (hj : x.server.jobs.get? k = some j)
    (hbusy : ∀ t, j.stage ≠ .answering t ∧ j.stage ≠ .explaining t) (hdone : j.stage ≠ .done) :
    x.responses.get? k = none := by
  have hmatched := h.matched k
  rw [hj] at hmatched
  cases hresponse : x.responses.get? k with
  | none => rfl
  | some ρ =>
    rw [hresponse] at hmatched
    cases hmatched with
    | answering => exact absurd rfl (hbusy _).1
    | explaining => exact absurd rfl (hbusy _).2
    | answered | explained => exact absurd rfl hdone

theorem Inv.long (h : x.Inv) {k : JobKey} {ρ : Response} (hρ : x.responses.get? k = some ρ) {p : Parcel}
    (hp : p ∈ ρ.parcels) {r : Reply} (hr : p.message = .reply r) {size limit : Nat}
    (hlong : x.tape.channel.outcome? p.ticket = some (.error (.codec (.tooLarge size limit)))) :
    sendable x.tape.channel.limit (.reply r) = false ∧ size = 14 + r.payload.length ∧
      limit = x.tape.channel.limit := by
  obtain ⟨gone, hgone⟩ := h.faithful
  obtain ⟨q, hq, hqp, hencode⟩ := hgone.refused _ _ hlong
  obtain rfl := h.own k ρ p hρ hp q (hgone.mem_of_gone hq) hqp
  rw [hr] at hencode
  refine ⟨not_sendable_of_encode hencode, ?_⟩
  rw [encode_reply] at hencode
  split at hencode
  · obtain ⟨rfl, rfl⟩ := FrameFault.tooLarge.inj (Except.error.inj hencode)
    exact ⟨rfl, rfl⟩
  · cases hencode

section
variable {k : JobKey} {request : Request}

theorem Inv.turned (h : x.Inv) {s : Server} (hs : Inv { x with server := s }) (hchannel : s.channel = x.server.channel) :
    Inv ⟨s, x.tape.turn s.channel, x.responses⟩ := by
  rw [hchannel, ← h.same, Tape.turn_of_subset fun p hp => hp]
  exact hs

theorem responds_eq {stage : Stage} (hj : x.server.jobs.get? k = some ⟨request, stage⟩)
    (hworking : ∀ due effort, stage ≠ .working due effort)
    (hlong : ∀ t, stage = .answering t → ∀ size limit,
      x.server.channel.outcome? t ≠ some (.error (.codec (.tooLarge size limit)))) : x.responds k = x.responses := by
  simp only [responds, hj]
  split
  · rename_i hstage
    exact absurd (congrArg Job.stage (Option.some.inj hstage)) (hworking _ _)
  · rename_i hstage
    split
    · rename_i htold
      exact absurd htold (hlong _ (congrArg Job.stage (Option.some.inj hstage)) _ _)
    · rfl
  · rfl

theorem Inv.replies (h : x.Inv) {due : Nat} {effort : Effort}
    (hj : x.server.jobs.get? k = some ⟨request, .working due effort⟩) :
    Inv ⟨(x.server.reply request effort.reply).2.setStage k (.answering (x.server.reply request effort.reply).1),
      x.tape.turn (x.server.reply request effort.reply).2.channel, x.responds k⟩ := by
  have hresponds : x.responds k = x.responses.insert k
      ⟨request, effort, ⟨x.server.channel.nextTicket, .reply (effort.replyTo request.id)⟩, none⟩ := by
    simp only [responds, hj]
  rw [hresponds]
  refine h.hand hj _ _ (fun l hl => (Table.get?_insert _ _ _ _).trans (if_neg hl)) ?_ (fun r p hr hp => .inl ?_) ?_
  · rw [Table.get?_insert_self]
    exact .answering (p := ⟨x.server.channel.nextTicket, .reply (effort.replyTo request.id)⟩) rfl
  · rw [Table.get?_insert_self] at hr
    obtain rfl := Option.some.inj hr
    exact List.mem_singleton.mp hp
  · rintro t (ht | ht) <;> cases ht
    rfl

theorem Inv.explains (h : x.Inv) {t : Ticket} {size limit : Nat}
    (hj : x.server.jobs.get? k = some ⟨request, .answering t⟩)
    (hlong : x.server.channel.outcome? t = some (.error (.codec (.tooLarge size limit)))) :
    Inv ⟨(x.server.reply request (tooLong size limit)).2.setStage k
        (.explaining (x.server.reply request (tooLong size limit)).1),
      x.tape.turn (x.server.reply request (tooLong size limit)).2.channel, x.responds k⟩ := by
  have hmatched := h.matched k
  rw [hj] at hmatched
  generalize hρ : x.responses.get? k = ρ at hmatched
  cases hmatched with
  | busy stage => exact absurd rfl (stage t).1
  | @answering _ e p first =>
    simp only [responds, hj, hlong]
    rw [← h.same] at hlong
    obtain ⟨hnot, rfl, rfl⟩ := h.long hρ List.mem_cons_self first hlong
    have hmodified : (x.responses.modify k fun r => { r with second? := some ⟨x.server.channel.nextTicket,
        .reply (explanationTo request.id (14 + (e.replyTo request.id).payload.length) x.tape.channel.limit)⟩ }).get?
          k = some ⟨request, e, p, some ⟨x.server.channel.nextTicket,
            .reply (explanationTo request.id (14 + e.reply.2.length) x.tape.channel.limit)⟩⟩ := by
      rw [Table.get?_modify, if_pos rfl, hρ]
      rfl
    refine h.hand hj _ _ (fun l hl => (Table.get?_modify _ _ _ _).trans (if_neg hl)) ?_ (fun r q hr hq => ?_) ?_
    · rw [hmodified]
      exact .explaining (q := ⟨x.server.channel.nextTicket, .reply (explanationTo request.id _ _)⟩) first hnot rfl
    · rw [hmodified] at hr
      obtain rfl := Option.some.inj hr
      rcases List.mem_cons.mp hq with rfl | hq
      · exact .inr ⟨_, hρ, List.mem_cons_self⟩
      · exact .inl (List.mem_singleton.mp hq)
    · rintro u (hu | hu) <;> cases hu
      rfl

theorem Inv.done_answering (h : x.Inv) {t : Ticket} {o : Except Failure Unit}
    (hj : x.server.jobs.get? k = some ⟨request, .answering t⟩) (told : x.server.channel.outcome? t = some o)
    (notLong : ∀ size limit, o ≠ .error (.codec (.tooLarge size limit))) :
    Inv { x with server := x.server.setStage k .done } := by
  have hmatched := h.matched k
  rw [hj] at hmatched
  generalize hρ : x.responses.get? k = ρ at hmatched
  refine h.rest hj ?_ (by simp)
  rw [hρ]
  cases hmatched with
  | busy stage => exact absurd rfl (stage t).1
  | answering first => exact .answered first (h.same ▸ told) notLong

theorem Inv.done_explaining (h : x.Inv) {t : Ticket} {o : Except Failure Unit}
    (hj : x.server.jobs.get? k = some ⟨request, .explaining t⟩) (told : x.server.channel.outcome? t = some o) :
    Inv { x with server := x.server.setStage k .done } := by
  have hmatched := h.matched k
  rw [hj] at hmatched
  generalize hρ : x.responses.get? k = ρ at hmatched
  refine h.rest hj ?_ (by simp)
  rw [hρ]
  cases hmatched with
  | busy stage => exact absurd rfl (stage t).2
  | explaining first long second => exact .explained first long second (h.same ▸ told)

end

theorem Inv.work? (h : x.Inv) {k : JobKey} {now : Nat} {s : Server} (hs : x.server.work? k now = some s) :
    Inv ⟨s, x.tape.turn s.channel, x.responds k⟩ := by
  obtain ⟨request, stage, hj, hworks⟩ := Server.works_of_work? hs
  cases hworks with
  | replies => exact h.replies hj
  | explains long => exact h.explains hj long
  | answered told notLong =>
    have hkeeps : x.responds k = x.responses := by
      refine responds_eq hj (by simp) fun t ht size limit hlong => ?_
      obtain rfl := Stage.answering.inj ht
      exact notLong size limit (Option.some.inj (told.symm.trans hlong))
    rw [hkeeps]
    exact h.turned (h.done_answering hj told notLong) rfl
  | explained told =>
    rw [responds_eq hj (by simp) (by simp)]
    exact h.turned (h.done_explaining hj told) rfl
  | falls =>
    have hnone := h.busy hj (by simp) (by simp)
    rw [responds_eq hj (by simp) (by simp)]
    exact h.turned (h.rest hj (hnone ▸ .busy (by simp)) (by simp)) rfl
  | speaks r rest =>
    have hnone := h.busy hj (by simp) (by simp)
    rw [responds_eq hj (by simp) (by simp)]
    exact h.hand hj _ _ (fun _ _ => rfl) (hnone ▸ .busy (by simp)) (by simp [hnone]) (by simp)
  | @hears t status rest o told =>
    have hnone := h.busy hj (by simp) (by simp)
    rw [responds_eq hj (by simp) (by simp)]
    have haside := h.aside (x.server.record (.replied status o)) rfl rfl rfl
    exact h.turned (haside.rest hj (hnone ▸ .busy (by simp)) (by simp)) rfl

theorem Inv.act (h : x.Inv) (a : AnswerAct) : (x.act a).Inv := by
  cases a with
  | serves handlers now =>
    simp only [Answering.act]
    cases hs : x.server.serve? handlers now with
    | none => exact h
    | some s => exact h.serve? hs
  | works k now =>
    simp only [Answering.act]
    cases hs : x.server.work? k now with
    | none => exact h
    | some s => exact h.work? hs
  | channel m keeps =>
    simp only [Answering.act]
    cases hy : x.tape.move? m with
    | none => exact h
    | some y => exact h.channel keeps hy

theorem Inv.run (h : x.Inv) (acts : List AnswerAct) : (x.run acts).Inv := by
  induction acts generalizing x with
  | nil => exact h
  | cons a acts ih => exact ih (h.act a)

/-! ## What the stream takes of a response -/

theorem Inv.taken_cases (h : x.Inv) {k : JobKey} {ρ : Response} (hρ : x.responses.get? k = some ρ) {p : Parcel}
    (hp : p ∈ ρ.parcels) {r : Reply} (hr : p.message = .reply r) :
    (sendable x.tape.channel.limit (.reply r) = false → ∀ y ∈ x.tape.pieces, y.ticket ≠ p.ticket) ∧
      taken p.ticket x.tape.pieces <+: frameOf x.tape.channel.limit (.reply r) := by
  obtain ⟨gone, hgone⟩ := h.faithful
  have hpiece : ∀ y ∈ x.tape.pieces, y.ticket = p.ticket →
      p ∈ gone ∧ sendable x.tape.channel.limit (.reply r) = true := by
    intro y hy hyp
    obtain ⟨q, hq, hsendable, hqy⟩ := hgone.pieces y hy
    obtain rfl := h.own k ρ p hρ hp q (hgone.mem_of_gone hq) (hqy.trans hyp)
    exact ⟨hq, hr ▸ hsendable⟩
  refine ⟨fun hnot y hy hyp => ?_, ?_⟩
  · rw [(hpiece y hy hyp).2] at hnot
    cases hnot
  · by_cases hsome : ∃ y ∈ x.tape.pieces, y.ticket = p.ticket
    · obtain ⟨y, hy, hyp⟩ := hsome
      obtain ⟨hgp, hsendable⟩ := hpiece y hy hyp
      exact hgone.starts p hgp _ (hr ▸ encode_of_sendable hsendable)
    · rw [taken_eq_nil fun y hy hyp => hsome ⟨y, hy, hyp⟩]
      exact List.nil_prefix

theorem Inv.told_cases (h : x.Inv) (hopen : x.tape.channel.closed = false) {k : JobKey} {ρ : Response}
    (hρ : x.responses.get? k = some ρ) {p : Parcel} (hp : p ∈ ρ.parcels) {r : Reply} (hr : p.message = .reply r)
    {o : Except Failure Unit} (ho : x.tape.channel.outcome? p.ticket = some o) :
    sendable x.tape.channel.limit (.reply r) = true ∧
        taken p.ticket (x.tape.pieces.take x.tape.flushed) = frameOf x.tape.channel.limit (.reply r) ∨
      sendable x.tape.channel.limit (.reply r) = false ∧ ∃ size limit, o = .error (.codec (.tooLarge size limit)) := by
  obtain ⟨gone, hgone⟩ := h.faithful
  cases o with
  | ok u =>
    obtain ⟨q, hq, hqp, hencode, -⟩ := hgone.sent _ ho
    obtain rfl := h.own k ρ p hρ hp q (hgone.mem_of_gone hq) hqp
    rw [hr] at hencode
    exact .inl ⟨sendable_of_encode hencode, (frameOf_eq hencode).symm⟩
  | error e =>
    obtain ⟨fault, rfl⟩ := h.candid.refused hopen _ _ ho
    obtain ⟨q, hq, hqp, hencode⟩ := hgone.refused _ _ ho
    obtain rfl := h.own k ρ p hρ hp q (hgone.mem_of_gone hq) hqp
    rw [hr] at hencode
    refine .inr ⟨not_sendable_of_encode hencode, ?_⟩
    rw [encode_reply] at hencode
    split at hencode
    · exact ⟨_, _, congrArg (fun e => Except.error (Failure.codec e)) (Except.error.inj hencode).symm⟩
    · cases hencode

/-- The stream takes no more of a reply than its frame, and nothing if it has none. -/
theorem Inv.taken_prefix (h : x.Inv) {k : JobKey} {ρ : Response} (hρ : x.responses.get? k = some ρ) {p : Parcel}
    (hp : p ∈ ρ.parcels) {r : Reply} (hr : p.message = .reply r) : taken p.ticket x.tape.pieces <+:
      if sendable x.tape.channel.limit (.reply r) then frameOf x.tape.channel.limit (.reply r) else [] := by
  obtain ⟨hnone, hstarts⟩ := h.taken_cases hρ hp hr
  split
  · exact hstarts
  · rename_i hnot
    exact List.prefix_nil.mpr (taken_eq_nil (hnone (by simpa using hnot)))

/-- An open channel that has told about a reply has sent its frame, if it has one. -/
theorem Inv.taken_whole (h : x.Inv) (hopen : x.tape.channel.closed = false) {k : JobKey} {ρ : Response}
    (hρ : x.responses.get? k = some ρ) {p : Parcel} (hp : p ∈ ρ.parcels) {r : Reply} (hr : p.message = .reply r)
    {o : Except Failure Unit} (ho : x.tape.channel.outcome? p.ticket = some o) :
    taken p.ticket (x.tape.pieces.take x.tape.flushed) =
      if sendable x.tape.channel.limit (.reply r) then frameOf x.tape.channel.limit (.reply r) else [] := by
  rcases h.told_cases hopen hρ hp hr ho with ⟨hsendable, hframe⟩ | ⟨hnot, -⟩
  · rw [if_pos hsendable, hframe]
  · rw [hnot, taken_eq_nil fun y hy => (h.taken_cases hρ hp hr).1 hnot y (List.mem_of_mem_take hy)]
    rfl

theorem Inv.taken_pair (h : x.Inv) {k : JobKey} {request : Request} {e : Effort} {p q : Parcel}
    (hρ : x.responses.get? k = some ⟨request, e, p, some q⟩) (hfirst : p.message = .reply (e.replyTo request.id))
    (hlong : sendable x.tape.channel.limit (.reply (e.replyTo request.id)) = false) {ys : List Piece}
    (hys : ∀ y ∈ ys, y ∈ x.tape.pieces) :
    (⟨request, e, p, some q⟩ : Response).taken ys = taken q.ticket ys := by
  have hp : taken p.ticket ys = [] :=
    taken_eq_nil fun y hy => (h.taken_cases hρ List.mem_cons_self hfirst).1 hlong y (hys y hy)
  simp [Response.taken, Response.parcels, hp]

theorem Inv.taken_starts (h : x.Inv) {k : JobKey} {ρ : Response} (hρ : x.responses.get? k = some ρ) :
    ρ.taken x.tape.pieces <+: ρ.effort.answerBytes x.tape.channel.limit ρ.request.id := by
  have hmatched := h.matched k
  rw [hρ] at hmatched
  have hsingle : ∀ {r : Request} {e : Effort} {p : Parcel}, x.responses.get? k = some ⟨r, e, p, none⟩ →
      p.message = .reply (e.replyTo r.id) → (⟨r, e, p, none⟩ : Response).taken x.tape.pieces <+:
        e.answerBytes x.tape.channel.limit r.id := by
    intro r e p hρ hfirst
    have hprefix := h.taken_prefix hρ List.mem_cons_self hfirst
    simp only [Response.taken, Response.parcels, Option.toList_none, List.flatMap_cons, List.flatMap_nil,
      List.append_nil, answerBytes_eq]
    split
    · rwa [if_pos ‹_›] at hprefix
    · rw [if_neg ‹_›] at hprefix
      rw [List.prefix_nil.mp hprefix]
      exact List.nil_prefix
  have hpair : ∀ {r : Request} {e : Effort} {p q : Parcel}, x.responses.get? k = some ⟨r, e, p, some q⟩ →
      p.message = .reply (e.replyTo r.id) → sendable x.tape.channel.limit (.reply (e.replyTo r.id)) = false →
      q.message = .reply (explanationTo r.id (14 + e.reply.2.length) x.tape.channel.limit) →
      (⟨r, e, p, some q⟩ : Response).taken x.tape.pieces <+: e.answerBytes x.tape.channel.limit r.id := by
    intro r e p q hρ hfirst hlong hsecond
    have hprefix := h.taken_prefix hρ (List.mem_cons_of_mem _ List.mem_cons_self) hsecond
    rw [h.taken_pair hρ hfirst hlong fun y => id, answerBytes_eq]
    simpa only [hlong, Bool.false_eq_true, if_false] using hprefix
  cases hjob : x.server.jobs.get? k with
  | none =>
    rw [hjob] at hmatched
    cases hmatched
  | some j =>
    rw [hjob] at hmatched
    cases hmatched with
    | answering first => exact hsingle hρ first
    | explaining first long second => exact hpair hρ first long second
    | answered first => exact hsingle hρ first
    | explained first long second => exact hpair hρ first long second

theorem Inv.taken_done (h : x.Inv) {k : JobKey} {ρ : Response} (hρ : x.responses.get? k = some ρ)
    (hdone : x.server.jobs.get? k = some ⟨ρ.request, .done⟩) (hopen : x.tape.channel.closed = false) :
    ρ.taken (x.tape.pieces.take x.tape.flushed) = ρ.effort.answerBytes x.tape.channel.limit ρ.request.id := by
  have hmatched := h.matched k
  obtain ⟨request, e, first, second?⟩ := ρ
  rw [hρ, hdone] at hmatched
  rw [answerBytes_eq]
  cases hmatched with
  | @answered r e p o first told notLong =>
    simp only [Response.taken, Response.parcels, Option.toList_none, List.flatMap_cons, List.flatMap_nil,
      List.append_nil]
    rcases h.told_cases hopen hρ List.mem_cons_self first told with ⟨hsendable, hframe⟩ | ⟨-, size, limit, hlong⟩
    · rw [if_pos hsendable, hframe]
    · exact absurd hlong (notLong size limit)
  | explained first long second told =>
    rw [h.taken_pair hρ first long fun y => List.mem_of_mem_take,
      h.taken_whole hopen hρ (List.mem_cons_of_mem _ List.mem_cons_self) second told]
    simp only [long, Bool.false_eq_true, if_false]

theorem Inv.told_of_idle (h : x.Inv) {k : JobKey} {j : Job} {t : Ticket} (hj : x.server.jobs.get? k = some j)
    (hstage : j.stage = .answering t ∨ j.stage = .explaining t) (hcapacity : 0 < x.tape.channel.capacity)
    (hidle : x.tape.channel.writer = .idle) (hempty : x.tape.channel.outbound = []) :
    x.tape.channel.outcome? t ≠ none := by
  rcases h.tracked k j t hj hstage with htold | hwaiting | ⟨left, hwriting⟩
  · exact Option.isSome_iff_ne_none.mp htold
  · simp [hempty, h.candid.ready hcapacity hempty] at hwaiting
  · rw [hidle] at hwriting
    cases hwriting

theorem Inv.done_of_rest (h : x.Inv) {k : JobKey} {ρ : Response} (hρ : x.responses.get? k = some ρ)
    (hcapacity : 0 < x.tape.channel.capacity) (hidle : x.tape.channel.writer = .idle)
    (hempty : x.tape.channel.outbound = []) {now : Nat} (hrest : x.server.work? k now = none) :
    x.server.jobs.get? k = some ⟨ρ.request, .done⟩ := by
  have hmatched := h.matched k
  rw [hρ] at hmatched
  cases hjob : x.server.jobs.get? k with
  | none =>
    rw [hjob] at hmatched
    cases hmatched
  | some j =>
    have htold := fun t ht => h.told_of_idle (t := t) hjob ht hcapacity hidle hempty
    rw [hjob] at hmatched
    cases hmatched with
    | @answering r e p first =>
      have hnone := htold p.ticket (.inl rfl)
      simp only [Server.work?, hjob, ← h.same] at hrest
      split at hrest
      · exact absurd ‹_› hnone
      · cases hrest
      · cases hrest
    | @explaining r e p q first long second =>
      simp only [Server.work?, hjob, ← h.same, Option.map_eq_none_iff] at hrest
      exact absurd hrest (htold q.ticket (.inr rfl))
    | answered | explained => rfl

/-! ## One reply -/

section
variable {k l : JobKey} {r : Request} {due now : Nat} {effort : Effort} {s : Server} {handlers : Handlers}

theorem jobs_work? (h : x.server.work? k now = some s) (hl : l ≠ k) : s.jobs.get? l = x.server.jobs.get? l := by
  obtain ⟨channel, log, stage, rfl, -⟩ := Server.work?_eq h
  exact (Table.get?_modify _ _ _ _).trans (if_neg hl)

theorem jobs_serve? (h : x.server.serve? handlers now = some s) (hl : l ≠ x.server.nextJob) :
    s.jobs.get? l = x.server.jobs.get? l := by
  unfold Server.serve? at h
  split at h
  · cases h
  · obtain ⟨o, -, rfl⟩ := Option.map_eq_some_iff.mp h
    rfl
  · split at h
    · obtain rfl := Option.some.inj h
      unfold Server.dispatch
      split
      · rfl
      · dsimp only
        split
        · exact (Table.get?_insert _ _ _ _).trans (if_neg hl)
        · exact (Table.get?_insert _ _ _ _).trans (if_neg hl)
        · rfl
        · rfl
        · rfl
    · obtain rfl := Option.some.inj h
      rfl
    · split at h
      · obtain rfl := Option.some.inj h
        rfl
      · cases h

/-- The work on a request is under way as it was begun, or its reply was handed over. -/
def Holds (x : Answering) (k : JobKey) (r : Request) (due : Nat) (effort : Effort) : Prop :=
  x.server.jobs.get? k = some ⟨r, .working due effort⟩ ∨
    ∃ ρ, x.responses.get? k = some ρ ∧ ρ.request = r ∧ ρ.effort = effort

/-- A step of a job hands over what its work has come to. -/
theorem Inv.holds_work? (h : x.Inv) {s : Server} (hs : x.server.work? k now = some s)
    (hl : x.Holds l r due effort) : Holds ⟨s, x.tape.turn s.channel, x.responds k⟩ l r due effort := by
  by_cases hlk : l = k
  · subst hlk
    refine .inr ?_
    rcases hl with hjob | ⟨ρ, hρ, rfl, rfl⟩
    · refine ⟨⟨r, effort, ⟨x.server.channel.nextTicket, .reply (effort.replyTo r.id)⟩, none⟩, ?_, rfl, rfl⟩
      simp only [responds, hjob]
      exact Table.get?_insert_self _ _ _
    · have hmatched := h.matched l
      rw [hρ] at hmatched
      simp only [responds]
      split
      · rename_i hjob
        rw [hjob] at hmatched
        cases hmatched
      · split
        · exact ⟨_, (Table.get?_modify _ _ _ _).trans ((if_pos rfl).trans (congrArg _ hρ)), rfl, rfl⟩
        · exact ⟨ρ, hρ, rfl, rfl⟩
      · exact ⟨ρ, hρ, rfl, rfl⟩
  · have hresponds : (x.responds k).get? l = x.responses.get? l := by
      simp only [responds]
      split
      · exact (Table.get?_insert _ _ _ _).trans (if_neg hlk)
      · split
        · exact (Table.get?_modify _ _ _ _).trans (if_neg hlk)
        · rfl
      · rfl
    unfold Holds
    rw [jobs_work? hs hlk, hresponds]
    exact hl

theorem Inv.holds_act (h : x.Inv) (hl : x.Holds l r due effort) (a : AnswerAct) :
    (x.act a).Holds l r due effort := by
  cases a with
  | serves handlers now =>
    simp only [Answering.act]
    cases hs : x.server.serve? handlers now with
    | none => exact hl
    | some s =>
      refine hl.imp_left fun hjob => ?_
      exact (jobs_serve? hs (Nat.ne_of_lt (h.fresh l _ hjob))).trans hjob
  | works k now =>
    simp only [Answering.act]
    cases hs : x.server.work? k now with
    | none => exact hl
    | some s => exact h.holds_work? hs hl
  | channel m keeps =>
    simp only [Answering.act]
    cases x.tape.move? m with
    | none => exact hl
    | some y => exact hl

theorem Inv.holds_run (h : x.Inv) (hl : x.Holds l r due effort) (acts : List AnswerAct) :
    (x.run acts).Holds l r due effort := by
  induction acts generalizing x with
  | nil => exact hl
  | cons a acts ih => exact ih (h.act a) (h.holds_act hl a)

theorem holds_serves {d : Channel} {handler : Handler} {ms : Nat} (hready : x.server.serving = .ready)
    (hrequest : x.server.channel.receive? = some (.request r, d)) (hhandler : handlers.get? r.subject = some handler)
    (hworks : handler.react r = .works ms effort) :
    (x.act (.serves handlers now)).Holds x.server.nextJob r (now + ms) effort := by
  left
  simp only [Answering.act, Server.serve?, hready, hrequest, Server.dispatch, hhandler, hworks]
  exact Table.get?_insert_self _ _ _

/-- What there is in the end for a request that was worked on. -/
structure Answered (x : Answering) (k : JobKey) (r : Request) (due : Nat) (effort : Effort) : Prop where
  held : x.Holds k r due effort
  /-- The stream takes the reply to it and no more. -/
  starts : ∀ ρ, x.responses.get? k = some ρ →
    ρ.taken x.tape.pieces <+: effort.answerBytes x.tape.channel.limit r.id
  /-- The job is done when the work is, and neither the job nor the writer can go on. -/
  done : ∀ now, due ≤ now → 0 < x.tape.channel.capacity → x.tape.channel.writer = .idle →
    x.tape.channel.outbound = [] → x.server.work? k now = none → x.server.jobs.get? k = some ⟨r, .done⟩
  /-- By then an open channel has sent the whole reply. -/
  whole : x.server.jobs.get? k = some ⟨r, .done⟩ → x.tape.channel.closed = false →
    ∃ ρ, x.responses.get? k = some ρ ∧
      ρ.taken (x.tape.pieces.take x.tape.flushed) = effort.answerBytes x.tape.channel.limit r.id

theorem Inv.answered (hx : x.Inv) (h : x.Holds k r due effort) : x.Answered k r due effort where
  held := h
  starts ρ hρ := by
    rcases h with hjob | ⟨ρ', hρ', rfl, rfl⟩
    · cases (hx.busy hjob (by simp) (by simp)).symm.trans hρ
    · obtain rfl := Option.some.inj (hρ.symm.trans hρ')
      exact hx.taken_starts hρ
  done now hdue hcapacity hidle hempty hrest := by
    rcases h with hjob | ⟨ρ, hρ, rfl, rfl⟩
    · simp [Server.work?, hjob, hdue] at hrest
    · exact hx.done_of_rest hρ hcapacity hidle hempty hrest
  whole hdone hopen := by
    rcases h with hjob | ⟨ρ, hρ, rfl, rfl⟩
    · cases hjob.symm.trans hdone
    · exact ⟨ρ, hρ, hx.taken_done hρ hdone hopen⟩

end

/-- What the stream has of the replies to a request on which there was work. -/
structure AnsweredOnce (x : Answering) (k : JobKey) (r : Request) (due : Nat) (effort : Effort) : Prop
    extends x.Answered k r due effort where
  /-- The stream takes whole frames, in the order of the queue. -/
  framed : x.tape.Framed
  answer : SoundAnswer effort x.tape.channel.limit r.id
  /-- Work that has ended is answered as soon as it is the turn of its job. -/
  hands : ∀ now, due ≤ now → x.server.jobs.get? k = some ⟨r, .working due effort⟩ →
    ∃ ρ, (x.act (.works k now)).responses.get? k = some ρ ∧ ρ.request = r ∧ ρ.effort = effort
  /-- From 99 bytes on an open channel has sent one reply, once the job is done. -/
  one : 99 ≤ x.tape.channel.limit → x.tape.channel.limit < 2 ^ 64 → 14 + effort.reply.2.length < 2 ^ 64 →
    x.server.jobs.get? k = some ⟨r, .done⟩ → x.tape.channel.closed = false →
      ∃ ρ reply, x.responses.get? k = some ρ ∧ reply.id = r.id ∧
        encode x.tape.channel.limit (.reply reply) = .ok (ρ.taken (x.tape.pieces.take x.tape.flushed))
  /-- What is in the queue under the ticket of a reply is this reply. -/
  own : ∀ ρ p, x.responses.get? k = some ρ → p ∈ ρ.parcels → ∀ q ∈ x.tape.queued, q.ticket = p.ticket → q = p
  distinct : ∀ l ρ ρ' p p', x.responses.get? k = some ρ → x.responses.get? l = some ρ' → p ∈ ρ.parcels →
    p' ∈ ρ'.parcels → p.ticket = p'.ticket → k = l

theorem Inv.answeredOnce (h : x.Inv) {k : JobKey} {r : Request} {due : Nat} {effort : Effort}
    (hholds : x.Holds k r due effort) : x.AnsweredOnce k r due effort where
  toAnswered := h.answered hholds
  framed := by
    obtain ⟨gone, hgone⟩ := h.faithful
    exact hgone.framed
  answer := soundAnswer _ _ _
  hands now hdue hjob := by
    have hwork : ∃ s, x.server.work? k now = some s := by simp [Server.work?, hjob, hdue]
    obtain ⟨s, hs⟩ := hwork
    simp only [Answering.act, hs, responds, hjob]
    exact ⟨_, Table.get?_insert_self _ _ _, rfl, rfl⟩
  one hlimit hwide hsize hdone hopen := by
    obtain ⟨ρ, hρ, htaken⟩ := (h.answered hholds).whole hdone hopen
    have hsome : effort.answer? x.tape.channel.limit r.id ≠ none := answer?_ne_none hlimit hwide hsize
    obtain ⟨reply, hreply⟩ := Option.ne_none_iff_exists'.mp hsome
    exact ⟨ρ, reply, hρ, id_of_answer? hreply, htaken ▸ encode_of_answer? hreply⟩
  own ρ p hρ hp q hq := h.own k ρ p hρ hp q (List.mem_append_left _ hq)
  distinct l := h.distinct k l

/-- Whatever else goes on before and after: a request that is taken and worked on is answered once. -/
theorem requests_are_answered_once (limit capacity : Nat) (before after : List AnswerAct) {handlers : Handlers}
    {now ms : Nat} {r : Request} {d : Channel} {handler : Handler} {effort : Effort}
    (hready : ((start limit capacity).run before).server.serving = .ready)
    (hrequest : ((start limit capacity).run before).server.channel.receive? = some (.request r, d))
    (hhandler : handlers.get? r.subject = some handler) (hworks : handler.react r = .works ms effort) :
    ((start limit capacity).run (before ++ .serves handlers now :: after)).AnsweredOnce
      ((start limit capacity).run before).server.nextJob r (now + ms) effort := by
  have h := (inv_start limit capacity).run before
  rw [run, List.foldl_append, List.foldl_cons]
  exact ((h.act _).run after).answeredOnce
    ((h.act _).holds_run (holds_serves hready hrequest hhandler hworks) after)

/-- Answers with 85 bytes, which takes a frame of 99. -/
def lengthy : Handler := .ofFunction "h" fun _ _ => (0, .returned (List.replicate 85 0))

/-- The reply of 99 bytes is too long for a limit of 63, and the caller is told so. -/
theorem requests_are_answered_once_lengthy :
    let request : Request := ⟨7, ⟨"h", 1⟩, "s", []⟩
    let handlers : Handlers := Table.empty.insert "s" lengthy
    let before : List AnswerAct := [.channel (.arrives (.request request)) (by simp)]
    let after : List AnswerAct := [.works 0 0, .channel .takes (by simp), .works 0 0, .channel .takes (by simp),
      .channel (.writes 70) (by simp), .channel .flushes (by simp), .works 0 0]
    let x := (start 63 1).run (before ++ .serves handlers 0 :: after)
    x.server.jobs.get? 0 = some ⟨request, .done⟩ ∧ x.tape.channel.closed = false ∧
      (∃ ρ, x.responses.get? 0 = some ρ ∧
        ρ.taken (x.tape.pieces.take x.tape.flushed) = frameOf 63 (.reply (explanationTo 7 99 63))) ∧
      x.tape.bytes = frameOf 63 (.reply (explanationTo 7 99 63)) := by
  intro request handlers before after x
  have hworks : lengthy.react request = .works 0 (.returned (List.replicate 85 0)) := rfl
  have hhandler : handlers.get? request.subject = some lengthy := rfl
  have hkey : ((start 63 1).run before).server.nextJob = 0 := by decide
  have hready : ((start 63 1).run before).server.serving = .ready := by decide
  obtain ⟨d, hrequest⟩ : ∃ d, ((start 63 1).run before).server.channel.receive? = some (.request request, d) :=
    ⟨_, rfl⟩
  have hanswered : x.AnsweredOnce _ request (0 + 0) _ :=
    requests_are_answered_once 63 1 before after hready hrequest hhandler hworks
  rw [hkey] at hanswered
  have hdone : x.server.jobs.get? 0 = some ⟨request, .done⟩ := by decide
  have hopen : x.tape.channel.closed = false := by decide
  have hreply : (Effort.returned (List.replicate 85 0)).answerBytes 63 7 =
      frameOf 63 (.reply (explanationTo 7 99 63)) := by decide
  have hlimit : x.tape.channel.limit = 63 := by decide
  obtain ⟨ρ, hρ, htaken⟩ := hanswered.whole hdone hopen
  rw [hlimit] at htaken
  exact ⟨hdone, hopen, ⟨ρ, hρ, htaken.trans hreply⟩, by decide⟩

end Answering

end ClusterNet.Messaging
