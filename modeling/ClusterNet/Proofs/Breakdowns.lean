import ClusterNet.Proofs.Answers
import ClusterNet.Proofs.Pressure

/-!
# Handlers that break off

The work on a request goes on beside the server. If it breaks off, the request is answered all the same,
and the server never notices. But an application may also break off while it sets the work up, and this it
does on the server itself: then the server stops, and what is still to be taken is lost.
-/

namespace ClusterNet.Messaging

open Wire

/-! ## What a server is given, and what it takes -/

namespace Channel

variable {c d : Channel} {m : ChannelMove}

/-- The messages that a move passes on to whoever takes them. -/
def passes (c : Channel) : ChannelMove → List Message
  | .forwards =>
    match c.reader with
    | .holding m => if c.attended = true ∧ c.inbound.length < c.capacity then [m] else []
    | _ => []
  | .arrives m => [m]
  | _ => []

theorem passes_of_none (h : c.move? m = none) : c.passes m = [] := by
  cases m with
  | forwards =>
    change c.forward? = none at h
    unfold forward? at h
    dsimp only [passes]
    split
    · rename_i m hholding
      rw [hholding] at h
      dsimp only at h
      split at h
      · cases h
      · split at h
        · cases h
        · rename_i hfull
          rw [if_neg fun hboth => hfull hboth.2]
    · rfl
  | arrives m => cases h
  | _ => rfl

theorem passes_of_ended (hended : c.reader = .stopped) (hread : ∀ r, m ≠ .arrives r) : c.passes m = [] := by
  cases m with
  | forwards => simp [passes, hended]
  | arrives r => exact absurd rfl (hread r)
  | _ => rfl

theorem inbound_move? (h : c.move? m = some d) :
    d.inbound = c.inbound ++ c.passes m ∧ (c.reader = .stopped → d.reader = .stopped) := by
  have hwrites (hs : c.SameReader d) (hm : c.passes m = []) :
      d.inbound = c.inbound ++ c.passes m ∧ (c.reader = .stopped → d.reader = .stopped) := by
    rw [hm, List.append_nil, hs.reader]
    exact ⟨hs.inbound, id⟩
  have hreads {b : Bytes} (hr : Read c true d b) (hm : d.inbound = c.inbound ++ c.passes m) :
      d.inbound = c.inbound ++ c.passes m ∧ (c.reader = .stopped → d.reader = .stopped) :=
    ⟨hm, fun hstopped => absurd hstopped hr.going⟩
  cases m with
  | takes => exact hwrites (sameReader_next? h) rfl
  | writes n =>
    obtain ⟨⟨b, e⟩, he, rfl⟩ := Option.map_eq_some_iff.mp h
    exact hwrites (sameReader_write? he) rfl
  | flushes => exact hwrites (sameReader_flush? h) rfl
  | writeFails => exact hwrites (sameReader_writeFails? h) rfl
  | stopsWriting => exact hwrites (sameReader_stopWriting? h) rfl
  | sends m =>
    obtain rfl := Option.some.inj h
    exact hwrites (sameReader_submit c m) rfl
  | reads chunk =>
    refine hreads (.of_read? h fun _ => rfl) ?_
    change c.read? chunk = some d at h
    unfold read? at h
    split at h
    · split at h <;> obtain rfl := Option.some.inj h <;> exact (List.append_nil _).symm
    · cases h
  | readFails =>
    refine hreads (.of_readFails? h) ?_
    change c.readFails? = some d at h
    unfold readFails? at h
    split at h
    · obtain rfl := Option.some.inj h
      exact (List.append_nil _).symm
    · cases h
  | stopsReading =>
    refine hreads (.of_stopReading? h) ?_
    obtain ⟨-, -, rfl⟩ := stopReading?_eq_some h
    exact (List.append_nil _).symm
  | decodes =>
    refine hreads (.of_decode? h) ?_
    change c.decode? = some d at h
    unfold decode? at h
    split at h
    · obtain rfl := Option.some.inj h
      change _ = c.inbound ++ []
      rw [List.append_nil]
      split <;> rfl
    · cases h
  | forwards =>
    refine hreads (.of_forward? h) ?_
    change c.forward? = some d at h
    unfold forward? at h
    split at h
    · rename_i m hholding
      split at h
      · rename_i hleft
        obtain rfl := Option.some.inj h
        have hgone : c.attended = false := by simpa using hleft
        simp [passes, hholding, hgone, endReading]
      · rename_i hthere
        have hattended : c.attended = true := by simpa using hthere
        split at h
        · rename_i hroom
          obtain rfl := Option.some.inj h
          simp [passes, hholding, hattended, hroom]
        · cases h
    · cases h
  | closes | releases | withdraws =>
    obtain rfl := Option.some.inj h
    exact ⟨(List.append_nil _).symm, id⟩
  | arrives m =>
    obtain rfl := Option.some.inj h
    exact ⟨rfl, id⟩

end Channel

/-- How a job starts after a reaction. -/
def Reaction.stage? (now : Nat) : Reaction → Option Stage
  | .works ms effort => some (.working (now + ms) effort)
  | .replies rs => some (.turning rs)
  | .keeps | .releases | .breaksOff => none

/-- There are three ways to register a handler. -/
inductive Handler.Registered : Handler → Prop where
  | function (label : String) (f : Address → Bytes → Nat × Effort) : Registered (.ofFunction label f)
  | work (label : String) (f : Address → Bytes → Option (Nat × Effort)) : Registered (.ofWork label f)
  | consumer (label : String) : Registered (.ofConsumer label)

/-- A message that a server took, the handlers at that time, and the key of the next job. -/
structure Fetch where
  message : Message
  handlers : Handlers
  now : Nat
  key : JobKey

namespace Fetch

/-- What the handler did with it. -/
def reaction? (f : Fetch) : Option Reaction :=
  match f.message with
  | .request r => (f.handlers.get? r.subject).map (·.react r)
  | .reply _ => none

/-- The handler broke off before there was any work. -/
def Broke (f : Fetch) : Prop := f.reaction? = some .breaksOff

/-- The job that there is for it from then on. -/
def job? (f : Fetch) : Option Job :=
  match f.message with
  | .request r => (f.reaction?.bind (·.stage? f.now)).map fun stage => ⟨r, stage⟩
  | .reply _ => none

theorem Broke.job? {f : Fetch} (h : f.Broke) : f.job? = none := by
  unfold Fetch.job?
  rw [show f.reaction? = some .breaksOff from h]
  cases f.message <;> rfl

/-- Of the handlers that can be registered, only one that sets work up can break off at once. -/
theorem broke_iff {f : Fetch} {r : Request} {h : Handler} (hr : f.message = .request r)
    (hh : f.handlers.get? r.subject = some h) (hregistered : h.Registered) :
    f.Broke ↔ ∃ label work, h = .ofWork label work ∧ work r.sender r.payload = none := by
  have hbroke : f.Broke ↔ h.react r = .breaksOff := by
    simp [Broke, reaction?, hr, hh]
  rw [hbroke]
  constructor
  · intro hreact
    cases hregistered with
    | function label g => cases hreact
    | consumer label => cases hreact
    | work label g =>
      refine ⟨label, g, rfl, ?_⟩
      cases hg : g r.sender r.payload with
      | none => rfl
      | some e =>
        simp [Handler.ofWork, hg] at hreact
  · rintro ⟨label, work, rfl, hnone⟩
    simp [Handler.ofWork, hnone]

end Fetch

namespace Server

variable {s s' : Server} {handlers : Handlers} {now : Nat}

/-- What a server takes in its next step. -/
def fetches (s : Server) (handlers : Handlers) (now : Nat) : List Fetch :=
  match s.serving, s.channel.inbound with
  | .ready, m :: _ => [⟨m, handlers, now, s.nextJob⟩]
  | _, _ => []

/-- What a server does when it takes no message. -/
inductive Idles (s : Server) : Server → Prop where
  | resumes {u : Ticket} (refusing : s.serving = .refusing u) : Idles s { s with serving := .ready }
  | ends (ready : s.serving = .ready) (empty : s.channel.inbound = []) (ended : s.channel.reader = .stopped) :
      Idles s s.stop

/-- What a server does with a message that it takes. -/
structure Takes (s : Server) (f : Fetch) (s' : Server) : Prop where
  jobs : s'.jobs = f.job?.elim s.jobs (s.jobs.insert s.nextJob)
  nextJob : s'.nextJob = s.nextJob + f.job?.toList.length
  first : s.channel.inbound = f.message :: s.channel.inbound.tail
  stops : f.Broke → s'.serving = .stopped
  goesOn : ¬ f.Broke → s'.channel.inbound = s.channel.inbound.tail ∧
    (s'.serving = .ready ∨ ∃ u, s'.serving = .refusing u ∧ s'.channel.Tracks u)

theorem takes_dispatch {r : Request} {rest : List Message} (hready : s.serving = .ready)
    (hin : s.channel.inbound = .request r :: rest) : s.Takes ⟨.request r, handlers, now, s.nextJob⟩
      ({ s with channel := { s.channel with inbound := rest } }.dispatch handlers now r) := by
  have hfirst : s.channel.inbound = .request r :: s.channel.inbound.tail := hin ▸ rfl
  have hrest : rest = s.channel.inbound.tail := hin ▸ rfl
  cases hh : handlers.get? r.subject with
  | none =>
    have hreaction : (⟨.request r, handlers, now, s.nextJob⟩ : Fetch).reaction? = none := by
      simp [Fetch.reaction?, hh]
    have hjob : (⟨.request r, handlers, now, s.nextJob⟩ : Fetch).job? = none := by
      simp [Fetch.job?, hreaction]
    rw [Exchange.dispatch_none now hh]
    have hsame := sameReader_submit { s.channel with inbound := rest } (.reply ⟨r.id, (refusal r).1, (refusal r).2⟩)
    refine ⟨by rw [hjob]; rfl, by rw [hjob]; rfl, hfirst, fun hbroke => ?_,
      fun _ => ⟨hsame.inbound.trans hrest, .inr ⟨_, rfl, ?_⟩⟩⟩
    · cases hreaction.symm.trans hbroke
    · exact Channel.tracks_submit_new _ _
  | some h =>
    have hreaction : (⟨.request r, handlers, now, s.nextJob⟩ : Fetch).reaction? = some (h.react r) := by
      simp [Fetch.reaction?, hh]
    have hjob : (⟨.request r, handlers, now, s.nextJob⟩ : Fetch).job? =
        ((h.react r).stage? now).map fun stage => ⟨r, stage⟩ := by
      simp [Fetch.job?, hreaction]
    unfold dispatch
    rw [hh]
    cases hreact : h.react r with
    | breaksOff =>
      rw [hreact] at hreaction hjob
      simp only [hreact]
      exact ⟨by rw [hjob]; rfl, by rw [hjob]; rfl, hfirst, fun _ => rfl, fun hnot => absurd hreaction hnot⟩
    | works | replies | keeps | releases =>
      rw [hreact] at hreaction hjob
      simp only [hreact]
      exact ⟨by rw [hjob]; rfl, by rw [hjob]; rfl, hfirst, fun hbroke => (by cases hreaction.symm.trans hbroke),
        fun _ => ⟨hrest, .inl hready⟩⟩

theorem serve?_cases (h : s.serve? handlers now = some s') :
    (s.fetches handlers now = [] ∧ s.Idles s') ∨
      ∃ f, s.serving = .ready ∧ s.fetches handlers now = [f] ∧ f.key = s.nextJob ∧ s.Takes f s' := by
  unfold serve? at h
  unfold fetches
  split at h
  · cases h
  · rename_i u hrefusing
    obtain ⟨o, -, rfl⟩ := Option.map_eq_some_iff.mp h
    exact .inl ⟨by simp [hrefusing], .resumes hrefusing⟩
  · rename_i hready
    cases hin : s.channel.inbound with
    | nil =>
      simp only [Channel.receive?, hin, Channel.ended] at h
      split at h
      · rename_i hended
        obtain rfl := Option.some.inj h
        exact .inl ⟨by simp [hready], .ends hready hin (by simpa using hended)⟩
      · cases h
    | cons m rest =>
      simp only [Channel.receive?, hin] at h
      refine .inr ⟨⟨m, handlers, now, s.nextJob⟩, hready, by simp [hready], rfl, ?_⟩
      cases m with
      | request r =>
        obtain rfl := Option.some.inj h
        exact takes_dispatch hready hin
      | reply r =>
        obtain rfl := Option.some.inj h
        exact ⟨rfl, rfl, hin ▸ rfl, fun hbroke => (by cases hbroke), fun _ => ⟨hin ▸ rfl, .inl hready⟩⟩

theorem fetches_of_none (h : s.serve? handlers now = none) : s.fetches handlers now = [] := by
  unfold fetches
  split
  · rename_i m rest hready hin
    rcases Traffic.serve?_eq_none (by simp [hready]) h with ⟨-, hempty⟩ | ⟨u, hrefusing, -⟩
    · cases hin.symm.trans hempty
    · cases hready.symm.trans hrefusing
  · rfl

end Server

namespace Answering

variable {x y : Answering} {k l : JobKey} {r : Request} {due now : Nat} {effort : Effort}

/-- What an act passes on to the server when the server takes nothing. -/
structure Passes (x y : Answering) (ms : List Message) : Prop where
  inv : y.Inv
  inbound : y.server.channel.inbound = x.server.channel.inbound ++ ms
  nextJob : y.server.nextJob = x.server.nextJob
  stops : y.server.serving = .stopped → x.server.serving = .stopped ∨
    y.server.channel.reader = .stopped ∧ y.server.channel.inbound = []
  /-- After a reader that has stopped there is nothing more. -/
  ended : x.server.channel.reader = .stopped → y.server.channel.reader = .stopped ∧ ms = []
  stopped : x.server.serving = .stopped → y.server.serving = .stopped
  refusing : ∀ u, y.server.serving = .refusing u → x.server.serving = .refusing u ∧
    (x.server.channel.Tracks u → y.server.channel.Tracks u)
  holds : ∀ k r due effort, x.Holds k r due effort → y.Holds k r due effort

theorem passes_idles {s : Server} (hs : x.server.Idles s)
    (hinv : Inv { x with server := s, tape := x.tape.turn s.channel }) :
    x.Passes { x with server := s, tape := x.tape.turn s.channel } [] where
  inv := hinv
  inbound := by
    cases hs with
    | resumes => exact (List.append_nil _).symm
    | ends ready empty ended => exact empty.symm ▸ rfl
  nextJob := by cases hs <;> rfl
  stops hstopped := by
    cases hs with
    | resumes => cases hstopped
    | ends ready empty ended => exact .inr ⟨ended, rfl⟩
  ended hended := by cases hs <;> exact ⟨hended, rfl⟩
  stopped hstopped := by
    cases hs with
    | resumes refusing => cases refusing.symm.trans hstopped
    | ends => rfl
  refusing u hu := by cases hs <;> cases hu
  holds k r due effort hk := by cases hs <;> exact hk

theorem passes_work? (h : x.Inv) {s : Server} (hs : x.server.work? k now = some s) :
    x.Passes ⟨s, x.tape.turn s.channel, x.responds k⟩ [] := by
  obtain ⟨hserving, hchannel⟩ := Server.work?_channel hs
  have hreader : x.server.channel.SameReader s.channel := by
    rcases hchannel with he | ⟨reply, he⟩
    · rw [he]
      exact ⟨rfl, rfl, rfl, rfl⟩
    · rw [he]
      exact sameReader_submit _ _
  have htracks : ∀ u, x.server.channel.Tracks u → s.channel.Tracks u := by
    intro u hu
    rcases hchannel with he | ⟨reply, he⟩
    · rwa [he]
    · rw [he]
      exact Channel.tracks_submit _ hu
  exact {
    inv := h.work? hs
    inbound := hreader.inbound.trans (List.append_nil _).symm
    nextJob := by
      obtain ⟨_, _, _, rfl, -⟩ := Server.work?_eq hs
      rfl
    stops := fun hstopped => .inl (hserving.symm.trans hstopped)
    ended := fun hended => ⟨hreader.reader.trans hended, rfl⟩
    stopped := hserving.trans
    refusing := fun u hu => ⟨hserving.symm.trans hu, htracks u⟩
    holds := fun l r due effort => h.holds_work? hs }

theorem passes_channel (h : x.Inv) {m : ChannelMove} (hkeeps : ∀ t, m ≠ .withdraws t) (hread : ∀ r, m ≠ .arrives r)
    {t : Tape} (ht : x.tape.move? m = some t) :
    x.Passes { x with server := { x.server with channel := t.channel }, tape := t }
      (x.server.channel.passes m) := by
  have hmove : x.server.channel.move? m = some t.channel := by
    rw [← h.same, ← Tape.channel_move?, ht]
    rfl
  obtain ⟨hinbound, hreader⟩ := Channel.inbound_move? hmove
  exact {
    inv := h.channel hkeeps ht
    inbound := hinbound
    nextJob := rfl
    stops := .inl
    ended := fun hended => ⟨hreader hended, Channel.passes_of_ended hended hread⟩
    stopped := id
    refusing := fun u hu => ⟨hu, (Channel.shift_move? hkeeps hmove).tracks⟩
    holds := fun _ _ _ _ => id }

/-- The frame of the reply for work that broke off has thirty bytes, and no shorter one explains it. -/
theorem answerBytes_brokeOff (limit : Nat) (id : UInt64) : Effort.brokeOff.answerBytes limit id =
    if 30 ≤ limit then frameOf limit (.reply ⟨id, .handlerFailed, Bytes.ofText "handler panicked"⟩) else [] := by
  have hown : sendable limit (.reply (Effort.brokeOff.replyTo id)) = true ↔ 30 ≤ limit := sendable_reply
  have hshort : sendable limit (.reply (explanationTo id 30 limit)) = true ↔ 14 + (tooLong 30 limit).2.length ≤ limit :=
    sendable_reply
  have hlength := length_tooLong 30 limit
  rw [answerBytes_eq]
  change (if sendable limit (.reply (Effort.brokeOff.replyTo id)) = true then _ else
    if sendable limit (.reply (explanationTo id 30 limit)) = true then _ else _) = _
  by_cases h : 30 ≤ limit
  · rw [if_pos (hown.mpr h), if_pos h]
    rfl
  · rw [if_neg (mt hown.mp h), if_neg h, if_neg]
    rw [hshort]
    omega

end Answering

/-! ## A server with its records -/

/-- A server that answers, with what its channel passed on to it, and what it took. -/
structure Docket where
  answering : Answering
  passed : List Message
  taken : List Fetch

inductive DocketAct where
  | serves (handlers : Handlers) (now : Nat)
  | works (k : JobKey) (now : Nat)
  /-- A job does not give up what it sends, and what arrives comes out of the stream. -/
  | channel (m : ChannelMove) (keeps : ∀ t, m ≠ .withdraws t) (read : ∀ r, m ≠ .arrives r)

namespace Docket

def start (limit capacity : Nat) : Docket := ⟨.start limit capacity, [], []⟩

def server (x : Docket) : Server := x.answering.server

/-- An act that is not possible now changes nothing. -/
def act (x : Docket) : DocketAct → Docket
  | .serves handlers now =>
    { x with answering := x.answering.act (.serves handlers now), taken := x.taken ++ x.server.fetches handlers now }
  | .works k now => { x with answering := x.answering.act (.works k now) }
  | .channel m keeps _ =>
    { x with answering := x.answering.act (.channel m keeps), passed := x.passed ++ x.server.channel.passes m }

def run (x : Docket) (acts : List DocketAct) : Docket := acts.foldl act x

/-- No handler has broken off before there was any work. -/
def Unbroken (x : Docket) : Prop := ∀ f ∈ x.taken, ¬ f.Broke

/-- What every act keeps. A handler that breaks off at once is the last that the server meets with, so up to then
nothing that was passed on is lost. -/
structure Kept (x : Docket) : Prop where
  inv : x.answering.Inv
  order : x.Unbroken → x.passed = x.taken.map (·.message) ++ x.server.channel.inbound
  begun : x.taken.map (·.message) <+: x.passed
  ended : x.Unbroken → x.server.serving = .stopped →
    x.server.channel.reader = .stopped ∧ x.server.channel.inbound = []
  lost : ∀ f ∈ x.taken, f.Broke →
    x.server.serving = .stopped ∧ x.taken.getLast? = some f ∧ f.key = x.server.nextJob
  refusing : ∀ u, x.server.serving = .refusing u → x.server.channel.Tracks u
  keys : x.taken.Pairwise fun f g => f.key + f.job?.toList.length ≤ g.key
  fresh : ∀ f ∈ x.taken, f.key + f.job?.toList.length ≤ x.server.nextJob
  held : ∀ f ∈ x.taken, ∀ r due effort, f.job? = some ⟨r, .working due effort⟩ →
    x.answering.Holds f.key r due effort

variable {x : Docket}

theorem kept_start (limit capacity : Nat) : (start limit capacity).Kept where
  inv := Answering.inv_start limit capacity
  order _ := rfl
  begun := List.prefix_rfl
  ended _ hstopped := by cases hstopped
  lost _ hf := by cases hf
  refusing _ hu := by cases hu
  keys := .nil
  fresh _ hf := by cases hf
  held _ hf := by cases hf

theorem Kept.passes (h : x.Kept) {y : Answering} {ms : List Message} (hy : x.answering.Passes y ms) :
    Kept ⟨y, x.passed ++ ms, x.taken⟩ where
  inv := hy.inv
  order hunbroken := by
    change _ = _ ++ y.server.channel.inbound
    rw [hy.inbound, h.order hunbroken, List.append_assoc]
    rfl
  begun := h.begun.trans (List.prefix_append _ _)
  ended hunbroken hstopped := by
    rcases hy.stops hstopped with hold | hnew
    · obtain ⟨hreader, hempty⟩ := h.ended hunbroken hold
      obtain ⟨hstill, hnone⟩ := hy.ended hreader
      refine ⟨hstill, hy.inbound.trans ?_⟩
      rw [hnone, List.append_nil]
      exact hempty
    · exact hnew
  lost f hf hbroke := by
    obtain ⟨hstopped, hlast, hkey⟩ := h.lost f hf hbroke
    exact ⟨hy.stopped hstopped, hlast, hkey.trans hy.nextJob.symm⟩
  refusing u hu := by
    obtain ⟨hold, htracks⟩ := hy.refusing u hu
    exact htracks (h.refusing u hold)
  keys := h.keys
  fresh f hf := hy.nextJob.symm ▸ h.fresh f hf
  held f hf r due effort hjob := hy.holds _ _ _ _ (h.held f hf r due effort hjob)

theorem Kept.takes (h : x.Kept) {s : Server} {f : Fetch} (hready : x.server.serving = .ready)
    (hkey : f.key = x.server.nextJob) (hs : x.server.Takes f s) {t : Tape}
    (hinv : Answering.Inv { x.answering with server := s, tape := t }) :
    Kept { x with answering := { x.answering with server := s, tape := t }, taken := x.taken ++ [f] } := by
  have hunbroken : x.Unbroken := by
    intro g hg hbroke
    cases hready.symm.trans (h.lost g hg hbroke).1
  have hmem {g : Fetch} (hg : g ∈ x.taken ++ [f]) : g ∈ x.taken ∨ g = f := by simpa using hg
  have hself : f ∈ x.taken ++ [f] := by simp
  have hgiven := h.order hunbroken
  rw [hs.first] at hgiven
  refine ⟨hinv, fun hall => ?_, ?_, fun hall hstopped => ?_, fun g hg hbroke => ?_, fun u hu => ?_, ?_, fun g hg => ?_,
    fun g hg r due effort hjob => ?_⟩
  · change _ = _ ++ s.channel.inbound
    rw [(hs.goesOn (hall f hself)).1]
    simpa using hgiven
  · exact ⟨x.server.channel.inbound.tail, by simpa using hgiven.symm⟩
  · rcases (hs.goesOn (hall f hself)).2 with hstill | ⟨u, hrefusing, -⟩
    · cases hstill.symm.trans hstopped
    · cases hrefusing.symm.trans hstopped
  · rcases hmem hg with hold | rfl
    · exact absurd hbroke (hunbroken g hold)
    · refine ⟨hs.stops hbroke, by simp, ?_⟩
      change g.key = s.nextJob
      rw [hs.nextJob, hbroke.job?]
      exact hkey
  · have hnot : ¬ f.Broke := fun hbroke => by cases (hs.stops hbroke).symm.trans hu
    rcases (hs.goesOn hnot).2 with hstill | ⟨v, hrefusing, htracks⟩
    · cases hstill.symm.trans hu
    · cases hrefusing.symm.trans hu
      exact htracks
  · refine List.pairwise_append.mpr ⟨h.keys, List.pairwise_singleton _ _, fun g hg f' hf' => ?_⟩
    obtain rfl := List.mem_singleton.mp hf'
    exact hkey ▸ h.fresh g hg
  · change _ ≤ s.nextJob
    rw [hs.nextJob]
    rcases hmem hg with hold | rfl
    · exact Nat.le_trans (h.fresh g hold) (Nat.le_add_right _ _)
    · exact Nat.le_of_eq (hkey ▸ rfl)
  · rcases hmem hg with hold | rfl
    · have hother : g.key ≠ x.server.nextJob := by
        have hfresh := h.fresh g hold
        rw [hjob] at hfresh
        exact Nat.ne_of_lt hfresh
      refine (h.held g hold r due effort hjob).imp_left fun hheld => ?_
      change s.jobs.get? g.key = _
      rw [hs.jobs]
      cases f.job? with
      | none => exact hheld
      | some j => exact (Table.get?_insert _ _ _ _).trans ((if_neg hother).trans hheld)
    · refine .inl ?_
      change s.jobs.get? g.key = _
      rw [hs.jobs, hjob, hkey]
      exact Table.get?_insert_self _ _ _

theorem Kept.act (h : x.Kept) (a : DocketAct) : (x.act a).Kept := by
  cases a with
  | serves handlers now =>
    simp only [Docket.act, Answering.act]
    cases hs : x.answering.server.serve? handlers now with
    | none =>
      rw [show x.server.fetches handlers now = [] from Server.fetches_of_none hs, List.append_nil]
      exact h
    | some s =>
      have hinv := h.inv.serve? hs
      rcases Server.serve?_cases hs with ⟨hnone, hidles⟩ | ⟨f, hready, hsome, hkey, htakes⟩
      · rw [show x.server.fetches handlers now = [] from hnone, List.append_nil]
        have hpassed := h.passes (Answering.passes_idles hidles hinv)
        rwa [List.append_nil] at hpassed
      · rw [show x.server.fetches handlers now = [f] from hsome]
        exact h.takes hready hkey htakes hinv
  | works k now =>
    simp only [Docket.act, Answering.act]
    cases hs : x.answering.server.work? k now with
    | none => exact h
    | some s =>
      have hpassed := h.passes (Answering.passes_work? h.inv hs)
      rwa [List.append_nil] at hpassed
  | channel m keeps read =>
    simp only [Docket.act, Answering.act]
    cases ht : x.answering.tape.move? m with
    | none =>
      have hmove : x.server.channel.move? m = none := by
        rw [Docket.server, ← h.inv.same, ← Tape.channel_move?, ht]
        rfl
      rw [Channel.passes_of_none hmove, List.append_nil]
      exact h
    | some t => exact h.passes (Answering.passes_channel h.inv keeps read ht)

theorem Kept.run (h : x.Kept) (acts : List DocketAct) : (x.run acts).Kept := by
  induction acts generalizing x with
  | nil => exact h
  | cons a acts ih => exact ih (h.act a)

/-! ## What breaking off costs -/

/-- What a handler that breaks off costs the others. -/
structure Isolated (x : Docket) : Prop where
  /-- The server takes what it is given, in this order. -/
  begun : x.taken.map (·.message) <+: x.passed
  /-- Unless it met with a handler that broke off at once, it loses nothing, and stops only after the last
  message. -/
  order : x.Unbroken → x.passed = x.taken.map (·.message) ++ x.server.channel.inbound
  stops : x.Unbroken → x.server.serving = .stopped →
    x.server.channel.reader = .stopped ∧ x.server.channel.inbound = []
  /-- If neither it nor the writer can do anything, nothing is left to take. -/
  all : x.Unbroken → 0 < x.server.channel.capacity → x.server.channel.outbound = [] →
    (∀ t left, x.server.channel.writer ≠ .writing t left) → ∀ handlers now, x.server.serve? handlers now = none →
      x.passed = x.taken.map (·.message)
  /-- Every request that is worked on has its own job, and is answered with how the work ended. -/
  own : x.taken.Pairwise fun f g => f.job? ≠ none → f.key < g.key
  answered : ∀ f ∈ x.taken, ∀ r ms effort, f.message = .request r → f.reaction? = some (.works ms effort) →
    x.answering.Answered f.key r (f.now + ms) effort
  /-- Work that broke off is answered if the limit leaves room for it. -/
  told : ∀ id, Effort.brokeOff.answerBytes x.answering.tape.channel.limit id =
    if 30 ≤ x.answering.tape.channel.limit then
      frameOf x.answering.tape.channel.limit (.reply ⟨id, .handlerFailed, Bytes.ofText "handler panicked"⟩)
    else []
  /-- A handler that breaks off before there is any work is the last one, and there is no answer. -/
  lost : ∀ f ∈ x.taken, f.Broke → x.server.serving = .stopped ∧ x.taken.getLast? = some f ∧
    x.server.jobs.get? f.key = none ∧ x.answering.responses.get? f.key = none
  /-- Of the handlers that can be registered, only one that sets work up does that. -/
  setsUp : ∀ f ∈ x.taken, ∀ r h, f.message = .request r → f.handlers.get? r.subject = some h → h.Registered →
    (f.Broke ↔ ∃ label work, h = .ofWork label work ∧ work r.sender r.payload = none)

theorem Kept.inbound_of_rest (h : x.Kept) (hunbroken : x.Unbroken) (hcapacity : 0 < x.server.channel.capacity)
    (hempty : x.server.channel.outbound = []) (hwritten : ∀ t left, x.server.channel.writer ≠ .writing t left)
    {handlers : Handlers} {now : Nat} (hrest : x.server.serve? handlers now = none) :
    x.server.channel.inbound = [] := by
  by_cases hstopped : x.server.serving = .stopped
  · exact (h.ended hunbroken hstopped).2
  rcases Traffic.serve?_eq_none hstopped hrest with ⟨-, hnone⟩ | ⟨u, hrefusing, huntold⟩
  · exact hnone
  have hblocked : x.server.channel.blocked = [] := by
    have hready := h.inv.candid.ready
    rw [h.inv.same] at hready
    exact hready hcapacity hempty
  rcases h.refusing u hrefusing with htold | hwaiting | ⟨left, hwriting⟩
  · rw [huntold] at htold
    cases htold
  · simp [hempty, hblocked] at hwaiting
  · exact absurd hwriting (hwritten u left)

theorem Kept.lost_job (h : x.Kept) {f : Fetch} (hf : f ∈ x.taken) (hbroke : f.Broke) :
    x.server.jobs.get? f.key = none ∧ x.answering.responses.get? f.key = none := by
  have hjob : x.server.jobs.get? f.key = none := by
    cases hold : x.server.jobs.get? f.key with
    | none => rfl
    | some j => exact absurd (h.inv.fresh f.key j hold) (by rw [(h.lost f hf hbroke).2.2]; exact Nat.lt_irrefl _)
  refine ⟨hjob, ?_⟩
  have hmatched := h.inv.matched f.key
  rw [show x.answering.server.jobs.get? f.key = none from hjob] at hmatched
  cases hresponse : x.answering.responses.get? f.key with
  | none => rfl
  | some ρ =>
    rw [hresponse] at hmatched
    cases hmatched

/-- Work that breaks off is answered, and the server goes on. Only a handler that breaks off before there is any
work takes its server down, and then nothing that comes after it is taken. -/
theorem only_breaking_off_at_once_stops_a_server (limit capacity : Nat) (acts : List DocketAct) :
    ((start limit capacity).run acts).Isolated := by
  have h := (kept_start limit capacity).run acts
  generalize (start limit capacity).run acts = x at h
  exact {
    begun := h.begun
    order := h.order
    stops := h.ended
    all := fun hunbroken hcapacity hempty hwritten handlers now hrest => by
      rw [h.order hunbroken, h.inbound_of_rest hunbroken hcapacity hempty hwritten hrest, List.append_nil]
    own := h.keys.imp fun hkeys hjob => by
      obtain ⟨j, hj⟩ := Option.ne_none_iff_exists'.mp hjob
      rw [hj] at hkeys
      exact hkeys
    answered := fun f hf r ms effort hr hworks => h.inv.answered
      (h.held f hf r (f.now + ms) effort (by simp [Fetch.job?, hr, hworks, Reaction.stage?]))
    told := fun id => Answering.answerBytes_brokeOff _ id
    lost := fun f hf hbroke => ⟨(h.lost f hf hbroke).1, (h.lost f hf hbroke).2.1, h.lost_job hf hbroke⟩
    setsUp := fun f hf r handler hr hh hregistered => Fetch.broke_iff hr hh hregistered }

/-- Two handlers that break off on an empty payload, one while it sets work up, the other at work. -/
def fragile : Handlers :=
  (Table.empty.insert "s" (.ofWork "" fun _ payload => if payload = [] then none else some (0, .returned payload))).insert
    "t" (.ofFunction "" fun _ payload => (0, if payload = [] then .brokeOff else .returned payload))

/-- The first of two requests takes the server down, and the second one is never taken. With a limit of 29 bytes
a request fits, but whoever sent it is not told that the work on it broke off. -/
theorem a_set_up_that_breaks_off_stops_the_server :
    let first : Request := ⟨1, ⟨"10.0.0.1", 1⟩, "s", []⟩
    let second : Request := ⟨2, ⟨"10.0.0.1", 1⟩, "s", [7]⟩
    let third : Request := ⟨3, ⟨"10.0.0.1", 1⟩, "t", []⟩
    let receives : List DocketAct := [.channel .decodes (by simp) (by simp), .channel .forwards (by simp) (by simp)]
    let x := (start 100 4).run (.channel (.reads (frameOf 100 (.request first) ++ frameOf 100 (.request second)))
      (by simp) (by simp) :: receives ++ receives ++ [.serves fragile 0, .serves fragile 0])
    let y := (start 29 4).run (.channel (.reads (frameOf 29 (.request third))) (by simp) (by simp) :: receives ++
      [.serves fragile 0, .works 0 0, .channel .takes (by simp) (by simp), .works 0 0,
        .channel .takes (by simp) (by simp), .works 0 0])
    (x.passed = [.request first, .request second] ∧ x.taken.map (·.message) = [.request first] ∧
      x.server.serving = .stopped ∧ x.server.channel.closed = false ∧ x.answering.tape.bytes = []) ∧
      y.server.jobs.get? 0 = some ⟨third, .done⟩ ∧ y.server.channel.closed = false ∧ y.answering.tape.bytes = [] := by
  decide

end Docket

end ClusterNet.Messaging
