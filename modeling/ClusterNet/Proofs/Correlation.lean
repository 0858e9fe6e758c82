import ClusterNet.Proofs.Interference

/-!
# Replies reach their calls

The peer may send what it likes: replies with any id, twice, too late or to nobody. Still a call
is over at most once, a reply ends only a call with its own id, and it is the first one with this
id since the call began.
-/

namespace ClusterNet.Messaging

open Wire

/-- A client and the replies that it has taken, each with the client it came to. -/
structure Watched where
  client : Client
  heard : List (Reply × Client)

/-- How a message that is to be written may fail. -/
def WriteFailure (e : Failure) : Prop := e = .connectionClosed ∨ e = .io ∨ ∃ fault, e = .codec fault

/-- The outcome is what the first reply with the id means, of those that were taken since the
call began, and the call was listed when it was taken. -/
def FirstReply (heard : List (Reply × Client)) (k : CallKey) (r : Request) (o : Outcome) : Prop :=
  ∃ before reply c after, heard = before ++ (reply, c) :: after ∧ reply.id = r.id ∧
    c.pending.get? r.id = some k ∧ o = outcomeOf r.subject reply ∧
    ∀ e ∈ before, e.1.id = r.id → e.2.call? k = none

theorem FirstReply.append {heard : List (Reply × Client)} {k : CallKey} {r : Request} {o : Outcome}
    (h : FirstReply heard k r o) (more : List (Reply × Client)) : FirstReply (heard ++ more) k r o := by
  obtain ⟨before, reply, c, after, rfl, hrest⟩ := h
  exact ⟨before, reply, c, after ++ more, by simp, hrest⟩

namespace Watched

variable {w : Watched}

/-- The client of a channel that has just started. -/
def start (limit capacity : Nat) : Watched := ⟨.ofChannel (.start limit capacity), []⟩

/-- The reply that an act takes. -/
def hears (w : Watched) : ClientAct → List (Reply × Client)
  | .receives =>
    match w.client.receive?, w.client.channel.receive? with
    | some _, some (.reply r, _) => [(r, w.client)]
    | _, _ => []
  | _ => []

def act (w : Watched) (a : ClientAct) : Watched := ⟨w.client.act a, w.heard ++ w.hears a⟩

def run (w : Watched) (acts : List ClientAct) : Watched := acts.foldl act w

/-- The next message is lost before the client looks at it. -/
def discard (w : Watched) : Watched :=
  { w with client := { w.client with channel := { w.client.channel with
      inbound := w.client.channel.inbound.drop 1 } } }

theorem client_run (w : Watched) (acts : List ClientAct) : (w.run acts).client = w.client.run acts := by
  induction acts generalizing w with
  | nil => rfl
  | cons a acts ih => exact ih (w.act a)

/-! ## What an act keeps -/

structure Inv (w : Watched) : Prop where
  sound : w.client.Sound
  written : ∀ {t e}, w.client.channel.outcome? t = some (.error e) → WriteFailure e
  /-- No call is lost. -/
  known : ∀ e ∈ w.heard, e.2.Keeps w.client
  /-- Whoever still waits has not been answered. -/
  unheard : ∀ {id k}, w.client.pending.get? id = some k → ∀ e ∈ w.heard, e.1.id = id → e.2.call? k = none
  justified : w.client.Justified WriteFailure (FirstReply w.heard)

theorem inv_start (limit capacity : Nat) : (start limit capacity).Inv where
  sound := Client.sound_ofChannel _
  written := by simp [start, Client.ofChannel, Channel.start, Channel.outcome?]
  known := by simp [start]
  unheard := by simp [start]
  justified := Client.justified_ofChannel _

theorem keeps_act (c : Client) (a : ClientAct) : c.Keeps (c.act a) := by
  cases a with
  | begins k r n =>
    simp only [Client.act]
    split
    · rename_i hk
      exact Client.keeps_begin (Option.isNone_iff_eq_none.mp hk) r n
    · exact Client.Keeps.refl c
  | proceeds k now =>
    simp only [Client.act]
    cases hp : c.proceed? k now with
    | none => exact Client.Keeps.refl c
    | some d => exact Client.keeps_proceed? hp
  | abandons k => exact Client.keeps_abandon c k
  | receives =>
    simp only [Client.act]
    cases hp : c.receive? with
    | none => exact Client.Keeps.refl c
    | some d => exact Client.keeps_receive? hp
  | channel m => exact Client.Keeps.refl c

theorem keeps_run (c : Client) (acts : List ClientAct) : c.Keeps (c.run acts) := by
  induction acts generalizing c with
  | nil => exact Client.Keeps.refl c
  | cons a acts ih => exact (keeps_act c a).trans (ih (c.act a))

theorem writeFailure_of_accounts {c d : Channel} (h : c.Accounts d)
    (hc : ∀ {t e}, c.outcome? t = some (.error e) → WriteFailure e) {t : Ticket} {e : Failure}
    (ht : d.outcome? t = some (.error e)) : WriteFailure e := by
  rcases h ht with h | h | h | ⟨-, -, fault, -, h⟩
  · exact hc h
  · exact .inl h
  · exact .inr (.inl h)
  · exact .inr (.inr ⟨fault, h⟩)

theorem Inv.quiet {d : Client} (h : w.Inv) (hsound : d.Sound) (hkeeps : w.client.Keeps d)
    (haccounts : w.client.channel.Accounts d.channel)
    (hpending : ∀ {id k}, d.pending.get? id = some k →
      w.client.pending.get? id = some k ∨ w.client.call? k = none)
    (hjustified : d.Justified WriteFailure (FirstReply w.heard)) : Inv ⟨d, w.heard⟩ where
  sound := hsound
  written := writeFailure_of_accounts haccounts h.written
  known e he := (h.known e he).trans hkeeps
  unheard hid e he heid := by
    rcases hpending hid with hid | hk
    · exact h.unheard hid e he heid
    · refine Option.eq_none_iff_forall_ne_some.mpr fun call hcall => ?_
      obtain ⟨call', hcall', -⟩ := h.known e he hcall
      rw [hk] at hcall'
      simp at hcall'
  justified := hjustified

theorem Inv.begin (h : w.Inv) {k : CallKey} (hk : w.client.call? k = none) (r : Request) (n : Nat) :
    Inv ⟨w.client.begin k r n, w.heard⟩ := by
  refine h.quiet (h.sound.begin hk r n) (Client.keeps_begin hk r n) (Client.accounts_begin _ k r n)
    (fun {id l} hid => ?_) (h.justified.begin k r n)
  rw [Client.pending_begin] at hid
  split at hid
  · split at hid
    · simp at hid
    · rw [← Option.some.inj hid]
      exact .inr hk
  · exact .inl hid

theorem Inv.proceed? (h : w.Inv) {d : Client} {k : CallKey} {now : Nat}
    (hd : w.client.proceed? k now = some d) : Inv ⟨d, w.heard⟩ :=
  h.quiet (h.sound.proceed? hd) (Client.keeps_proceed? hd) (Client.accounts_proceed? hd)
    (fun hid => .inl (Client.pending_of_proceed? hd hid))
    (h.justified.proceed? (fun _ _ => h.written) hd)

theorem Inv.abandon (h : w.Inv) (k : CallKey) : Inv ⟨w.client.abandon k, w.heard⟩ :=
  h.quiet (h.sound.abandon k) (Client.keeps_abandon _ k) (Client.accounts_abandon _ k)
    (fun hid => .inl (Client.pending_of_abandon hid)) (h.justified.abandon k)

theorem Inv.setChannel (h : w.Inv) {channel : Channel} (haccounts : w.client.channel.Accounts channel) :
    Inv ⟨{ w.client with channel }, w.heard⟩ :=
  h.quiet (h.sound.setChannel channel) (Client.Keeps.refl w.client) haccounts .inl h.justified

theorem Inv.deliver (h : w.Inv) (r : Reply) {channel : Channel}
    (haccounts : w.client.channel.Accounts channel) :
    Inv ⟨{ w.client with channel }.deliver r, w.heard ++ [(r, w.client)]⟩ := by
  refine ⟨(h.sound.setChannel channel).deliver r, ?_, ?_, ?_, ?_⟩
  · rw [Client.channel_deliver]
    exact writeFailure_of_accounts haccounts h.written
  · intro e he
    have hkeeps : w.client.Keeps ({ w.client with channel }.deliver r) :=
      Client.keeps_deliver { w.client with channel } r
    rcases List.mem_append.mp he with he | he
    · exact (h.known e he).trans hkeeps
    · rw [List.mem_singleton.mp he]
      exact hkeeps
  · intro id k hid e he heid
    rw [Client.pending_deliver] at hid
    split at hid
    · simp at hid
    · rename_i hne
      rcases List.mem_append.mp he with he | he
      · exact h.unheard hid e he heid
      · rw [List.mem_singleton.mp he] at heid
        exact absurd heid.symm hne
  · have hmono : w.client.Justified WriteFailure (FirstReply (w.heard ++ [(r, w.client)])) :=
      h.justified.mono fun _ _ _ hfirst => hfirst.append _
    refine Client.Justified.deliver (c := { w.client with channel }) hmono fun {k call} hk hcall => ?_
    have hid := h.sound.id_eq hk hcall
    refine ⟨w.heard, r, w.client, [], rfl, hid.symm, by rwa [hid], rfl, fun e he heid => ?_⟩
    exact h.unheard hk e he (heid.trans hid)

theorem Inv.act (h : w.Inv) (a : ClientAct) : (w.act a).Inv := by
  cases a with
  | begins k r n =>
    simp only [Watched.act, hears, List.append_nil, Client.act]
    split
    · rename_i hk
      exact h.begin (Option.isNone_iff_eq_none.mp hk) r n
    · exact h
  | proceeds k now =>
    simp only [Watched.act, hears, List.append_nil, Client.act]
    cases hp : w.client.proceed? k now with
    | none => exact h
    | some d => exact h.proceed? hp
  | abandons k =>
    simp only [Watched.act, hears, List.append_nil, Client.act]
    exact h.abandon k
  | receives =>
    simp only [Watched.act, hears, Client.act]
    cases hp : w.client.receive? with
    | none =>
      simp only [List.append_nil]
      exact h
    | some d =>
      obtain ⟨-, ⟨r, channel, hr, rfl⟩ | ⟨r, channel, hr, rfl⟩ | ⟨hnone, -, rfl⟩⟩ :=
        Client.receive?_eq_some hp
      · simp only [hr, Option.getD_some]
        exact h.deliver r (Channel.accounts_of_settled (Channel.settled_receive? hr))
      · simp only [hr, List.append_nil, Option.getD_some]
        exact h.setChannel (Channel.accounts_of_settled (Channel.settled_receive? hr))
      · simp only [hnone, List.append_nil, Option.getD_some]
        exact h.quiet (Client.sound_cutOff _) (Client.keeps_cutOff _) (Channel.accounts_of_settled rfl)
          (by simp [Client.cutOff]) h.justified.cutOff
  | channel m =>
    simp only [Watched.act, hears, List.append_nil, Client.act]
    apply h.setChannel
    cases hm : w.client.channel.move? m with
    | none => exact Channel.accounts_of_settled rfl
    | some channel => exact Channel.accounts_move? hm

theorem Inv.run (h : w.Inv) (acts : List ClientAct) : (w.run acts).Inv := by
  induction acts generalizing w with
  | nil => exact h
  | cons a acts ih => exact ih (h.act a)

/-! ## What is lost on others -/

theorem discard_alike (h : w.Inv) {m : Message} {rest : List Message}
    (hin : w.client.channel.inbound = m :: rest) (hreceiving : w.client.receiving = true) :
    Client.Alike m.id w.discard.client (w.act .receives).client := by
  cases m with
  | request r =>
    have hact : (w.act .receives).client = w.discard.client := by
      simp [Watched.act, Client.act, Client.receive?, Channel.receive?, discard, hin, hreceiving]
    rw [hact]
    exact .refl _ _
  | reply r =>
    have hact : (w.act .receives).client = w.discard.client.deliver r := by
      simp [Watched.act, Client.act, Client.receive?, Channel.receive?, discard, hin, hreceiving]
    rw [hact]
    exact .deliver_left (h.sound.setChannel _) rfl

theorem outcomeOf_ne {call : Call} {o : Outcome} (h : call.Unanswered WriteFailure o) (subject : String)
    (r : Reply) : o ≠ outcomeOf subject r := by
  unfold outcomeOf
  rcases h with rfl | rfl | ⟨e, rfl | rfl | ⟨fault, rfl⟩, rfl⟩ <;> split <;> simp

/-- Once a call is over, nothing changes its outcome. The outcome is one that needs no reply, or
what the first reply with the call's id means for its own subject, taken while the call was
listed. To take a message, rather than to lose it, makes no difference to calls with other ids,
neither at once nor later. -/
theorem replies_reach_their_calls (limit capacity : Nat) (acts : List ClientAct) :
    (∀ more k call, ((start limit capacity).run acts).client.call? k = some call →
      ∃ call', (((start limit capacity).run acts).run more).client.call? k = some call' ∧
        call'.request = call.request ∧ (call.isOpen = false → call'.outcome? = call.outcome?)) ∧
    (∀ k call o, ((start limit capacity).run acts).client.call? k = some call → call.outcome? = some o →
      (call.Unanswered WriteFailure o ∧ ∀ subject r, o ≠ outcomeOf subject r) ∨
        FirstReply ((start limit capacity).run acts).heard k call.request o) ∧
    (∀ m rest, ((start limit capacity).run acts).client.channel.inbound = m :: rest →
      ((start limit capacity).run acts).client.receiving = true →
        ∀ k call, call.request.id ≠ m.id →
          (((start limit capacity).run acts).client.call? k = some call →
            (((start limit capacity).run acts).act .receives).client.call? k = some call) ∧
          ∀ more, ((((start limit capacity).run acts).act .receives).run more).client.call? k = some call ↔
            (((start limit capacity).run acts).discard.run more).client.call? k = some call) := by
  have hinv := (inv_start limit capacity).run acts
  generalize (start limit capacity).run acts = w at hinv
  refine ⟨fun more k call hk => ?_, fun k call o hk ho => ?_, fun m rest hin hreceiving k call hid => ?_⟩
  · obtain ⟨call', hk', hrequest, -, hprogress⟩ := keeps_run w.client more hk
    refine ⟨call', by rwa [client_run], hrequest, fun hopen => ?_⟩
    rw [Call.outcome?, Call.outcome?, hprogress hopen]
  · have hover := Call.progress_of_outcome? ho
    exact ((hinv.justified hk).2 o hover).imp (fun h => ⟨h, outcomeOf_ne h⟩) id
  · have halike := discard_alike hinv hin hreceiving
    have hdiscard : w.discard.client.Sound := hinv.sound.setChannel _
    refine ⟨fun hk => halike.call?_eq hk hid, fun more => ?_⟩
    rw [client_run, client_run]
    have hrun := halike.run hdiscard (hinv.act .receives).sound more
    exact ⟨fun hk => hrun.symm.call?_eq hk hid, fun hk => hrun.call?_eq hk hid⟩

theorem replies_reach_their_calls_twice :
    FirstReply ((start 100 4).run [.begins 0 ⟨5, ⟨"::1", 80⟩, "a", []⟩ 9, .channel .takes,
        .channel (.writes 100), .channel .flushes, .proceeds 0 0, .channel (.arrives (.reply ⟨6, .ok, []⟩)),
        .channel (.arrives (.reply ⟨5, .ok, [1]⟩)), .channel (.arrives (.reply ⟨5, .ok, [2]⟩)),
        .receives, .receives, .receives, .proceeds 0 3]).heard 0 ⟨5, ⟨"::1", 80⟩, "a", []⟩ (.ok [1]) ∧
      ((((start 100 4).run [.begins 0 ⟨5, ⟨"::1", 80⟩, "a", []⟩ 9,
        .channel (.arrives (.reply ⟨6, .ok, []⟩))]).act .receives).client.call? 0 =
          some ⟨⟨5, ⟨"::1", 80⟩, "a", []⟩, 9, .empty, .sending 0⟩) := by
  constructor
  · rcases (replies_reach_their_calls 100 4 [.begins 0 ⟨5, ⟨"::1", 80⟩, "a", []⟩ 9, .channel .takes,
        .channel (.writes 100), .channel .flushes, .proceeds 0 0, .channel (.arrives (.reply ⟨6, .ok, []⟩)),
        .channel (.arrives (.reply ⟨5, .ok, [1]⟩)), .channel (.arrives (.reply ⟨5, .ok, [2]⟩)),
        .receives, .receives, .receives, .proceeds 0 3]).2.1 0
        ⟨⟨5, ⟨"::1", 80⟩, "a", []⟩, 9, .filled (.ok [1]), .over (.ok [1])⟩ (.ok [1]) rfl rfl with h | h
    · exact absurd rfl (h.2 "a" ⟨5, .ok, [1]⟩)
    · exact h
  · exact ((replies_reach_their_calls 100 4 [.begins 0 ⟨5, ⟨"::1", 80⟩, "a", []⟩ 9,
      .channel (.arrives (.reply ⟨6, .ok, []⟩))]).2.2 (.reply ⟨6, .ok, []⟩) [] rfl rfl 0
        ⟨⟨5, ⟨"::1", 80⟩, "a", []⟩, 9, .empty, .sending 0⟩ (by decide)).1 rfl

end Watched

end ClusterNet.Messaging
