import ClusterNet.Proofs.Threads

/-!
# Hosts that announce their topics to each other

The threads of the hosts take turns in any order, and the network loses, repeats, delays and
reorders messages as it likes. A host ages in a run: its version and its changes only grow.
-/

namespace ClusterNet.PubSub

open ClusterNet.Membership Messaging Json

/-! ## Swarms -/

/-- What was sent, and by which thread of whom. -/
structure Sent where
  sender : MemberId
  thread : Nat
  mail : Outgoing

/-- Hosts with their threads, and all that they have ever said. -/
structure Swarm where
  sites : Table MemberId Site
  sent : List Sent

inductive SwarmAct where
  | begins (i : MemberId) (c : Call)
  | steps (i : MemberId) (k : Nat)
  /-- The group has gone on, as one of its hosts sees it. -/
  | regroups (i : MemberId) (g : Roster ServiceKey)
  /-- Something that was said arrives at a host. What was said once may arrive anywhere, at any time
  and any number of times, or never. -/
  | delivers (i : MemberId) (n : Nat) (id : UInt64) (sender : Address)

/-- How many versions of a host an act can come to. -/
def SwarmAct.cost (m : MemberId) : SwarmAct → Nat
  | .begins i c => if i = m then c.cost else 0
  | _ => 0

namespace Swarm

variable {w : Swarm} {i m : MemberId} {s s' : Site} {b : SwarmAct} {k : Nat}

/-- What a thread of a host sends when it goes on. -/
def mailOf (w : Swarm) (i : MemberId) (k : Nat) : List Sent :=
  match w.sites.get? i with
  | some s => (s.step k).2.map (⟨i, k, ·⟩)
  | none => []

def act (w : Swarm) : SwarmAct → Swarm
  | .begins i c => { w with sites := w.sites.modify i (·.begin c) }
  | .steps i k => ⟨w.sites.modify i fun s => (s.step k).1, w.sent ++ w.mailOf i k⟩
  | .regroups i g =>
    if g.localMember.id = i then { w with sites := w.sites.modify i (·.regroup g) } else w
  | .delivers i n id sender =>
    match w.sent[n]? with
    | some l =>
      { w with sites := w.sites.modify i (·.hear ⟨id, sender, l.mail.subject, l.mail.payload⟩) }
    | none => w

def run (w : Swarm) (acts : List SwarmAct) : Swarm := acts.foldl act w

theorem run_append (w : Swarm) (acts more : List SwarmAct) : w.run (acts ++ more) = (w.run acts).run more :=
  List.foldl_append

theorem run_concat (w : Swarm) (acts : List SwarmAct) (b : SwarmAct) :
    w.run (acts ++ [b]) = (w.run acts).act b := by
  rw [run_append]
  rfl

/-- What an act of a swarm comes to for one of its hosts. -/
inductive Goes (w : Swarm) (m : MemberId) (s : Site) : SwarmAct → Site → Prop where
  | stays (b : SwarmAct) : Goes w m s b s
  | begins (c : Call) : Goes w m s (.begins m c) (s.begin c)
  | steps (k : Nat) : Goes w m s (.steps m k) (s.step k).1
  | regroups (g : Roster ServiceKey) (own : g.localMember.id = m) : Goes w m s (.regroups m g) (s.regroup g)
  | hears (n : Nat) (id : UInt64) (sender : Address) (l : Sent) (hl : l ∈ w.sent) :
      Goes w m s (.delivers m n id sender) (s.hear ⟨id, sender, l.mail.subject, l.mail.payload⟩)

theorem get?_modify_eq_some {t : Table MemberId Site} {f : Site → Site}
    (hget : (t.modify i f).get? m = some s') :
    ∃ s, t.get? m = some s ∧ ((i = m ∧ s' = f s) ∨ s' = s) := by
  rw [Table.get?_modify] at hget
  split at hget
  · rename_i hm
    obtain ⟨s, hs, rfl⟩ := Option.map_eq_some_iff.mp hget
    exact ⟨s, hs, .inl ⟨hm.symm, rfl⟩⟩
  · exact ⟨s', hget, .inr rfl⟩

theorem goes_act (hget : (w.act b).sites.get? m = some s') :
    ∃ s, w.sites.get? m = some s ∧ Goes w m s b s' := by
  cases b with
  | begins i c =>
    obtain ⟨s, hs, ⟨rfl, rfl⟩ | rfl⟩ := get?_modify_eq_some hget
    · exact ⟨s, hs, .begins c⟩
    · exact ⟨s', hs, .stays _⟩
  | steps i k =>
    obtain ⟨s, hs, ⟨rfl, rfl⟩ | rfl⟩ := get?_modify_eq_some hget
    · exact ⟨s, hs, .steps k⟩
    · exact ⟨s', hs, .stays _⟩
  | regroups i g =>
    rw [act] at hget
    split at hget
    · rename_i hown
      obtain ⟨s, hs, ⟨rfl, rfl⟩ | rfl⟩ := get?_modify_eq_some hget
      · exact ⟨s, hs, .regroups g hown⟩
      · exact ⟨s', hs, .stays _⟩
    · exact ⟨s', hget, .stays _⟩
  | delivers i n id sender =>
    rw [act] at hget
    split at hget
    · rename_i l hn
      obtain ⟨s, hs, ⟨rfl, rfl⟩ | rfl⟩ := get?_modify_eq_some hget
      · exact ⟨s, hs, .hears n id sender l (List.mem_of_getElem? hn)⟩
      · exact ⟨s', hs, .stays _⟩
    · exact ⟨s', hget, .stays _⟩

theorem exists_act (b : SwarmAct) (hget : w.sites.get? m = some s) :
    ∃ s', (w.act b).sites.get? m = some s' := by
  have hmodify (i : MemberId) (f : Site → Site) : ∃ s', (w.sites.modify i f).get? m = some s' := by
    rw [Table.get?_modify, hget]
    split
    · exact ⟨f s, rfl⟩
    · exact ⟨s, rfl⟩
  cases b with
  | begins i c => exact hmodify i _
  | steps i k => exact hmodify i _
  | regroups i g =>
    rw [act]
    split
    · exact hmodify i _
    · exact ⟨s, hget⟩
  | delivers i n id sender =>
    rw [act]
    split
    · exact hmodify i _
    · exact ⟨s, hget⟩

/-- How a host stands when some acts are through. -/
def At (w : Swarm) (acts : List SwarmAct) (m : MemberId) (s : Site) : Prop :=
  (w.run acts).sites.get? m = some s

theorem At.eq {acts : List SwarmAct} (hs : w.At acts m s) (hs' : w.At acts m s') : s = s' :=
  Option.some.inj (hs.symm.trans hs')

theorem at_concat {acts : List SwarmAct} (hs : w.At (acts ++ [b]) m s') :
    ∃ s, w.At acts m s ∧ Goes (w.run acts) m s b s' := by
  rw [At, run_concat] at hs
  exact goes_act hs

theorem At.exists_later {acts : List SwarmAct} (hs : w.At acts m s) (more : List SwarmAct) :
    ∃ s', w.At (acts ++ more) m s' := by
  induction more using List.reverseRecOn with
  | nil =>
    rw [List.append_nil]
    exact ⟨s, hs⟩
  | append_singleton more b ih =>
    obtain ⟨s', hs'⟩ := ih
    obtain ⟨s'', hs''⟩ := exists_act b hs'
    refine ⟨s'', ?_⟩
    rw [← List.append_assoc, At, run_concat]
    exact hs''

theorem At.exists_earlier {acts more : List SwarmAct} (hs : w.At (acts ++ more) m s) :
    ∃ s', w.At acts m s' := by
  induction more using List.reverseRecOn generalizing s with
  | nil =>
    rw [List.append_nil] at hs
    exact ⟨s, hs⟩
  | append_singleton more b ih =>
    rw [← List.append_assoc] at hs
    obtain ⟨s', hs', -⟩ := at_concat hs
    exact ih hs'

/-! ## What was sent -/

/-- A thread has sent something in its last step. -/
def JustSent (w : Swarm) (b : SwarmAct) (l : Sent) : Prop :=
  ∃ s op rest, b = .steps l.sender l.thread ∧ w.sites.get? l.sender = some s ∧
    s.threads[l.thread]? = some (op :: rest) ∧ l.mail ∈ s.mail op

theorem justSent_mailOf {l : Sent} (hl : l ∈ w.mailOf i k) : w.JustSent (.steps i k) l := by
  unfold mailOf at hl
  split at hl
  · rename_i s hs
    obtain ⟨o, ho, rfl⟩ := List.mem_map.mp hl
    rcases s.step_cases k with ⟨op, rest, hk⟩ | heq
    · rw [Site.step_eq hk] at ho
      exact ⟨s, op, rest, rfl, hs, hk, ho⟩
    · rw [heq] at ho
      cases ho
  · cases hl

theorem sent_act (w : Swarm) (b : SwarmAct) :
    ∃ new, (w.act b).sent = w.sent ++ new ∧ ∀ l ∈ new, w.JustSent b l := by
  have hnone : ∃ new, w.sent = w.sent ++ new ∧ ∀ l ∈ new, w.JustSent b l :=
    ⟨[], (List.append_nil _).symm, fun _ hl => absurd hl List.not_mem_nil⟩
  cases b with
  | begins i c => exact hnone
  | steps i k => exact ⟨w.mailOf i k, rfl, fun _ hl => justSent_mailOf hl⟩
  | regroups i g =>
    rw [act]
    split
    · exact hnone
    · exact hnone
  | delivers i n id sender =>
    rw [act]
    split
    · exact hnone
    · exact hnone

/-! ## Who is who -/

/-- Nothing has been said yet, nothing goes on, and nobody knows of anyone. -/
structure Fresh (w : Swarm) : Prop where
  sent : w.sent = []
  localId : ∀ i s, w.sites.get? i = some s → s.host.view.localId = i
  topics : ∀ i s, w.sites.get? i = some s → s.host.current.topics = .empty
  records : ∀ i s, w.sites.get? i = some s → s.host.current.records = .empty
  threads : ∀ i s, w.sites.get? i = some s → s.threads = []

/-- A host is who its key says, and its tables are in order. -/
structure Sound (i : MemberId) (s : Site) : Prop where
  localId : s.host.view.localId = i
  occupied : s.host.current.topics.Occupied
  distinct : s.host.current.records.Distinct

theorem distinct_hear {s : Service} (hs : s.records.Distinct) (id : MemberId) (a : Announcement) :
    (s.hear id a).records.Distinct := by
  unfold Service.hear
  split
  · exact hs
  · exact Service.distinct_adopt a hs

theorem payload_of_justSent {l : Sent} (hl : w.JustSent b l)
    (hw : ∀ s, w.sites.get? l.sender = some s → s.host.view.localId = l.sender) :
    ∃ targets v found s rest, w.sites.get? l.sender = some s ∧
      s.threads[l.thread]? = some (.reads targets v [] found :: rest) ∧
      b = .steps l.sender l.thread ∧ l.mail.subject = announcementSubject ∧
      l.mail.payload = Form.bytes (⟨l.sender, v, .ofList found⟩ : Announcement) := by
  obtain ⟨s, op, rest, hb, hs, hk, hmail⟩ := hl
  obtain ⟨targets, v, found, rfl, hsubject, hpayload⟩ := Site.mem_mail hmail
  rw [hw s hs] at hpayload
  exact ⟨targets, v, found, s, rest, hs, hk, hb, hsubject, hpayload⟩

theorem Sound.goes (hs : Sound m s) (hsent : ∀ l ∈ w.sent, ∃ a : Announcement, l.mail.payload = Form.bytes a)
    (hgoes : Goes w m s b s') : Sound m s' := by
  cases hgoes with
  | stays => exact hs
  | begins c => exact ⟨hs.localId, hs.occupied, hs.distinct⟩
  | steps k =>
    rcases s.step_cases k with ⟨op, rest, hk⟩ | heq
    · rw [Site.step_eq hk]
      refine ⟨?_, Site.occupied_apply hs.occupied op, (Site.forgets_apply s.host op).distinct hs.distinct⟩
      exact (Site.localId_apply s.host op).trans hs.localId
    · rw [heq]
      exact hs
  | regroups g own => exact ⟨own, hs.occupied, hs.distinct⟩
  | hears n id sender l hl =>
    refine ⟨?_, Host.occupied_act hs.occupied (.receives _), ?_⟩
    · exact (Host.localId_receive s.host _).trans hs.localId
    · obtain ⟨a, ha⟩ := hsent l hl
      rcases Host.records_receive (h := s.host) (r := ⟨id, sender, l.mail.subject, l.mail.payload⟩) ha
        with heq | heq
      · rw [Site.hear, heq]
        exact hs.distinct
      · rw [Site.hear, heq]
        exact distinct_hear hs.distinct _ a

theorem Fresh.sound_and_announced (hw : w.Fresh) (acts : List SwarmAct) :
    (∀ m s, w.At acts m s → Sound m s) ∧
      ∀ l ∈ (w.run acts).sent, ∃ a : Announcement, l.mail.payload = Form.bytes a := by
  induction acts using List.reverseRecOn with
  | nil =>
    refine ⟨?_, ?_⟩
    · intro m s hs
      refine ⟨hw.localId m s hs, ?_, ?_⟩
      · rw [hw.topics m s hs]
        exact Topics.occupied_empty
      · rw [hw.records m s hs]
        exact Table.distinct_empty
    · intro l hl
      change l ∈ w.sent at hl
      rw [hw.sent] at hl
      cases hl
  | append_singleton acts b ih =>
    obtain ⟨hsound, hsent⟩ := ih
    refine ⟨?_, ?_⟩
    · intro m s' hs'
      obtain ⟨s, hs, hgoes⟩ := at_concat hs'
      exact (hsound m s hs).goes hsent hgoes
    · intro l hl
      obtain ⟨new, hnew, hjust⟩ := sent_act (w.run acts) b
      rw [run_concat, hnew] at hl
      rcases List.mem_append.mp hl with hl | hl
      · exact hsent l hl
      · obtain ⟨_, v, found, _, _, _, _, _, _, hpayload⟩ :=
          payload_of_justSent (hjust l hl) fun s hs => (hsound _ s hs).localId
        exact ⟨_, hpayload⟩

theorem Fresh.sound (hw : w.Fresh) {acts : List SwarmAct} (hs : w.At acts m s) : Sound m s :=
  (hw.sound_and_announced acts).1 m s hs

/-! ## Versions -/

def callsOf (m : MemberId) (acts : List SwarmAct) : Nat := (acts.map (·.cost m)).sum

theorem callsOf_append (m : MemberId) (acts more : List SwarmAct) :
    callsOf m (acts ++ more) = callsOf m acts + callsOf m more := by
  rw [callsOf, List.map_append, List.sum_append]
  rfl

/-- No version of a host comes to its end in a run. -/
def Lasting (w : Swarm) (acts : List SwarmAct) : Prop :=
  ∀ m s, w.sites.get? m = some s → s.host.current.version.toNat + callsOf m acts < 2 ^ 64

theorem Sound.aged (hs : Sound m s) (hgoes : Goes w m s b s') (hlt : s.budget + callsOf m [b] < 2 ^ 64) :
    Site.Aged (callsOf m [b]) s s' := by
  cases hgoes with
  | stays => exact (Site.Aged.refl s).weaken
  | begins c =>
    have hcost : callsOf m [.begins m c] = c.cost := by
      simp [callsOf, SwarmAct.cost]
    rw [hcost]
    exact Site.aged_begin s c
  | steps k => exact (Site.aged_step hs.occupied (by omega) k).weaken
  | regroups g own => exact (Site.aged_regroup s g).weaken
  | hears n id sender l hl => exact (Site.aged_hear s _).weaken

theorem Fresh.aged_run (hw : w.Fresh) (acts more : List SwarmAct) (hs : w.At acts m s)
    (hs' : w.At (acts ++ more) m s') (hlt : s.budget + callsOf m more < 2 ^ 64) :
    Site.Aged (callsOf m more) s s' := by
  induction more using List.reverseRecOn generalizing s' with
  | nil =>
    rw [List.append_nil] at hs'
    obtain rfl := hs.eq hs'
    exact Site.Aged.refl s
  | append_singleton more b ih =>
    rw [← List.append_assoc] at hs'
    obtain ⟨s₁, hs₁, hgoes⟩ := at_concat hs'
    rw [callsOf_append] at hlt ⊢
    have haged := ih hs₁ (by omega)
    have hbudget := haged.budget
    exact haged.trans ((hw.sound hs₁).aged hgoes (by omega))

theorem Fresh.aged (hw : w.Fresh) {acts before middle after : List SwarmAct} (hlast : w.Lasting acts)
    (hacts : acts = before ++ middle ++ after) (hs : w.At before m s)
    (hs' : w.At (before ++ middle) m s') : Site.Aged (callsOf m middle) s s' := by
  have hwhole : w.At ([] ++ before) m s := hs
  obtain ⟨s₀, hs₀⟩ := hwhole.exists_earlier
  have hbound := hlast m s₀ hs₀
  rw [hacts, callsOf_append, callsOf_append] at hbound
  have hstart : s₀.budget = s₀.host.current.version.toNat := by
    rw [Site.budget, hw.threads m s₀ hs₀]
    rfl
  have hfirst := hw.aged_run [] before hs₀ hs (by omega)
  have hbudget := hfirst.budget
  exact hw.aged_run before middle hs hs' (by omega)

/-- While the changes are as many, the topics are the same. -/
theorem Fresh.names_eq (hw : w.Fresh) {acts before after before' after' : List SwarmAct}
    (hlast : w.Lasting acts) (hacts : acts = before ++ after) (hacts' : acts = before' ++ after')
    (hs : w.At before m s) (hs' : w.At before' m s') (hchanges : s'.changes = s.changes) :
    s'.host.current.topics.names = s.host.current.topics.names := by
  -- One of the two moments comes first, and the host has aged from there to the other one.
  rcases List.append_eq_append_iff.mp (hacts.symm.trans hacts') with
    ⟨middle, rfl, rfl⟩ | ⟨middle, rfl, rfl⟩
  · have hsplit : acts = before ++ middle ++ after' := by
      rw [hacts, List.append_assoc]
    exact (hw.aged hlast hsplit hs hs').same hchanges
  · have hsplit : acts = before' ++ middle ++ after := by
      rw [hacts', List.append_assoc]
    exact ((hw.aged hlast hsplit hs' hs).same hchanges.symm).symm

end Swarm

end ClusterNet.PubSub
