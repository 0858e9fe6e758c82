import ClusterNet.Proofs.Reported

/-!
# What the group is told

A protocol that has joined tells of the local member first. Then it tells once of each id that
becomes a member's and of each member that goes, and of nothing else. So whoever hears all of it
knows the ids of the members.
-/

namespace ClusterNet.Membership

variable {L : Type}

/-- What has changed, and the member as it was then. -/
structure Notice where
  change : Change
  key : MemberKey
  member : Member

def Notice.deliveries (n : Notice) (ls : List L) : List (Delivery L) :=
  ls.map fun l => ⟨l, .member n.change n.member⟩

namespace Protocol

variable {p : Protocol L} {m : Member}

def notice (p : Protocol L) (e : MemberEvent) : Notice := ⟨e.change, e.member, p.object e.member⟩

theorem notice_eq {k : MemberKey} {x : Member} (h : p.objects.get? k = some x) (change : Change) :
    p.notice ⟨change, k⟩ = ⟨change, k, x⟩ := by
  rw [notice, object, h, Option.getD_some]

/-- What the group is told when the protocol follows an event. -/
def notices (p : Protocol L) (e : DiscoveryEvent) : List Notice :=
  ((p.follow e).1.map (p.follow e).2.notice).toList

theorem frame_follow (p : Protocol L) (e : DiscoveryEvent) : (p.follow e).2.listeners = p.listeners ∧
    (p.follow e).2.subscription = p.subscription ∧ (p.follow e).2.joined = p.joined := by
  unfold follow
  dsimp only
  split
  · exact ⟨rfl, rfl, rfl⟩
  · split
    · exact ⟨rfl, rfl, rfl⟩
    · split <;> exact ⟨rfl, rfl, rfl⟩

theorem frame_enrol (p : Protocol L) (nodes : List Node) :
    (p.enrol nodes).listeners = p.listeners ∧ (p.enrol nodes).joined = p.joined := by
  have hfold : (nodes.foldl (fun p n => (p.discover n).2) p).listeners = p.listeners ∧
      (nodes.foldl (fun p n => (p.discover n).2) p).joined = p.joined := by
    induction nodes generalizing p with
    | nil => exact ⟨rfl, rfl⟩
    | cons n nodes ih => exact ih (p.discover n).2
  exact hfold

end Protocol

namespace Roster

variable {g : Roster L} {m : Member}

/-- Everyone who hears what the protocol tells, the listeners of the service too. -/
def audience (g : Roster L) : List L :=
  g.protocol.listeners.snapshot.flatMap fun
    | .guest l => [l]
    | .service => g.listeners.snapshot

theorem foldl_log {S A D : Type} (step : S → A → S) (state : List D → S) (told : A → List D)
    (hstep : ∀ log a, step (state log) a = state ((told a).reverse ++ log)) (as : List A) (log : List D) :
    as.foldl step (state log) = state ((as.flatMap told).reverse ++ log) := by
  induction as generalizing log with
  | nil => rfl
  | cons a as ih =>
    rw [List.foldl_cons, hstep, ih, List.flatMap_cons, List.reverse_append, List.append_assoc]

theorem audience_enrol (g : Roster L) (nodes : List Node) : (g.enrol nodes).audience = g.audience := by
  rw [audience, enrol, (Protocol.frame_enrol _ nodes).1, audience]

theorem foldl_tell (g : Roster L) (news : News) (ls : List L) :
    ls.foldl (·.tell news) g = { g with log := (ls.map fun l => ⟨l, news⟩).reverse ++ g.log } := by
  have hfold := foldl_log (fun (g : Roster L) l => g.tell news l) (fun log => { g with log })
    (fun l => [⟨l, news⟩]) (fun _ _ => rfl) ls g.log
  rwa [← List.map_eq_flatMap] at hfold

theorem announce_eq (g : Roster L) (e : MemberEvent) : g.announce e =
    { g with log := ((g.protocol.notice e).deliveries g.audience).reverse ++ g.log } := by
  have hfold := foldl_log (fun (g : Roster L) l =>
      let news := News.member e.change (g.protocol.object e.member)
      match l with
      | GroupListener.guest l => g.tell news l
      | GroupListener.service => g.listeners.snapshot.foldl (·.tell news) g)
    (fun log => { g with log })
    (fun l => (g.protocol.notice e).deliveries (match l with
      | .guest l => [l]
      | .service => g.listeners.snapshot)) (fun log l => ?_) g.protocol.listeners.snapshot g.log
  · refine hfold.trans ?_
    rw [audience, Notice.deliveries, List.map_flatMap]
    rfl
  · cases l with
    | guest l => rfl
    | service => exact foldl_tell { g with log } _ _

theorem hear_eq (g : Roster L) (e : DiscoveryEvent) : g.hear e = { g with
    protocol := (g.protocol.follow e).2
    log := ((g.protocol.notices e).flatMap (·.deliveries g.audience)).reverse ++ g.log } := by
  unfold hear
  have hlisteners := (g.protocol.frame_follow e).1
  cases hevent : (g.protocol.follow e).1 with
  | none => simp [hevent, Protocol.notices]
  | some event =>
    simp only [hevent, announce_eq, Protocol.notices, Option.map_some, Option.toList_some,
      List.flatMap_singleton, audience, hlisteners]

theorem joinProtocol_eq (h : g.protocol.joined = false) :
    g.joinProtocol = ((g.enrol g.discovery.provider.nodes).introduce).subscribe := by
  rw [joinProtocol, h]
  rfl

/-- Not joined, with the local member at hand. -/
structure Idle (g : Roster L) (m : Member) : Prop where
  apart : g.protocol.joined = false
  empty : g.protocol.members = .empty
  keyed : g.protocol.Keyed m

theorem idle_ofLocal (m : Member) (provider : Provider L) : (ofLocal m provider).Idle m where
  apart := rfl
  empty := rfl
  keyed := ⟨Nat.zero_lt_one, fun hk => by simp [Protocol.member?, ofLocal, Protocol.ofLocal] at hk,
    Table.distinct_empty, Table.get?_insert_self _ _ _⟩

end Roster

/-- A roster, and all that its group has been told since it joined. -/
structure Chronicle (L : Type) where
  roster : Roster L
  posted : List Notice

namespace Chronicle

/-- Joins, and tells of the local member. -/
def start (g : Roster L) : Chronicle L :=
  ⟨g.joinProtocol,
    [(g.enrol g.discovery.provider.nodes).protocol.notice ⟨.added, Protocol.localKey⟩]⟩

def hear (c : Chronicle L) (e : DiscoveryEvent) : Chronicle L :=
  ⟨c.roster.hear e, c.posted ++ c.roster.protocol.notices e⟩

def run (g : Roster L) (es : List DiscoveryEvent) : Chronicle L := es.foldl hear (start g)

theorem run_concat (g : Roster L) (es : List DiscoveryEvent) (e : DiscoveryEvent) :
    run g (es ++ [e]) = (run g es).hear e := by
  simp [run]

theorem roster_run (g : Roster L) (es : List DiscoveryEvent) :
    (run g es).roster = es.foldl Roster.hear g.joinProtocol := by
  induction es using List.reverseRecOn with
  | nil => rfl
  | append_singleton es e ih => rw [run_concat, List.foldl_append, ← ih]; rfl

variable {g : Roster L} {m : Member} {c : Chronicle L}

theorem roster_start (h : g.Idle m) : (start g).roster = ({ g.enrol g.discovery.provider.nodes with
    log := ((start g).posted.flatMap fun n => n.deliveries g.audience).reverse ++ g.log } :
      Roster L).subscribe := by
  rw [start, Roster.joinProtocol_eq h.apart, Roster.introduce, Roster.announce_eq, Roster.audience_enrol,
    List.flatMap_singleton]
  rfl

theorem posted_start (h : g.Idle m) : (start g).posted = [⟨.added, Protocol.localKey, m⟩] := by
  have henrol := Protocol.mirrors_enrol h.keyed h.empty g.discovery.provider.nodes
  exact congrArg (fun n => [n]) (Protocol.notice_eq henrol.keyed.own .added)

theorem mirrors_run (h : g.Idle m) (es : List DiscoveryEvent) :
    (run g es).roster.protocol.Mirrors m (arrivals g.discovery.provider.nodes ++ es) := by
  induction es using List.reverseRecOn with
  | nil =>
    rw [List.append_nil]
    have henrol := Protocol.mirrors_enrol h.keyed h.empty g.discovery.provider.nodes
    refine henrol.of_eq ?_ ?_ ?_ <;> rw [run, List.foldl_nil, roster_start h] <;> rfl
  | append_singleton es e ih =>
    rw [run_concat, ← List.append_assoc, hear, Roster.hear_eq]
    exact ih.follow e

/-! ## Each event -/

/-- What the group is told of an event, by who had its id before. -/
inductive Tells (m : Member) (c c' : Chronicle L) : DiscoveryEvent → Option Node → Prop where
  | own (e : DiscoveryEvent) (o : Option Node) (own : e.node.id.retag = m.id)
      (posted : c'.posted = c.posted) : Tells m c c' e o
  /-- A new object is a member now. -/
  | comes (n : Node) (k : MemberKey) (other : n.id.retag ≠ m.id)
      (becomes : c'.roster.protocol.member? n.id.retag = some k)
      (posted : c'.posted = c.posted ++ [⟨.added, k, (Member.ofNode n).marked true⟩]) :
      Tells m c c' ⟨.joined, n⟩ none
  | again (n n' : Node) (other : n.id.retag ≠ m.id) (posted : c'.posted = c.posted) :
      Tells m c c' ⟨.joined, n⟩ (some n')
  /-- The object that was a member looks dead now. -/
  | goes (n n' : Node) (k : MemberKey) (other : n.id.retag ≠ m.id)
      (was : c.roster.protocol.member? n.id.retag = some k)
      (object : c'.roster.protocol.objects.get? k = some ((Member.ofNode n').marked false))
      (posted : c'.posted = c.posted ++ [⟨.removed, k, (Member.ofNode n').marked false⟩]) :
      Tells m c c' ⟨.left, n⟩ (some n')
  | unknown (n : Node) (other : n.id.retag ≠ m.id) (posted : c'.posted = c.posted) :
      Tells m c c' ⟨.left, n⟩ none

theorem tells_hear {history : List DiscoveryEvent} (h : c.roster.protocol.Mirrors m history)
    (e : DiscoveryEvent) : Tells m c (c.hear e) e (reported? history e.node.id.retag) := by
  obtain ⟨presence, n⟩ := e
  have hprotocol : (c.hear ⟨presence, n⟩).roster.protocol = (c.roster.protocol.follow ⟨presence, n⟩).2 := by
    rw [hear, Roster.hear_eq]
  have hposted : (c.hear ⟨presence, n⟩).posted = c.posted ++ c.roster.protocol.notices ⟨presence, n⟩ := rfl
  by_cases hn : n.id.retag = m.id
  · rw [Protocol.notices, h.keyed.follow_own hn, Option.map_none, Option.toList_none, List.append_nil]
      at hposted
    exact .own _ _ hn hposted
  have hshown := h.others hn
  cases presence with
  | joined =>
    rw [h.keyed.follow_joined hn] at hprotocol
    rw [Protocol.notices, h.keyed.follow_joined hn] at hposted
    cases hr : reported? history n.id.retag with
    | none =>
      rw [hr] at hshown
      have hnew : c.roster.protocol.members.contains n.id.retag = false := by
        rw [Table.contains, ← Protocol.member?, show c.roster.protocol.member? n.id.retag = none from hshown]
        rfl
      rw [hnew, if_neg Bool.false_ne_true, Option.map_some, Option.toList_some,
        Protocol.notice_eq (Table.get?_insert_self _ _ _)] at hposted
      refine .comes n c.roster.protocol.nextKey hn ?_ hposted
      rw [hprotocol]
      exact (Protocol.member?_discover _ n _).trans (if_pos rfl)
    | some n' =>
      rw [hr] at hshown
      obtain ⟨k, hk, -⟩ := hshown
      have hold : c.roster.protocol.members.contains n.id.retag = true := by
        rw [Table.contains, ← Protocol.member?, hk, Option.isSome_some]
      rw [hold, if_pos rfl, Option.map_none, Option.toList_none, List.append_nil] at hposted
      exact .again n n' hn hposted
  | left =>
    rw [h.keyed.follow_left hn] at hprotocol
    rw [Protocol.notices, h.keyed.follow_left hn] at hposted
    cases hr : reported? history n.id.retag with
    | none =>
      rw [hr] at hshown
      rw [show c.roster.protocol.member? n.id.retag = none from hshown] at hposted
      exact .unknown n hn (hposted.trans (List.append_nil _))
    | some n' =>
      rw [hr] at hshown
      obtain ⟨k, hk, hobject⟩ := hshown
      have hgone : (c.roster.protocol.expel n.id.retag k).objects.get? k =
          some ((Member.ofNode n').marked false) := by
        rw [Protocol.object_expel, if_pos rfl, hobject]
        rfl
      rw [hk] at hposted hprotocol
      refine .goes n n' k hn hk (by rw [hprotocol]; exact hgone) ?_
      rw [hposted, Option.map_some, Option.toList_some, Protocol.notice_eq hgone]

/-! ## All events -/

theorem audience_run (h : g.Idle m) (es : List DiscoveryEvent) : (run g es).roster.audience = g.audience := by
  induction es using List.reverseRecOn with
  | nil =>
    rw [run, List.foldl_nil, roster_start h]
    exact Roster.audience_enrol g _
  | append_singleton es e ih =>
    rw [run_concat, ← ih, hear, Roster.hear_eq, Roster.audience, (Protocol.frame_follow _ e).1]
    rfl

theorem log_run (h : g.Idle m) (es : List DiscoveryEvent) : (run g es).roster.log =
    ((run g es).posted.flatMap (·.deliveries g.audience)).reverse ++ g.log := by
  induction es using List.reverseRecOn with
  | nil =>
    rw [run, List.foldl_nil, roster_start h]
    rfl
  | append_singleton es e ih =>
    rw [run_concat, hear, Roster.hear_eq, audience_run h, List.flatMap_append, List.reverse_append,
      List.append_assoc, ← ih]

/-- The ids that someone knows who knew these at first and hears all notices. -/
def replay (ids : List MemberId) (posted : List Notice) : List MemberId :=
  posted.foldl (fun ids n =>
    match n.change with
    | .added => n.member.id :: ids
    | .removed => ids.filter (· ≠ n.member.id)
    | _ => ids) ids

theorem replay_concat (ids : List MemberId) (posted : List Notice) (n : Notice) :
    replay ids (posted ++ [n]) = match n.change with
      | .added => n.member.id :: replay ids posted
      | .removed => (replay ids posted).filter (· ≠ n.member.id)
      | _ => replay ids posted := by
  rw [replay, List.foldl_append]
  rfl

theorem mem_replay (h : g.Idle m) (es : List DiscoveryEvent) (id : MemberId) :
    id ∈ replay (g.discovery.provider.nodes.map fun n => n.id.retag) (run g es).posted ↔
      id = m.id ∨ (reported? (arrivals g.discovery.provider.nodes ++ es) id).isSome := by
  induction es using List.reverseRecOn with
  | nil =>
    rw [List.append_nil, isSome_reported?_arrivals, run, List.foldl_nil, posted_start h]
    exact List.mem_cons
  | append_singleton es e ih =>
    have htells := tells_hear (mirrors_run h es) e
    rw [run_concat, ← List.append_assoc, reported?_concat]
    generalize hr : reported? (arrivals g.discovery.provider.nodes ++ es) e.node.id.retag = o at htells
    cases htells with
    | own _ _ own posted =>
      rw [posted, ih]
      split
      · rename_i heq
        simp [← heq, own]
      · rfl
    | comes n k other becomes posted =>
      rw [posted, replay_concat]
      by_cases heq : n.id.retag = id
      · subst heq
        simp [DiscoveryEvent.present?, Member.ofNode, Member.bare, Member.marked]
      · rw [if_neg heq, ← ih]
        exact List.mem_cons.trans (or_iff_right (Ne.symm heq))
    | again n n' other posted =>
      rw [posted, ih]
      split
      · rename_i heq
        subst heq
        simp [hr, DiscoveryEvent.present?]
      · rfl
    | goes n n' k other was object posted =>
      rw [posted, replay_concat]
      have hid : ((Member.ofNode n').marked false).id = n.id.retag := id_of_reported? hr
      by_cases heq : n.id.retag = id
      · subst heq
        simp [hid, other, DiscoveryEvent.present?]
      · rw [if_neg heq, ← ih]
        simp [hid, Ne.symm heq]
    | unknown n other posted =>
      rw [posted, ih]
      split
      · rename_i heq
        subst heq
        simp [hr, DiscoveryEvent.present?]
      · rfl

theorem joined_run (h : g.Idle m) (es : List DiscoveryEvent) :
    (run g es).roster.protocol.joined = true := by
  induction es using List.reverseRecOn with
  | nil =>
    rw [run, List.foldl_nil, roster_start h]
    rfl
  | append_singleton es e ih =>
    rw [run_concat, hear, Roster.hear_eq]
    exact (Protocol.frame_follow _ e).2.2.trans ih

theorem idle_leave (h : g.Idle m) (es : List DiscoveryEvent) : (run g es).roster.leaveProtocol.Idle m := by
  rw [Roster.leaveProtocol, if_pos (joined_run h es)]
  have hkeyed := (mirrors_run h es).keyed
  exact ⟨rfl, rfl, hkeyed.fresh, fun hk => by simp [Protocol.member?, Roster.disband] at hk,
    Table.distinct_empty, hkeyed.own⟩

/-- What is true of a roster that has joined and has heard these events since. -/
structure Tracks (g : Roster L) (m : Member) (es : List DiscoveryEvent) (c : Chronicle L) : Prop where
  roster : c.roster = es.foldl Roster.hear g.joinProtocol
  distinct : c.roster.protocol.members.Distinct
  /-- The local member is there, as the object that it always was. -/
  self : c.roster.protocol.member? m.id = some Protocol.localKey ∧
    c.roster.protocol.objects.get? Protocol.localKey = some m
  others : ∀ {id}, id ≠ m.id →
    c.roster.protocol.Shows id (reported? (arrivals g.discovery.provider.nodes ++ es) id)
  next : ∀ e, Tells m c (c.hear e) e
    (reported? (arrivals g.discovery.provider.nodes ++ es) e.node.id.retag)
  told : c.roster.log = (c.posted.flatMap (·.deliveries g.audience)).reverse ++ g.log
  replayed : ∀ id, id ∈ replay (g.discovery.provider.nodes.map fun n => n.id.retag) c.posted ↔
    (c.roster.protocol.member? id).isSome
  leaves : c.roster.leaveProtocol.Idle m

/-- After any events the members are the local one and whoever is reported. The group has been told
of the local member, and of each change at the event that made it. -/
theorem members_follow_discovery (h : g.Idle m) (es : List DiscoveryEvent) :
    (run g []).posted = [⟨.added, Protocol.localKey, m⟩] ∧ Tracks g m es (run g es) := by
  have hmirrors := mirrors_run h es
  refine ⟨posted_start h, roster_run g es, hmirrors.keyed.distinct, ⟨hmirrors.self, hmirrors.keyed.own⟩,
    hmirrors.others, tells_hear hmirrors, log_run h es, fun id => ?_, idle_leave h es⟩
  rw [mem_replay h, hmirrors.isSome_member?]

/-- A member that moves and comes back under another address, one that leaves, and reports about
the local member. -/
theorem members_follow_discovery_moves :
    let node : String → Nat → Node := fun id port => ⟨⟨id⟩, ⟨"10.0.0.1", port.toUInt16⟩⟩
    let m := Member.bare ⟨"a"⟩ ⟨"10.0.0.1", 1⟩
    let g : Roster String := .ofLocal m (.ofNodes [node "a" 9, node "b" 2, node "b" 3])
    let c := run g [⟨.joined, node "c" 4⟩, ⟨.left, node "b" 2⟩, ⟨.left, node "a" 1⟩,
      ⟨.joined, node "c" 5⟩, ⟨.left, node "d" 6⟩]
    g.Idle m ∧ c.posted.map (·.change) = [.added, .added, .removed] ∧
      c.roster.protocol.Shows ⟨"c"⟩ (some (node "c" 5)) ∧ c.roster.protocol.Shows ⟨"b"⟩ none ∧
        c.roster.protocol.member? ⟨"a"⟩ = some Protocol.localKey := by
  intro node m g c
  have hidle : g.Idle m := Roster.idle_ofLocal m _
  obtain ⟨-, h⟩ := members_follow_discovery hidle [⟨.joined, node "c" 4⟩, ⟨.left, node "b" 2⟩,
    ⟨.left, node "a" 1⟩, ⟨.joined, node "c" 5⟩, ⟨.left, node "d" 6⟩]
  exact ⟨hidle, by decide +kernel, h.others (by decide), h.others (by decide), h.self.1⟩

end Chronicle

end ClusterNet.Membership
