import ClusterNet.Proofs.Lifecycle

/-!
# Objects of members that have gone

Whoever holds on to a member object may look at its flags when the member has gone. An object stops to
be a member's in three ways: the member leaves, it joins again as another object, or the protocol leaves
the group. Only the first shows. The other two leave an object that looks alive for good.
-/

namespace ClusterNet.Membership

variable {L : Type}

/-- Whose removal these notices tell of. -/
def removals (posted : List Notice) : List MemberKey :=
  (posted.filter fun n => n.change = .removed).map (·.key)

theorem removals_append (posted more : List Notice) :
    removals (posted ++ more) = removals posted ++ removals more := by
  simp [removals]

namespace Protocol

variable {p : Protocol L} {m : Member} {gone : List MemberKey}

/-- Two protocols have the same objects and members. -/
structure Like (q p : Protocol L) : Prop where
  objects : q.objects = p.objects
  nextKey : q.nextKey = p.nextKey
  members : q.members = p.members

theorem Like.refl (p : Protocol L) : p.Like p := ⟨rfl, rfl, rfl⟩

/-! ## Objects that were made -/

/-- Each object that the protocol has made looks alive unless it is among these, and no member is one
of these. -/
structure Remembers (p : Protocol L) (m : Member) (gone : List MemberKey) : Prop where
  apart : p.Apart m
  made : ∀ {k}, localKey < k → k < p.nextKey →
    ∃ n, p.objects.get? k = some ((Member.ofNode n).marked (decide (k ∉ gone)))
  named : ∀ {id k}, p.member? id = some k → ∃ x, p.objects.get? k = some x ∧ x.id = id
  range : ∀ k ∈ gone, localKey < k ∧ k < p.nextKey
  stored : ∀ {id k}, p.member? id = some k → k ∉ gone

theorem remembers_ofLocal (m : Member) (listeners : Listeners (GroupListener L)) :
    ({ (ofLocal m : Protocol L) with listeners } : Protocol L).Remembers m [] where
  apart := (apart_ofLocal (L := L) m).of_eq rfl rfl rfl
  made hlocal hnext := absurd (Nat.le_of_lt_succ hnext) (Nat.not_le_of_lt hlocal)
  named hk := by simp [member?, ofLocal] at hk
  range := by simp
  stored hk := by simp

theorem Remembers.of_like {q : Protocol L} (h : p.Remembers m gone) (hq : q.Like p) : q.Remembers m gone where
  apart := h.apart.of_eq hq.objects hq.nextKey hq.members
  made := by
    rw [hq.objects, hq.nextKey]
    exact h.made
  named := by
    unfold member?
    rw [hq.objects, hq.members]
    exact h.named
  range := by
    rw [hq.nextKey]
    exact h.range
  stored := by
    unfold member?
    rw [hq.members]
    exact h.stored

theorem Remembers.discover (h : p.Remembers m gone) (n : Node) : (p.discover n).2.Remembers m gone where
  apart := h.apart.discover n
  made {k} hlocal hnext := by
    change ∃ n', (p.objects.insert p.nextKey _).get? k = _
    rw [Table.get?_insert]
    rcases Nat.lt_or_eq_of_le (Nat.le_of_lt_succ hnext) with hlt | rfl
    · rw [if_neg (Nat.ne_of_lt hlt)]
      exact h.made hlocal hlt
    · have hnew : p.nextKey ∉ gone := fun hin => Nat.lt_irrefl _ (h.range _ hin).2
      rw [if_pos rfl, decide_eq_true hnew]
      exact ⟨n, rfl⟩
  named {id k} hk := by
    change ∃ x, (p.objects.insert p.nextKey _).get? k = _ ∧ _
    rw [member?_discover] at hk
    split at hk
    · rename_i heq
      rw [← Option.some.inj hk, Table.get?_insert_self, heq]
      exact ⟨_, rfl, rfl⟩
    · rw [Table.get?_insert_of_ne _ (Nat.ne_of_lt (h.apart.keyed.bound hk))]
      exact h.named hk
  range k hk := ⟨(h.range k hk).1, Nat.lt_succ_of_lt (h.range k hk).2⟩
  stored {id k} hk := by
    rw [member?_discover] at hk
    split at hk
    · rw [← Option.some.inj hk]
      exact fun hin => Nat.lt_irrefl _ (h.range _ hin).2
    · exact h.stored hk

theorem member?_enrol (p : Protocol L) (nodes : List Node) (id : MemberId) : (p.enrol nodes).member? id =
    if id = (nodes.foldl (fun p n => (p.discover n).2) p).localMember.id then some localKey
    else (nodes.foldl (fun p n => (p.discover n).2) p).member? id :=
  Table.get?_insert _ _ _ _

theorem Remembers.enrol (h : p.Remembers m gone) (nodes : List Node) : (p.enrol nodes).Remembers m gone := by
  have hall : (nodes.foldl (fun p n => (p.discover n).2) p).Remembers m gone :=
    List.foldlRecOn (motive := fun q : Protocol L => q.Remembers m gone) nodes _ h fun _ hq n _ => hq.discover n
  refine ⟨h.apart.enrol nodes, hall.made, ?_, hall.range, ?_⟩
  · intro id k hk
    rw [member?_enrol, hall.apart.keyed.localMember] at hk
    split at hk
    · rename_i heq
      rw [← Option.some.inj hk, heq]
      exact ⟨m, hall.apart.keyed.own, rfl⟩
    · exact hall.named hk
  · intro id k hk
    rw [member?_enrol] at hk
    split at hk
    · rw [← Option.some.inj hk]
      exact fun hin => Nat.lt_irrefl _ (hall.range _ hin).1
    · exact hall.stored hk

theorem Remembers.expel (h : p.Remembers m gone) {id : MemberId} {k : MemberKey}
    (hk : p.member? id = some k) (hother : k ≠ localKey) :
    (p.expel id k).Remembers m (gone ++ [k]) := by
  -- No other id has the object that goes, since the object is named after its id.
  have hstays : ∀ {id' k'}, (p.expel id k).member? id' = some k' → p.member? id' = some k' ∧ k' ≠ k := by
    intro id' k' hk'
    rw [member?_expel] at hk'
    split at hk'
    · cases hk'
    · rename_i hne
      refine ⟨hk', ?_⟩
      rintro rfl
      obtain ⟨x, hx, hid⟩ := h.named hk
      obtain ⟨y, hy, hid'⟩ := h.named hk'
      obtain rfl := Option.some.inj (hx.symm.trans hy)
      exact hne (hid'.symm.trans hid)
  refine ⟨h.apart.expel hother, ?_, ?_, ?_, ?_⟩
  · intro k' hlocal hnext
    obtain ⟨n, hn⟩ := h.made hlocal hnext
    rw [object_expel, hn]
    by_cases heq : k' = k
    · exact ⟨n, by simp [heq, Member.marked]⟩
    · exact ⟨n, by simp [heq]⟩
  · intro id' k' hk'
    obtain ⟨hwas, hne⟩ := hstays hk'
    rw [object_expel, if_neg hne]
    exact h.named hwas
  · intro k' hin
    rcases List.mem_append.mp hin with hin | hin
    · exact h.range k' hin
    · rw [List.mem_singleton.mp hin]
      exact ⟨Nat.pos_of_ne_zero hother, h.apart.keyed.bound hk⟩
  · intro id' k' hk' hin
    obtain ⟨hwas, hne⟩ := hstays hk'
    rcases List.mem_append.mp hin with hin | hin
    · exact h.stored hwas hin
    · exact hne (List.mem_singleton.mp hin)

theorem Remembers.vacate (h : p.Remembers m gone) : ({ p with members := .empty } : Protocol L).Remembers m gone := by
  have hkeyed := h.apart.keyed
  have hnobody : ∀ {id k}, ({ p with members := .empty } : Protocol L).member? id ≠ some k := by
    intro id k
    simp [member?]
  exact ⟨⟨⟨hkeyed.fresh, fun hk => absurd hk hnobody, Table.distinct_empty, hkeyed.own⟩,
    fun hk => absurd hk hnobody⟩, h.made, fun hk => absurd hk hnobody, h.range, fun hk => absurd hk hnobody⟩

theorem removals_joined (p : Protocol L) (n : Node) : removals (p.notices ⟨.joined, n⟩) = [] := by
  unfold notices follow
  dsimp only
  split
  · rfl
  · split <;> rfl

theorem Remembers.follow (h : p.Remembers m gone) (e : DiscoveryEvent) :
    (p.follow e).2.Remembers m (gone ++ removals (p.notices e)) := by
  obtain ⟨presence, n⟩ := e
  by_cases hn : n.id.retag = m.id
  · rw [notices, h.apart.keyed.follow_own hn]
    exact (List.append_nil gone).symm ▸ h
  cases presence with
  | joined =>
    rw [removals_joined, List.append_nil, h.apart.keyed.follow_joined hn]
    exact h.discover n
  | left =>
    rw [notices, h.apart.keyed.follow_left hn]
    cases hk : p.member? n.id.retag with
    | none => exact (List.append_nil gone).symm ▸ h
    | some k =>
      apply h.expel hk
      rintro rfl
      exact hn (h.apart.alone hk)

theorem nextKey_enrol (p : Protocol L) (nodes : List Node) : p.nextKey ≤ (p.enrol nodes).nextKey := by
  change _ ≤ (nodes.foldl (fun p n => (p.discover n).2) p).nextKey
  induction nodes generalizing p with
  | nil => exact Nat.le_refl _
  | cons n nodes ih => exact Nat.le_of_succ_le (ih (p.discover n).2)

theorem nextKey_follow (p : Protocol L) (e : DiscoveryEvent) : p.nextKey ≤ (p.follow e).2.nextKey := by
  unfold follow
  dsimp only
  split
  · exact Nat.le_refl _
  · split
    · exact Nat.le_succ _
    · split <;> exact Nat.le_refl _

/-! ## Objects that are nobody's -/

/-- The protocol has made this object, and it is no member's. -/
structure Loose (p : Protocol L) (k : MemberKey) (o : Option Member) : Prop where
  made : localKey < k ∧ k < p.nextKey
  nobody : ∀ id, p.member? id ≠ some k
  object : p.objects.get? k = o

variable {k : MemberKey} {o : Option Member}

theorem Loose.of_like {q : Protocol L} (h : p.Loose k o) (hq : q.Like p) : q.Loose k o where
  made := by
    rw [hq.nextKey]
    exact h.made
  nobody := by
    unfold member?
    rw [hq.members]
    exact h.nobody
  object := by
    rw [hq.objects]
    exact h.object

theorem Loose.discover (h : p.Loose k o) (n : Node) : (p.discover n).2.Loose k o := by
  obtain ⟨hlocal, hnext⟩ := h.made
  refine ⟨⟨hlocal, Nat.lt_succ_of_lt hnext⟩, ?_, ?_⟩
  · intro id hk
    rw [member?_discover] at hk
    split at hk
    · exact Nat.lt_irrefl _ (Option.some.inj hk ▸ hnext)
    · exact h.nobody id hk
  · exact (Table.get?_insert_of_ne _ (Nat.ne_of_lt hnext) _).trans h.object

theorem Loose.enrol (h : p.Loose k o) (nodes : List Node) : (p.enrol nodes).Loose k o := by
  have hall : (nodes.foldl (fun p n => (p.discover n).2) p).Loose k o :=
    List.foldlRecOn (motive := fun q : Protocol L => q.Loose k o) nodes _ h fun _ hq n _ => hq.discover n
  refine ⟨hall.made, ?_, hall.object⟩
  intro id hk
  rw [member?_enrol] at hk
  split at hk
  · exact Nat.lt_irrefl _ (Option.some.inj hk ▸ hall.made.1)
  · exact hall.nobody id hk

theorem Loose.expel (h : p.Loose k o) {id : MemberId} {k' : MemberKey} (hk' : p.member? id = some k') :
    (p.expel id k').Loose k o := by
  refine ⟨h.made, ?_, ?_⟩
  · intro id' hk
    rw [member?_expel] at hk
    split at hk
    · cases hk
    · exact h.nobody id' hk
  · rw [object_expel, if_neg]
    · exact h.object
    · rintro rfl
      exact h.nobody id hk'

theorem Loose.follow (h : p.Loose k o) (hkeyed : p.Keyed m) (e : DiscoveryEvent) :
    (p.follow e).2.Loose k o := by
  obtain ⟨presence, n⟩ := e
  by_cases hn : n.id.retag = m.id
  · rwa [hkeyed.follow_own hn]
  cases presence with
  | joined =>
    rw [hkeyed.follow_joined hn]
    exact h.discover n
  | left =>
    rw [hkeyed.follow_left hn]
    cases hk : p.member? n.id.retag with
    | none => exact h
    | some k' => exact h.expel hk

end Protocol

/-! ## Joining, leaving and events -/

/-- What happens to a protocol, one thing at a time. -/
inductive GroupAct where
  /-- It joins, unless it has joined, and discovery has these nodes. -/
  | joins (nodes : List Node)
  /-- It leaves, if it has joined. -/
  | leaves
  | hears (e : DiscoveryEvent)

/-- A node is said to have left. -/
def GroupAct.departs : GroupAct → Bool
  | .hears e => e.presence = .left
  | _ => false

namespace Chronicle

variable {c : Chronicle L} {g : Roster L} {m : Member}

def act (c : Chronicle L) : GroupAct → Chronicle L
  | .joins nodes =>
    let g := c.roster.setProvider ({ · with nodes })
    if g.protocol.joined then ⟨g, c.posted⟩ else ⟨(start g).roster, c.posted ++ (start g).posted⟩
  | .leaves => ⟨c.roster.leaveProtocol, c.posted⟩
  | .hears e => c.hear e

/-- All that a protocol does and tells. -/
def live (g : Roster L) (acts : List GroupAct) : Chronicle L := acts.foldl act ⟨g, []⟩

theorem live_concat (g : Roster L) (acts : List GroupAct) (a : GroupAct) :
    live g (acts ++ [a]) = (live g acts).act a := by
  simp [live]

/-- What an act makes of the objects and members of a protocol, and what it tells. -/
inductive Moves (p : Protocol L) : GroupAct → Protocol L → List Notice → Prop where
  | rests (a : GroupAct) : Moves p a p []
  | enrols (nodes : List Node) (n : Notice) (added : n.change = .added) :
      Moves p (.joins nodes) (p.enrol nodes) [n]
  | vacates : Moves p .leaves { p with members := .empty } []
  | follows (e : DiscoveryEvent) : Moves p (.hears e) (p.follow e).2 (p.notices e)

theorem act_cases (c : Chronicle L) (a : GroupAct) : ∃ q more, Moves c.roster.protocol a q more ∧
    (c.act a).roster.protocol.Like q ∧ (c.act a).posted = c.posted ++ more ∧
    (c.act a).roster.audience = c.roster.audience ∧
    (c.act a).roster.log = (more.flatMap (·.deliveries c.roster.audience)).reverse ++ c.roster.log := by
  cases a with
  | joins nodes =>
    unfold act
    dsimp only
    split
    · exact ⟨_, [], .rests _, .refl _, (List.append_nil _).symm, rfl, rfl⟩
    · rename_i hjoined
      refine ⟨_, _, .enrols nodes _ rfl, ?_, rfl, ?_, ?_⟩ <;>
        rw [start, Roster.joinProtocol_eq ((Bool.not_eq_true _).mp hjoined), Roster.introduce, Roster.announce_eq]
      · exact ⟨rfl, rfl, rfl⟩
      · exact Roster.audience_enrol (c.roster.setProvider ({ · with nodes })) nodes
      · rw [Roster.audience_enrol, List.flatMap_singleton]
        rfl
  | leaves =>
    unfold act Roster.leaveProtocol
    dsimp only
    split
    · exact ⟨_, [], .vacates, ⟨rfl, rfl, rfl⟩, (List.append_nil _).symm, rfl, rfl⟩
    · exact ⟨_, [], .rests _, .refl _, (List.append_nil _).symm, rfl, rfl⟩
  | hears e =>
    rw [act, hear, Roster.hear_eq]
    refine ⟨_, _, .follows e, ⟨rfl, rfl, rfl⟩, rfl, ?_, rfl⟩
    unfold Roster.audience
    rw [(Protocol.frame_follow _ e).1]

theorem remembers_act (h : c.roster.protocol.Remembers m (removals c.posted)) (a : GroupAct) :
    (c.act a).roster.protocol.Remembers m (removals (c.act a).posted) := by
  obtain ⟨q, more, hmoves, hlike, hposted, -⟩ := c.act_cases a
  rw [hposted, removals_append]
  apply Protocol.Remembers.of_like _ hlike
  cases hmoves with
  | rests _ => simpa [removals] using h
  | enrols nodes n added => simpa [removals, added] using h.enrol nodes
  | vacates => simpa [removals] using h.vacate
  | follows e => exact h.follow e

theorem loose_act {k : MemberKey} {o : Option Member} (hkeyed : c.roster.protocol.Keyed m)
    (h : c.roster.protocol.Loose k o) (a : GroupAct) : (c.act a).roster.protocol.Loose k o := by
  obtain ⟨q, more, hmoves, hlike, -⟩ := c.act_cases a
  apply Protocol.Loose.of_like _ hlike
  cases hmoves with
  | rests _ => exact h
  | enrols nodes _ _ => exact h.enrol nodes
  | vacates => exact ⟨h.made, fun id hk => by simp [Protocol.member?] at hk, h.object⟩
  | follows e => exact h.follow hkeyed e

theorem nextKey_act (c : Chronicle L) (a : GroupAct) :
    c.roster.protocol.nextKey ≤ (c.act a).roster.protocol.nextKey := by
  obtain ⟨q, more, hmoves, hlike, -⟩ := c.act_cases a
  rw [hlike.nextKey]
  cases hmoves with
  | rests _ => exact Nat.le_refl _
  | enrols nodes _ _ => exact Protocol.nextKey_enrol _ nodes
  | vacates => exact Nat.le_refl _
  | follows e => exact Protocol.nextKey_follow _ e

theorem mem_removals_left {p : Protocol L} {k : MemberKey} {id : MemberId} (h : p.Keyed m) (n : Node)
    (hk : p.member? id = some k) (hgone : (p.follow ⟨.left, n⟩).2.member? id ≠ some k) :
    k ∈ removals (p.notices ⟨.left, n⟩) := by
  by_cases hn : n.id.retag = m.id
  · rw [h.follow_own hn] at hgone
    exact absurd hk hgone
  rw [Protocol.notices, h.follow_left hn]
  rw [h.follow_left hn] at hgone
  cases hk' : p.member? n.id.retag with
  | none =>
    rw [hk'] at hgone
    exact absurd hk hgone
  | some k' =>
    rw [hk'] at hgone
    by_cases hid : id = n.id.retag
    · rw [hid, hk'] at hk
      rw [← Option.some.inj hk]
      exact List.mem_singleton_self _
    · refine absurd ?_ hgone
      exact ((Protocol.member?_expel _ _ _ _).trans (if_neg hid)).trans hk

/-- Only a report that its node has left takes an object out of the members and tells so. -/
theorem removals_act (h : c.roster.protocol.Remembers m (removals c.posted)) {a : GroupAct} {id : MemberId}
    {k : MemberKey} (hk : c.roster.protocol.member? id = some k)
    (hgone : (c.act a).roster.protocol.member? id ≠ some k) :
    k ∈ removals (c.act a).posted ↔ a.departs = true := by
  obtain ⟨q, more, hmoves, hlike, hposted, -⟩ := c.act_cases a
  have hstored := h.stored hk
  have hleft : q.member? id ≠ some k := by
    unfold Protocol.member? at hgone ⊢
    rwa [hlike.members] at hgone
  rw [hposted, removals_append, List.mem_append, or_iff_right hstored]
  cases hmoves with
  | rests _ => exact absurd hk hleft
  | enrols nodes n added => simp [removals, added, GroupAct.departs]
  | vacates => simp [removals, GroupAct.departs]
  | follows e =>
    rcases e with ⟨_ | _, n⟩
    · rw [Protocol.removals_joined]
      simp [GroupAct.departs]
    · exact iff_of_true (mem_removals_left h.apart.keyed n hk hleft) (by simp [GroupAct.departs])

/-! ## All acts -/

/-- What becomes of the objects that a protocol has made. -/
structure Partings (g : Roster L) (c : Chronicle L) : Prop where
  /-- An object looks alive unless its removal was told. -/
  made : ∀ k, Protocol.localKey < k → k < c.roster.protocol.nextKey → ∃ n,
    c.roster.protocol.objects.get? k = some ((Member.ofNode n).marked (decide (k ∉ removals c.posted)))
  stored : ∀ {id k}, c.roster.protocol.member? id = some k → k ∉ removals c.posted
  /-- Of what takes an object out of the members, only the report that its node has left shows on it. -/
  parts : ∀ a {id k}, k ≠ Protocol.localKey → c.roster.protocol.member? id = some k →
    (c.act a).roster.protocol.member? id ≠ some k →
    ((c.act a).roster.protocol.object k).active = !a.departs ∧
      ((c.act a).roster.protocol.object k).reachable = !a.departs
  /-- It never shows later. -/
  lasts : ∀ a {k o}, c.roster.protocol.Loose k o → (c.act a).roster.protocol.Loose k o
  told : c.roster.log = (c.posted.flatMap (·.deliveries g.audience)).reverse ++ g.log

theorem remembers_live (h : g.protocol.Remembers m []) (acts : List GroupAct) :
    (live g acts).roster.protocol.Remembers m (removals (live g acts).posted) := by
  induction acts using List.reverseRecOn with
  | nil => exact h
  | append_singleton acts a ih =>
    rw [live_concat]
    exact remembers_act ih a

theorem told_live (g : Roster L) (acts : List GroupAct) : (live g acts).roster.audience = g.audience ∧
    (live g acts).roster.log = ((live g acts).posted.flatMap (·.deliveries g.audience)).reverse ++ g.log := by
  induction acts using List.reverseRecOn with
  | nil => exact ⟨rfl, rfl⟩
  | append_singleton acts a ih =>
    obtain ⟨haudience, hlog⟩ := ih
    obtain ⟨q, more, -, -, hposted, hsame, hmore⟩ := (live g acts).act_cases a
    rw [live_concat]
    refine ⟨hsame.trans haudience, ?_⟩
    rw [hmore, hposted, haudience, hlog, List.flatMap_append, List.reverse_append, List.append_assoc]

/-- Whatever a new protocol does: an object that it has made looks dead once the removal of its member
was told, and never otherwise. An object that was replaced or cleared away looks alive for good. -/
theorem only_reported_departures_show {listeners : Listeners (GroupListener L)}
    (h : g.protocol = { (Protocol.ofLocal m : Protocol L) with listeners }) (acts : List GroupAct) :
    Partings g (live g acts) := by
  have hnew : g.protocol.Remembers m [] := h ▸ Protocol.remembers_ofLocal m listeners
  have hlive := remembers_live hnew acts
  refine ⟨fun k => hlive.made, hlive.stored, ?_, fun a _ _ => (loose_act hlive.apart.keyed · a),
    (told_live g acts).2⟩
  intro a id k hother hk hgone
  have hbound := Nat.lt_of_lt_of_le (hlive.apart.keyed.bound hk) (nextKey_act (live g acts) a)
  obtain ⟨n, hn⟩ := (remembers_act hlive a).made (Nat.pos_of_ne_zero hother) hbound
  have hdead : decide (k ∉ removals ((live g acts).act a).posted) = !a.departs := by
    rw [decide_not, Bool.not_inj_iff, Bool.eq_iff_iff, decide_eq_true_iff]
    exact removals_act hlive hk hgone
  rw [Protocol.object, hn, hdead]
  exact ⟨rfl, rfl⟩

/-- A protocol with three objects for one node, which leaves at last. -/
theorem only_reported_departures_show_moving :
    let node : Nat → Node := fun port => ⟨⟨"b"⟩, ⟨"127.0.0.1", port.toUInt16⟩⟩
    let g : Roster String := .ofLocal (.bare ⟨"a"⟩ ⟨"127.0.0.1", 1⟩) (.ofNodes [])
    let acts := [.joins [node 2], .leaves, .joins [node 3], .hears ⟨.joined, node 4⟩, .hears ⟨.left, node 4⟩]
    Partings g (live g acts) ∧ removals (live g acts).posted = [3] ∧
      [1, 2, 3].map (fun k => ((live g acts).roster.protocol.object k).active) = [true, true, false] := by
  intro node g acts
  exact ⟨only_reported_departures_show rfl acts, by decide +kernel, by decide +kernel⟩

/-- Two objects that are nobody's any more and look alive: one was replaced, one was cleared away. -/
theorem an_object_outlives_its_member :
    let node : Nat → Node := fun port => ⟨⟨"b"⟩, ⟨"127.0.0.1", port.toUInt16⟩⟩
    let g : Roster String := .ofLocal (.bare ⟨"a"⟩ ⟨"127.0.0.1", 1⟩) (.ofNodes [])
    let replaced := (live g [.joins [node 2], .hears ⟨.joined, node 3⟩]).roster.protocol
    let cleared := (live g [.joins [node 2], .leaves]).roster.protocol
    1 ∉ replaced.members.values ∧ (replaced.object 1).active = true ∧ (replaced.object 1).reachable = true ∧
      1 ∉ cleared.members.values ∧ (cleared.object 1).active = true ∧ (cleared.object 1).reachable = true := by
  decide +kernel

end Chronicle

end ClusterNet.Membership
