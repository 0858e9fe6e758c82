import ClusterNet.Membership.Service
import ClusterNet.Proofs.Tables
import Mathlib.Data.List.Induction

/-!
# Members are who discovery reports

From joining to leaving, a member table is what the events of discovery amount to. The local
member stays as it is. Everyone else is a member as long as the latest report says so, and the
group is told when that changes.
-/

namespace ClusterNet.Membership

variable {L : Type}

/-! ## Reports -/

/-- The node that is there after an event. -/
def DiscoveryEvent.present? (e : DiscoveryEvent) : Option Node :=
  match e.presence with
  | .joined => some e.node
  | .left => none

/-- Who an id belongs to now. The latest event that names the id decides. -/
def reported? (history : List DiscoveryEvent) (id : MemberId) : Option Node :=
  (history.reverse.find? fun e => e.node.id.retag = id).bind (·.present?)

/-- Nodes that were there first, as events. -/
def arrivals (nodes : List Node) : List DiscoveryEvent := nodes.map fun n => ⟨.joined, n⟩

theorem reported?_concat (history : List DiscoveryEvent) (e : DiscoveryEvent) (id : MemberId) :
    reported? (history ++ [e]) id =
      if e.node.id.retag = id then e.present? else reported? history id := by
  rw [reported?, List.reverse_append, List.reverse_singleton, List.singleton_append, List.find?_cons]
  by_cases h : e.node.id.retag = id
  · rw [if_pos h, decide_eq_true h]
    rfl
  · rw [if_neg h, decide_eq_false h]
    rfl

theorem DiscoveryEvent.node_of_present? {e : DiscoveryEvent} {n : Node} (h : e.present? = some n) :
    e.node = n := by
  unfold present? at h
  split at h
  · exact Option.some.inj h
  · simp at h

theorem id_of_reported? {history : List DiscoveryEvent} {id : MemberId} {n : Node}
    (h : reported? history id = some n) : n.id.retag = id := by
  obtain ⟨e, he, hn⟩ := Option.bind_eq_some_iff.mp h
  rw [← DiscoveryEvent.node_of_present? hn]
  simpa using List.find?_some he

theorem isSome_reported?_arrivals (nodes : List Node) (id : MemberId) :
    (reported? (arrivals nodes) id).isSome ↔ id ∈ nodes.map fun n => n.id.retag := by
  induction nodes using List.reverseRecOn with
  | nil => simp [arrivals, reported?]
  | append_singleton nodes n ih =>
    rw [arrivals, List.map_append, List.map_singleton, reported?_concat, List.map_append]
    by_cases h : n.id.retag = id
    · simp [h, DiscoveryEvent.present?]
    · rw [if_neg h]
      exact ih.trans (by simp [Ne.symm h])

/-! ## Member tables -/

namespace Protocol

variable {p q : Protocol L} {m : Member} {id : MemberId} {o : Option Node}

/-- The id has a member as it is reported, which looks alive. -/
def Shows (p : Protocol L) (id : MemberId) : Option Node → Prop
  | none => p.member? id = none
  | some n => ∃ k, p.member? id = some k ∧ p.objects.get? k = some ((Member.ofNode n).marked true)

theorem Shows.of_eq (h : p.Shows id o) (hmember : q.member? id = p.member? id)
    (hobject : ∀ k, p.member? id = some k → q.objects.get? k = p.objects.get? k) : q.Shows id o := by
  cases o with
  | none => exact hmember.trans h
  | some n =>
    obtain ⟨k, hk, hn⟩ := h
    exact ⟨k, hmember.trans hk, (hobject k hk).trans hn⟩

/-- Keys are not given twice, and the local member has its own. -/
structure Keyed (p : Protocol L) (m : Member) : Prop where
  fresh : localKey < p.nextKey
  bound : ∀ {id k}, p.member? id = some k → k < p.nextKey
  distinct : p.members.Distinct
  own : p.objects.get? localKey = some m

theorem Keyed.localMember (h : p.Keyed m) : p.localMember = m := by
  rw [Protocol.localMember, object, h.own, Option.getD_some]

theorem member?_discover (p : Protocol L) (n : Node) (id : MemberId) : (p.discover n).2.member? id =
    if id = n.id.retag then some p.nextKey else p.member? id :=
  Table.get?_insert _ _ _ _

theorem Keyed.discover (h : p.Keyed m) (n : Node) : (p.discover n).2.Keyed m where
  fresh := Nat.lt_succ_of_lt h.fresh
  bound {id k} hk := by
    rw [member?_discover] at hk
    split at hk
    · rw [← Option.some.inj hk]
      exact Nat.lt_succ_self _
    · exact Nat.lt_succ_of_lt (h.bound hk)
  distinct := h.distinct.insert _ _
  own := (Table.get?_insert_of_ne _ (Nat.ne_of_lt h.fresh) _).trans h.own

theorem shows_discover_self (p : Protocol L) (n : Node) :
    (p.discover n).2.Shows n.id.retag (some n) :=
  ⟨p.nextKey, (member?_discover p n _).trans (if_pos rfl), Table.get?_insert_self _ _ _⟩

theorem Keyed.shows_discover (h : p.Keyed m) (n : Node) (hid : id ≠ n.id.retag) (ho : p.Shows id o) :
    (p.discover n).2.Shows id o :=
  ho.of_eq ((member?_discover p n id).trans (if_neg hid)) fun _ hk =>
    Table.get?_insert_of_ne _ (Nat.ne_of_lt (h.bound hk)) _

theorem Keyed.shows_joined (h : p.Keyed m) (n : Node) {history : List DiscoveryEvent}
    (hid : id ≠ n.id.retag → p.Shows id (reported? history id)) :
    (p.discover n).2.Shows id (reported? (history ++ [⟨.joined, n⟩]) id) := by
  rw [reported?_concat]
  split
  · rename_i heq
    subst heq
    exact shows_discover_self p n
  · rename_i hne
    exact h.shows_discover n (Ne.symm hne) (hid (Ne.symm hne))

/-- What a joined protocol looks like after these events. -/
structure Mirrors (p : Protocol L) (m : Member) (history : List DiscoveryEvent) : Prop where
  keyed : p.Keyed m
  self : p.member? m.id = some localKey
  others : ∀ {id}, id ≠ m.id → p.Shows id (reported? history id)

theorem Keyed.of_eq (h : p.Keyed m) (hobjects : q.objects = p.objects) (hnext : q.nextKey = p.nextKey)
    (hmembers : q.members = p.members) : q.Keyed m where
  fresh := hnext ▸ h.fresh
  bound {id k} hk := by
    rw [member?, hmembers] at hk
    exact hnext ▸ h.bound hk
  distinct := hmembers ▸ h.distinct
  own := hobjects ▸ h.own

theorem Mirrors.of_eq {history : List DiscoveryEvent} (h : p.Mirrors m history)
    (hobjects : q.objects = p.objects) (hnext : q.nextKey = p.nextKey)
    (hmembers : q.members = p.members) : q.Mirrors m history where
  keyed := h.keyed.of_eq hobjects hnext hmembers
  self := by rw [member?, hmembers, ← member?, h.self]
  others {id} hid := by
    refine (h.others hid).of_eq ?_ fun k _ => by rw [hobjects]
    rw [member?, member?, hmembers]

theorem Keyed.enrolAll {history : List DiscoveryEvent} (nodes : List Node) (h : p.Keyed m)
    (hshows : ∀ id, p.Shows id (reported? history id)) :
    (nodes.foldl (fun p n => (p.discover n).2) p).Keyed m ∧
      ∀ id, (nodes.foldl (fun p n => (p.discover n).2) p).Shows id
        (reported? (history ++ arrivals nodes) id) := by
  induction nodes generalizing p history with
  | nil => exact ⟨h, by simpa [arrivals] using hshows⟩
  | cons n nodes ih =>
    have hrest := ih (h.discover n) fun id => h.shows_joined n fun _ => hshows id
    rwa [List.append_assoc] at hrest

theorem mirrors_enrol (h : p.Keyed m) (hempty : p.members = .empty) (nodes : List Node) :
    (p.enrol nodes).Mirrors m (arrivals nodes) := by
  have hnobody : ∀ id, p.Shows id (reported? [] id) := fun id => by
    rw [Shows.eq_def]
    simp [reported?, member?, hempty]
  obtain ⟨hkeyed, hshows⟩ := h.enrolAll nodes hnobody
  have hmember : ∀ id, (p.enrol nodes).member? id = if id = m.id then some localKey else
      (nodes.foldl (fun p n => (p.discover n).2) p).member? id := fun id => by
    rw [← hkeyed.localMember]
    exact Table.get?_insert _ _ _ _
  refine ⟨⟨hkeyed.fresh, fun {id k} hk => ?_, hkeyed.distinct.insert _ _, hkeyed.own⟩, ?_,
    fun {id} hid => ?_⟩
  · rw [hmember] at hk
    split at hk
    · rw [← Option.some.inj hk]
      exact hkeyed.fresh
    · exact hkeyed.bound hk
  · rw [hmember, if_pos rfl]
  · exact (hshows id).of_eq ((hmember id).trans (if_neg hid)) fun _ _ => rfl

/-! ## Following an event -/

/-- The member goes. It stays where others hold on to it, and looks dead there. -/
def expel (p : Protocol L) (id : MemberId) (k : MemberKey) : Protocol L :=
  ({ p with members := p.members.erase id } : Protocol L).change k (·.marked false)

theorem member?_expel (p : Protocol L) (id : MemberId) (k : MemberKey) (id' : MemberId) :
    (p.expel id k).member? id' = if id' = id then none else p.member? id' :=
  Table.get?_erase _ _ _

theorem object_expel (p : Protocol L) (id : MemberId) (k k' : MemberKey) :
    (p.expel id k).objects.get? k' =
      if k' = k then (p.objects.get? k').map (·.marked false) else p.objects.get? k' :=
  Table.get?_modify _ _ _ _

theorem Keyed.follow_own (h : p.Keyed m) {e : DiscoveryEvent} (he : e.node.id.retag = m.id) :
    p.follow e = (none, p) := by
  unfold follow
  rw [h.localMember]
  exact if_pos he

theorem Keyed.follow_joined (h : p.Keyed m) {n : Node} (hn : n.id.retag ≠ m.id) :
    p.follow ⟨.joined, n⟩ =
      (if p.members.contains n.id.retag then none else some ⟨.added, p.nextKey⟩, (p.discover n).2) := by
  unfold follow
  rw [h.localMember]
  exact if_neg hn

theorem Keyed.follow_left (h : p.Keyed m) {n : Node} (hn : n.id.retag ≠ m.id) :
    p.follow ⟨.left, n⟩ = match p.member? n.id.retag with
      | none => (none, p)
      | some k => (some ⟨.removed, k⟩, p.expel n.id.retag k) := by
  unfold follow
  rw [h.localMember]
  exact if_neg hn

theorem Mirrors.object_of_member {history : List DiscoveryEvent} (h : p.Mirrors m history)
    {k : MemberKey} (hk : p.member? id = some k) : ∃ x, p.objects.get? k = some x ∧ x.id = id := by
  by_cases hid : id = m.id
  · subst hid
    obtain rfl := Option.some.inj (h.self.symm.trans hk)
    exact ⟨m, h.keyed.own, rfl⟩
  · have hshown := h.others hid
    cases hr : reported? history id with
    | none =>
      rw [hr] at hshown
      exact absurd (hk.symm.trans hshown) (by simp)
    | some n =>
      rw [hr] at hshown
      obtain ⟨k', hk', hobject⟩ := hshown
      obtain rfl := Option.some.inj (hk.symm.trans hk')
      exact ⟨_, hobject, id_of_reported? hr⟩

theorem Mirrors.expel {history : List DiscoveryEvent} (h : p.Mirrors m history) {n : Node}
    {k : MemberKey} (hn : n.id.retag ≠ m.id) (hk : p.member? n.id.retag = some k) :
    (p.expel n.id.retag k).Mirrors m (history ++ [⟨.left, n⟩]) := by
  obtain ⟨x, hx, hid⟩ := h.object_of_member hk
  have hother : ∀ {id' k'}, id' ≠ n.id.retag → p.member? id' = some k' →
      (p.expel n.id.retag k).objects.get? k' = p.objects.get? k' := fun {id' k'} hne hk' => by
    obtain ⟨y, hy, hid'⟩ := h.object_of_member hk'
    rw [object_expel, if_neg]
    rintro rfl
    rw [hx] at hy
    exact hne (hid'.symm.trans ((congrArg Member.id (Option.some.inj hy)).symm.trans hid))
  refine ⟨⟨h.keyed.fresh, fun {id' k'} hk' => ?_, h.keyed.distinct.erase _, ?_⟩, ?_, fun {id'} hne => ?_⟩
  · rw [member?_expel] at hk'
    split at hk'
    · simp at hk'
    · exact h.keyed.bound hk'
  · rw [hother (Ne.symm hn) h.self]
    exact h.keyed.own
  · rw [member?_expel, if_neg (Ne.symm hn), h.self]
  · rw [reported?_concat]
    split
    · rename_i heq
      subst heq
      exact (member?_expel p _ k _).trans (if_pos rfl)
    · rename_i hdifferent
      exact (h.others hne).of_eq ((member?_expel p _ k _).trans (if_neg (Ne.symm hdifferent)))
        fun _ => hother (Ne.symm hdifferent)

theorem Mirrors.follow {history : List DiscoveryEvent} (h : p.Mirrors m history) (e : DiscoveryEvent) :
    (p.follow e).2.Mirrors m (history ++ [e]) := by
  obtain ⟨presence, n⟩ := e
  by_cases hn : n.id.retag = m.id
  · rw [h.keyed.follow_own hn]
    refine ⟨h.keyed, h.self, fun {id} hid => ?_⟩
    rw [reported?_concat, if_neg (fun heq => hid (heq.symm.trans hn))]
    exact h.others hid
  cases presence with
  | joined =>
    rw [h.keyed.follow_joined hn]
    refine ⟨h.keyed.discover n, ?_, fun {id} hid => h.keyed.shows_joined n fun _ => h.others hid⟩
    rw [member?_discover, if_neg (Ne.symm hn), h.self]
  | left =>
    rw [h.keyed.follow_left hn]
    cases hk : p.member? n.id.retag with
    | some k => exact h.expel hn hk
    | none =>
      refine ⟨h.keyed, h.self, fun {id} hid => ?_⟩
      rw [reported?_concat]
      by_cases heq : n.id.retag = id
      · subst heq
        rw [if_pos rfl]
        exact hk
      · rw [if_neg heq]
        exact h.others hid

theorem Mirrors.isSome_member? {history : List DiscoveryEvent} (h : p.Mirrors m history) (id : MemberId) :
    (p.member? id).isSome ↔ id = m.id ∨ (reported? history id).isSome := by
  by_cases hid : id = m.id
  · simp [hid, h.self]
  · have hshown := h.others hid
    cases hr : reported? history id with
    | none =>
      rw [hr] at hshown
      simp [show p.member? id = none from hshown, hid]
    | some n =>
      rw [hr] at hshown
      obtain ⟨k, hk, -⟩ := hshown
      simp [hk]

end Protocol

end ClusterNet.Membership
