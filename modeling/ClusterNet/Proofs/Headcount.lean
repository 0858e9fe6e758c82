import ClusterNet.Proofs.Overlap

/-!
# Who is counted

A node that starts from its configuration has each id among its members once, its own too. It is the id
that tells members apart, not the address. So a list of peers in which the node itself stands under
another id gives it a second member at its own address, and nothing else does.
-/

namespace ClusterNet

theorem Member.address_build (id : MemberId) (address : Address) (details : List Detail) :
    (Member.build id address details).address = address := by
  have hfold : ∀ (ds : List Detail) (m : Member), (ds.foldl withDetail m).address = m.address := by
    intro ds
    induction ds with
    | nil => exact fun m => rfl
    | cons d ds ih =>
      intro m
      have hdetail : (m.withDetail d).address = m.address := by cases d <;> rfl
      rw [List.foldl_cons, ih, hdetail]
  exact hfold details _

namespace Membership

variable {L : Type}

theorem mem_of_reported?_arrivals {nodes : List Node} {id : MemberId} {n : Node}
    (h : reported? (arrivals nodes) id = some n) : n ∈ nodes := by
  obtain ⟨e, he, hn⟩ := Option.bind_eq_some_iff.mp h
  have hin := List.mem_of_find?_eq_some he
  rw [List.mem_reverse] at hin
  obtain ⟨n', hn', rfl⟩ := List.mem_map.mp hin
  rwa [← Option.some.inj hn]

namespace Protocol

variable {p : Protocol L} {m : Member} {id : MemberId} {k : MemberKey} {history : List DiscoveryEvent}

theorem Mirrors.own_or_reported (h : p.Mirrors m history) (hk : p.member? id = some k) :
    id = m.id ∧ p.object k = m ∨
      id ≠ m.id ∧ ∃ n, reported? history id = some n ∧ p.object k = (Member.ofNode n).marked true := by
  unfold object
  by_cases hid : id = m.id
  · left
    rw [hid, h.self] at hk
    rw [← Option.some.inj hk, h.keyed.own]
    exact ⟨hid, rfl⟩
  · right
    have hshown := h.others hid
    cases hr : reported? history id with
    | none =>
      rw [hr] at hshown
      exact absurd (hk.symm.trans hshown) (by simp)
    | some n =>
      rw [hr] at hshown
      obtain ⟨k', hk', hobject⟩ := hshown
      obtain rfl := Option.some.inj (hk.symm.trans hk')
      exact ⟨hid, n, rfl, by rw [hobject, Option.getD_some]⟩

end Protocol

namespace Roster

variable {g : Roster L} {m : Member} {nodes : List Node} {history : List DiscoveryEvent}

/-- The members of a node that knows these nodes, as far as they can be told apart. -/
structure Counted (members : List Member) (m : Member) (nodes : List Node) : Prop where
  ids : (members.map (·.id)).Nodup
  own : m ∈ members
  others : ∀ x ∈ members, x = m ∨
    x.id ≠ m.id ∧ ∃ n, reported? (arrivals nodes) x.id = some n ∧ x = (Member.ofNode n).marked true
  listed : ∀ n ∈ nodes, ∃ x ∈ members, x.id = n.id.retag

theorem mem_members (h : g.protocol.Mirrors m history) {x : Member} :
    x ∈ g.members ↔ ∃ id k, g.protocol.member? id = some k ∧ g.protocol.object k = x := by
  unfold members
  rw [List.mem_map]
  constructor
  · rintro ⟨k, hk, rfl⟩
    obtain ⟨id, hid⟩ := (Table.mem_values h.keyed.distinct).mp hk
    exact ⟨id, k, hid, rfl⟩
  · rintro ⟨id, k, hk, rfl⟩
    exact ⟨k, (Table.mem_values h.keyed.distinct).mpr ⟨id, hk⟩, rfl⟩

theorem ids_members (h : g.protocol.Mirrors m history) :
    g.members.map (·.id) = g.protocol.members.keys := by
  unfold members Table.values Table.keys
  rw [List.map_map, List.map_map]
  apply List.map_congr_left
  intro e he
  have hk : g.protocol.member? e.1 = some e.2 := Table.lookup_of_mem h.keyed.distinct he
  obtain ⟨x, hx, hid⟩ := h.object_of_member hk
  change (g.protocol.object e.2).id = e.1
  rw [Protocol.object, hx, Option.getD_some, hid]

theorem counted_of_mirrors (h : g.protocol.Mirrors m (arrivals nodes)) : Counted g.members m nodes := by
  refine ⟨?_, ?_, ?_, ?_⟩
  · rw [ids_members h]
    exact h.keyed.distinct
  · exact (mem_members h).mpr ⟨m.id, _, h.self, h.keyed.localMember⟩
  · intro x hx
    obtain ⟨id, k, hk, rfl⟩ := (mem_members h).mp hx
    rcases h.own_or_reported hk with ⟨-, hown⟩ | ⟨hother, n, hr, hn⟩
    · exact .inl hown
    · have hid : (g.protocol.object k).id = id := by
        rw [hn]
        exact id_of_reported? hr
      rw [hid]
      exact .inr ⟨hother, n, hr, hn⟩
  · intro n hn
    have hsome : (g.protocol.member? n.id.retag).isSome :=
      (h.isSome_member? _).mpr (.inr ((isSome_reported?_arrivals _ _).mpr (List.mem_map_of_mem hn)))
    obtain ⟨k, hk⟩ := Option.isSome_iff_exists.mp hsome
    obtain ⟨x, hx, hid⟩ := h.object_of_member hk
    refine ⟨g.protocol.object k, (mem_members h).mpr ⟨_, k, hk, rfl⟩, ?_⟩
    rw [Protocol.object, hx, Option.getD_some, hid]

/-- If the nodes have an address each, no two members share one unless one of them is the node itself
under another id. -/
theorem Counted.nodup_addresses {members : List Member} (h : Counted members m nodes)
    (hnodes : (nodes.map (·.address)).Nodup) : (members.map (·.address)).Nodup ↔
      ∀ n ∈ nodes, reported? (arrivals nodes) n.id.retag = some n → n.address = m.address →
        n.id.retag = m.id := by
  constructor
  · intro hnodup n hn hr haddress
    obtain ⟨x, hx, hid⟩ := h.listed n hn
    rcases h.others x hx with rfl | ⟨hother, n', hr', rfl⟩
    · exact hid.symm
    · rw [hid, hr] at hr'
      obtain rfl := Option.some.inj hr'
      have hsame := List.inj_on_of_nodup_map hnodup hx h.own haddress
      exact absurd (congrArg Member.id hsame) hother
  · intro hown
    apply List.Nodup.map_on _ h.ids.of_map
    -- Two members at one address have one id.
    intro x hx y hy haddress
    apply List.inj_on_of_nodup_map h.ids hx hy
    rcases h.others x hx with rfl | ⟨hother, n, hr, rfl⟩ <;>
      rcases h.others y hy with rfl | ⟨hother', n', hr', rfl⟩
    · rfl
    · exact (hown n' (mem_of_reported?_arrivals hr') hr' haddress.symm).symm
    · exact hown n (mem_of_reported?_arrivals hr) hr haddress
    · have hsame := List.inj_on_of_nodup_map hnodes (mem_of_reported?_arrivals hr)
        (mem_of_reported?_arrivals hr') haddress
      rw [hsame]

theorem mirrors_joinProtocol (h : g.Idle m) :
    g.joinProtocol.protocol.Mirrors m (arrivals g.discovery.provider.nodes) := by
  have hrun := Chronicle.mirrors_run h []
  rwa [List.append_nil] at hrun

end Roster

end Membership

namespace Cluster.Stack

open ClusterNet.Membership Messaging PubSub

variable {n : Stack} {config : Config} {m : Member}

theorem ofConfig_ok (hflaw : config.flaw? = none) (generated : MemberId) (clock : UInt64) :
    ∃ n, ofConfig config generated clock = .ok n ∧ n.stopped = false ∧ n.running = false ∧
      n.roster = .ofLocal (config.node.member generated) (.ofNodes config.nodes) := by
  unfold ofConfig ofProvider
  rw [hflaw]
  exact ⟨_, rfl, rfl, rfl, rfl⟩

theorem start_joins {nodes : List Node} (hstopped : n.stopped = false) (hrunning : n.running = false)
    (hroster : n.roster = .ofLocal m (.ofNodes nodes)) (now : Nat) (ports : Ports) :
    (∃ f, (n.start now ports).1 = .error (.messaging f) ∧ (n.start now ports).2.1.members = []) ∨
      (n.start now ports).1 = .ok () ∧
        (n.start now ports).2.1.roster.protocol.Mirrors (m.marked true) (arrivals nodes) := by
  have hjoin : n.roster.discovery.provider.join = .ok () := by
    rw [hroster]
    rfl
  obtain ⟨ports', hstart⟩ := start_eq n now ports
  rw [hstart, attempt_fresh hstopped hrunning, hjoin]
  cases (ports.bind n.messaging.address).1 with
  | error f =>
    left
    refine ⟨f, rfl, ?_⟩
    change n.roster.members = []
    rw [hroster]
    rfl
  | ok socket =>
    right
    have hentering : (n.listening.entering socket).roster =
        n.roster.beginStart.setDiscovery n.roster.discovery.beginStart := rfl
    rw [hroster] at hentering
    have hgate : (n.listening.entering socket).roster.gate = ⟨none, none⟩ := by
      rw [hentering]
      rfl
    obtain ⟨mail, hjoined⟩ := joined_ok hgate now
    dsimp only
    rw [hjoined]
    refine ⟨rfl, ?_⟩
    rw [protocol_entered hgate, hentering]
    have hstands := (Roster.stands_ofLocal (L := ServiceKey) m (.ofNodes nodes)).beginStart
    apply Roster.mirrors_joinProtocol
    exact ⟨rfl, rfl, (hstands.markLocal true).apart.keyed⟩

/-- A node that starts from its configuration counts each id once. If its peers have an address each, its
members have too, unless a peer that counts has the address of the node and another id. -/
theorem members_are_counted_once (hflaw : config.flaw? = none)
    (hpeers : (config.peers.map (·.address)).Nodup) (generated : MemberId) (clock : UInt64) :
    let m := (config.node.member generated).marked true
    ∃ n, ofConfig config generated clock = .ok n ∧ ∀ now ports,
      (∃ f, (n.start now ports).1 = .error (.messaging f) ∧ (n.start now ports).2.1.members = []) ∨
        (n.start now ports).1 = .ok () ∧
          Roster.Counted (n.start now ports).2.1.members m config.nodes ∧
          (((n.start now ports).2.1.members.map (·.address)).Nodup ↔
            ∀ p ∈ config.nodes, reported? (arrivals config.nodes) p.id.retag = some p →
              p.address = config.node.address → p.id.retag = m.id) := by
  intro m
  obtain ⟨n, hn, hstopped, hrunning, hroster⟩ := ofConfig_ok hflaw generated clock
  refine ⟨n, hn, fun now ports => ?_⟩
  rcases start_joins hstopped hrunning hroster now ports with hdeaf | ⟨hok, hmirrors⟩
  · exact .inl hdeaf
  · have hcounted := Roster.counted_of_mirrors hmirrors
    refine .inr ⟨hok, hcounted, ?_⟩
    have hnodes : (config.nodes.map (·.address)).Nodup := by
      unfold Config.nodes
      rwa [List.map_map]
    have haddress : m.address = config.node.address := Member.address_build _ _ _
    rw [← haddress]
    exact hcounted.nodup_addresses hnodes

/-- A peer without an id, and one that has the id and the address of the node itself. -/
theorem members_are_counted_once_listed :
    let own : Address := ⟨"127.0.0.1", 7000⟩
    let config : Config :=
      { node := { id := some "solo", address := own }
        peers := [⟨none, ⟨"127.0.0.1", 7001⟩⟩, ⟨some "solo", own⟩] }
    config.flaw? = none ∧ (config.peers.map (·.address)).Nodup ∧ ∃ n, ofConfig config ⟨"x"⟩ 0 = .ok n ∧
      (n.start 0 .start).1 = .ok () ∧ ((n.start 0 .start).2.1.members.map (·.address)).Nodup := by
  intro own config
  have hflaw : config.flaw? = none := by decide +kernel
  have hpeers : (config.peers.map (·.address)).Nodup := by decide +kernel
  obtain ⟨n, hn, hstart⟩ := members_are_counted_once hflaw hpeers ⟨"x"⟩ 0
  have hruns : (ofConfig config ⟨"x"⟩ 0).toOption.map (fun n => (n.start 0 .start).1.isOk) = some true := by
    decide +kernel
  rw [hn] at hruns
  rcases hstart 0 .start with ⟨f, hf, -⟩ | ⟨hok, -, haddresses⟩
  · have hfails : some (n.start 0 .start).1.isOk = some true := hruns
    rw [hf] at hfails
    cases hfails
  · exact ⟨hflaw, hpeers, n, hn, hok, haddresses.mpr (by decide +kernel)⟩

/-- A peer without an id at the address of the node itself: two members at one address. -/
theorem a_node_is_counted_twice :
    let own : Address := ⟨"127.0.0.1", 7000⟩
    let config : Config := { node := { id := some "solo", address := own }, peers := [⟨none, own⟩] }
    config.flaw? = none ∧ (config.peers.map (·.address)).Nodup ∧
      (ofConfig config ⟨"x"⟩ 0).toOption.map (fun n => ((n.start 0 .start).1.isOk,
        (n.start 0 .start).2.1.members.map (·.address))) = some (true, [own, own]) := by
  decide +kernel

end Cluster.Stack

end ClusterNet
