import ClusterNet.Proofs.PoolCalls
import Mathlib.Data.List.Perm.Subperm

/-!
# One connection for each slot

While nobody closes everything, a destination has one entry, so that a slot of it is one place. At
most one call connects there at a time, and the connection that is active there, if any, is the
one in the slot.
-/

namespace ClusterNet.Messaging.Pool

variable {p q : Pool} {u v : UserId} {c : ConnectionId}

/-! ## Entries -/

/-- Calls and connections are at the entry that their destination has now. -/
structure Indexed (p : Pool) : Prop where
  calls : ∀ {u g}, p.users.get? u = some (.get g) → p.index.get? g.destination = some g.place.entry
  connections : ∀ {c x}, p.connections.get? c = some x →
    p.index.get? x.destination = some x.place.entry

theorem indexed_ofSize (n : Nat) : (ofSize n).Indexed where
  calls h := by simp [ofSize] at h
  connections h := by simp [ofSize] at h

theorem Indexed.act (h : p.Indexed) {a : PoolAct} (ha : a ≠ .closesAll) : (p.act a).Indexed where
  calls {u g} hu := by
    cases came hu with
    | stayed was => exact (frame_act p ha).index (h.calls was)
    | proceeded g' was move =>
      rw [move.kept.1, move.kept.2]
      exact (frame_act p ha).index (h.calls was)
    | began d subject act new destination slot entry first stage => rwa [destination]
  connections {c x} hc := by
    rcases connection_act hc with ⟨y, hy, hlater⟩ | ⟨u, g, active, -, hu, -, rfl⟩
    · rw [hlater.destination, hlater.place]
      exact (frame_act p ha).index (h.connections hy)
    · exact (frame_act p ha).index (h.calls hu.1)

theorem Indexed.run (h : p.Indexed) {acts : List PoolAct} (hacts : ∀ a ∈ acts, a ≠ .closesAll) :
    (p.run acts).Indexed := by
  induction acts generalizing p with
  | nil => exact h
  | cons a acts ih =>
    exact ih (h.act (hacts a List.mem_cons_self)) fun b hb => hacts b (List.mem_cons_of_mem a hb)

/-! ## Slots of a destination -/

theorem place_eq {a b : Place} (hentry : a.entry = b.entry) (hslot : a.slot = b.slot) : a = b := by
  cases a
  cases b
  exact congr (congrArg Place.mk hentry) hslot

theorem Inv.connects_alone (h : p.Inv) (hindexed : p.Indexed) {g g' : Get} (hu : p.Connects u g)
    (hv : p.Connects v g') (hdestination : g.destination = g'.destination)
    (hslot : g.place.slot = g'.place.slot) : u = v := by
  refine h.connects_unique hu hv (place_eq (Option.some.inj ?_) hslot)
  rw [← hindexed.calls hu.1, ← hindexed.calls hv.1, hdestination]

theorem Inv.active_alone (h : p.Inv) (hindexed : p.Indexed) {d : ConnectionId} {x y : Connection}
    (hc : p.connections.get? c = some x) (hd : p.connections.get? d = some y) (hx : x.active = true)
    (hy : y.active = true) (hdestination : x.destination = y.destination)
    (hslot : x.place.slot = y.place.slot) : c = d := by
  have hplace : x.place = y.place := by
    refine place_eq (Option.some.inj ?_) hslot
    rw [← hindexed.connections hc, ← hindexed.connections hd, hdestination]
  have hcd := h.installed hc hx
  rw [hplace, h.installed hd hy] at hcd
  exact (Option.some.inj hcd).symm

def LeadsTo (p : Pool) (d : Destination) (c : ConnectionId) : Prop :=
  ∃ x, p.connections.get? c = some x ∧ x.active = true ∧ x.destination = d

def slotFor (p : Pool) (c : ConnectionId) : Nat := ((p.connections.get? c).map (·.place.slot)).getD 0

theorem Inv.length_le_size (h : p.Inv) (hindexed : p.Indexed) {d : Destination}
    {cs : List ConnectionId} (hcs : cs.Nodup) (hlead : ∀ c ∈ cs, p.LeadsTo d c) :
    cs.length ≤ p.size := by
  have hinj : ∀ c ∈ cs, ∀ c' ∈ cs, p.slotFor c = p.slotFor c' → c = c' := by
    intro c hc c' hc' hslot
    obtain ⟨x, hx, hactive, hd⟩ := hlead c hc
    obtain ⟨y, hy, hactive', hd'⟩ := hlead c' hc'
    simp only [slotFor, hx, hy, Option.map_some, Option.getD_some] at hslot
    exact h.active_alone hindexed hx hy hactive hactive' (hd.trans hd'.symm) hslot
  have hsub : cs.map p.slotFor ⊆ List.range p.size := by
    intro i hi
    obtain ⟨c, hc, rfl⟩ := List.mem_map.mp hi
    obtain ⟨x, hx, -, -⟩ := hlead c hc
    simp only [slotFor, hx, Option.map_some, Option.getD_some]
    exact List.mem_range.mpr (h.bounded hx)
  have hnodup : (cs.map p.slotFor).Nodup := List.Nodup.map_on hinj hcs
  have hle := (hnodup.subperm hsub).length_le
  rwa [List.length_map, List.length_range] at hle

/-! ## Watchers and failed attempts -/

theorem Inv.connection_watch? (h : p.Inv) (hq : p.watch? u = some q) {a : Place}
    (hc : (p.slot a).connection = some c) : (q.slot a).connection = some c ∨
      p.isActive c = false ∧ ∃ w, p.users.get? u = some (.watch w) ∧ w.connection = c := by
  cases moves_watch? hq with
  | idle => exact .inl hc
  | stirs u w x was watched stage closed => exact .inl (connection_join.trans hc)
  | clears u w x r was watched stage has withdraws =>
    obtain ⟨hw, rfl⟩ | ⟨-, rfl⟩ := withdraws
    · by_cases ha : a = x.place
      · subst ha
        obtain rfl := Option.some.inj (hw.symm.trans hc)
        obtain ⟨y, hy, hclosed⟩ := (h.fit was).2
        exact .inr ⟨(isActive_eq_false hy).mpr (hclosed (by simp [stage])), w, was, rfl⟩
      · left
        rw [connection_leave, slot_setUser, connection_put, if_neg ha, hc]
    · exact .inl (connection_leave.trans hc)

theorem Inv.connectFails?_of_connects (h : p.Inv) {g : Get} (hu : p.Connects u g) (f : Failure) :
    ∃ q, p.connectFails? u f = some q ∧ q.result? u = some (.error f) ∧
      (q.slot g.place).connection = none ∧ (p.slot g.place).line = u :: (q.slot g.place).line := by
  obtain ⟨hhead, hnone⟩ := h.connecting hu
  refine ⟨_, connectFails?_eq hu f, ?_, connection_leave.trans hnone, ?_⟩
  · exact result?_eq_some.mpr ⟨_, (users_setUser p u _ u).trans (if_pos rfl), rfl⟩
  · have hline : ((p.endGet u g (.error f)).slot g.place).line =
        (p.slot g.place).line.filter (· != u) :=
      (line_leave _ g.place u g.place).trans (if_pos rfl)
    rw [hline]
    have hnodup := (h.lines g.place).1
    cases hl : (p.slot g.place).line with
    | nil => simp [hl] at hhead
    | cons w l =>
      simp only [hl] at hhead hnodup
      obtain rfl := Option.some.inj hhead
      have hw := (List.nodup_cons.mp hnodup).1
      rw [List.filter_cons_of_neg (by simp), List.filter_eq_self.mpr]
      intro v hv
      rw [bne_iff_ne]
      rintro rfl
      exact hw hv

/-! ## Every run -/

/-- What holds at every moment while nobody closes everything. -/
structure Exclusive (p : Pool) : Prop where
  /-- At most one call connects to a slot of a destination. -/
  connecting : ∀ {u v g g'}, p.Connects u g → p.Connects v g' → g.destination = g'.destination →
    g.place.slot = g'.place.slot → u = v
  /-- A connection that is active is the one in its slot, at the entry of its destination. -/
  installed : ∀ {c x}, p.connections.get? c = some x → x.active = true →
    (p.slot x.place).connection = some c ∧ p.index.get? x.destination = some x.place.entry
  /-- At most one connection is active for a slot of a destination. -/
  single : ∀ {c d x y}, p.connections.get? c = some x → p.connections.get? d = some y →
    x.active = true → y.active = true → x.destination = y.destination →
      x.place.slot = y.place.slot → c = d
  few : ∀ {d} {cs : List ConnectionId}, cs.Nodup → (∀ c ∈ cs, p.LeadsTo d c) → cs.length ≤ p.size
  /-- A watcher takes out its own connection at most, and only when that has closed. -/
  watchers : ∀ {u q a c}, p.watch? u = some q → (p.slot a).connection = some c →
    (q.slot a).connection = some c ∨
      p.isActive c = false ∧ ∃ w, p.users.get? u = some (.watch w) ∧ w.connection = c
  /-- Whose attempt fails gets the failure, and leaves an empty slot to the next in line. -/
  failing : ∀ {u g} f, p.Connects u g → ∃ q, p.connectFails? u f = some q ∧
    q.result? u = some (.error f) ∧ (q.slot g.place).connection = none ∧
      (p.slot g.place).line = u :: (q.slot g.place).line

theorem Inv.exclusive (h : p.Inv) (hindexed : p.Indexed) : p.Exclusive where
  connecting := h.connects_alone hindexed
  installed hc hactive := ⟨h.installed hc hactive, hindexed.connections hc⟩
  single := h.active_alone hindexed
  few := h.length_le_size hindexed
  watchers hq hc := h.connection_watch? hq hc
  failing f hu := h.connectFails?_of_connects hu f

/-- Slots are exclusive in every run in which nobody closes everything. A call begins to connect
three times at most. If it gives back a connection, its slot offered this connection at one moment
when the call was still open, and if it fails, the last attempt has failed so or there was none
left. -/
theorem slots_are_exclusive (n : Nat) (acts : List PoolAct) (hacts : ∀ a ∈ acts, a ≠ .closesAll) :
    ((ofSize n).run acts).Exclusive ∧ ((ofSize n).run acts).size = max n 1 ∧
      (∀ u, launches u (ofSize n) acts ≤ attemptLimit) ∧
        ∀ u r, ((ofSize n).run acts).result? u = some r → ∃ pre a post g, acts = pre ++ a :: post ∧
          ((ofSize n).run pre).users.get? u = some (.get g) ∧ g.isOpen = true ∧
            ((ofSize n).run pre).Reason a u g r := by
  have hinv := (inv_ofSize n).run acts
  refine ⟨hinv.exclusive ((indexed_ofSize n).run hacts), ?_, fun u => ?_, fun u r => ?_⟩
  · exact size_run (ofSize n) acts
  · exact (inv_ofSize n).launches_le acts u
  · exact result?_run (ofSize n) rfl acts

/-- A call whose first connection comes closed gets the second one, while another call waits. -/
theorem slots_are_exclusive_retry :
    let acts : List PoolAct := [.begins ⟨⟨"10.0.0.1", 80⟩, .v4 ⟨10, 0, 0, 1⟩⟩ "a", .inspects 0,
      .begins ⟨⟨"10.0.0.1", 80⟩, .v4 ⟨10, 0, 0, 1⟩⟩ "b", .connects 0 0 false, .watches 2,
      .inspects 1, .fails 1 .io, .inspects 0, .connects 0 1 true, .watches 2]
    ((ofSize 1).run acts).result? 0 = some (.ok 1) ∧ launches 0 (ofSize 1) acts = 2 ∧
      (((ofSize 1).run acts).slot ⟨0, 0⟩).connection = some 1 := by
  intro acts
  have h := slots_are_exclusive 1 acts (by simp [acts])
  refine ⟨by decide +kernel, ?_, (h.1.installed (x := ⟨⟨⟨"10.0.0.1", 80⟩, .v4 ⟨10, 0, 0, 1⟩⟩, ⟨0, 0⟩, true⟩) rfl rfl).1⟩
  decide +kernel

end ClusterNet.Messaging.Pool
