import ClusterNet.Bench.Roster
import ClusterNet.Proofs.Lifecycle

/-!
# Who listens for a service

While a membership service runs, discovery listens to the provider, the protocol to discovery and
the service to the protocol. Each keeps the id under which it listens and takes itself off by that
id. As long as each listens once, an event goes from the provider up to the guests of the service in
one round, and nobody is told of it twice.
-/

namespace ClusterNet

namespace Listeners

variable {L : Type} {r : Listeners L} {own : L → Bool} {id : Option ListenerId}

/-- No id is given twice, and the one listener that is no guest is there under the id that is kept,
if one is kept. -/
structure Seats (r : Listeners L) (own : L → Bool) (id : Option ListenerId) : Prop where
  distinct : r.ids.Nodup
  fresh : ∀ i ∈ r.ids, i < r.nextId
  own_iff : ∀ e ∈ r.entries, own e.2 = true ↔ some e.1 = id
  there : ∀ i, id = some i → i ∈ r.ids

theorem seats_empty (own : L → Bool) : (empty : Listeners L).Seats own none := by
  constructor <;> simp [empty, ids]

theorem Seats.countP_eq (h : r.Seats own id) : r.snapshot.countP own = if id.isSome then 1 else 0 := by
  have hcount : r.snapshot.countP own = r.entries.countP fun e => decide (some e.1 = id) := by
    unfold snapshot
    rw [List.countP_map]
    apply List.countP_congr
    intro e he
    simpa using h.own_iff e he
  rw [hcount]
  cases id with
  | none => simp
  | some i =>
    have hone : r.ids.count i = 1 := List.count_eq_one_of_mem h.distinct (h.there i rfl)
    unfold ids List.count at hone
    rw [List.countP_map] at hone
    simpa [Function.comp_def, beq_eq_decide] using hone

theorem Seats.any_eq (h : r.Seats own id) : r.snapshot.any own = id.isSome := by
  rw [Bool.eq_iff_iff, List.any_eq_true, ← List.countP_pos_iff, h.countP_eq]
  split <;> simp_all

theorem Seats.nobody (h : r.Seats own none) : ∀ l ∈ r.snapshot, own l = false := by
  have hany := h.any_eq
  rw [Option.isSome_none, List.any_eq_false] at hany
  simpa using hany

theorem Seats.countP_le (h : r.Seats own id) : r.snapshot.countP own ≤ 1 := by
  rw [h.countP_eq]
  split <;> omega

theorem Seats.add (h : r.Seats own none) {l : L} (hl : own l = true) :
    (r.add l).2.Seats own (some (r.add l).1) := by
  have hnew : r.nextId ∉ r.ids := fun hin => Nat.lt_irrefl _ (h.fresh _ hin)
  have hids : (r.add l).2.ids = r.ids ++ [r.nextId] := by simp [Listeners.add, ids]
  constructor
  · rw [hids]
    apply h.distinct.append (List.nodup_singleton _)
    simpa using hnew
  · intro i hi
    rw [hids, List.mem_append, List.mem_singleton] at hi
    rcases hi with hi | rfl
    · exact Nat.lt_succ_of_lt (h.fresh i hi)
    · exact Nat.lt_succ_self _
  · rintro ⟨i, k⟩ he
    rcases List.mem_append.mp he with hold | hlast
    · have hne : i ≠ r.nextId := fun heq => hnew (heq ▸ List.mem_map_of_mem hold)
      have hguest := h.own_iff _ hold
      simp only [reduceCtorEq, iff_false] at hguest
      simpa [Listeners.add, hne] using hguest
    · obtain ⟨rfl, rfl⟩ := Prod.mk.inj (List.mem_singleton.mp hlast)
      simpa [Listeners.add] using hl
  · rintro i hi
    rw [hids, ← Option.some.inj hi]
    simp [Listeners.add]

theorem Seats.removeSome (h : r.Seats own id) : (r.removeSome id).Seats own none := by
  cases id with
  | none => exact h
  | some i =>
    have hids : (r.removeSome (some i)).ids = r.ids.filter (· != i) := by
      simp [Listeners.removeSome, remove, ids, List.filter_map, Function.comp_def]
    constructor
    · rw [hids]
      exact h.distinct.filter _
    · intro j hj
      rw [hids] at hj
      exact h.fresh j (List.mem_of_mem_filter hj)
    · intro e he
      obtain ⟨hin, hne⟩ := List.mem_filter.mp he
      have hown := h.own_iff e hin
      simpa [bne_iff_ne.mp hne] using hown
    · simp

theorem Seats.skip (h : r.Seats own id) : (⟨r.entries, r.nextId + 1⟩ : Listeners L).Seats own id where
  distinct := h.distinct
  fresh i hi := Nat.lt_succ_of_lt (h.fresh i hi)
  own_iff := h.own_iff
  there := h.there

theorem Seats.filterMap_removeSome {A : Type} {f : L → Option A} (h : r.Seats own id)
    (hf : ∀ l, own l = true → f l = none) :
    (r.removeSome id).snapshot.filterMap f = r.snapshot.filterMap f := by
  cases id with
  | none => rfl
  | some i =>
    unfold snapshot Listeners.removeSome remove
    rw [List.filterMap_map, List.filterMap_map, List.filterMap_filter]
    apply List.filterMap_congr
    intro e he
    by_cases hi : e.1 = i
    · simp [hi, hf e.2 ((h.own_iff e he).mpr (congrArg some hi))]
    · simp [hi]

/-- Nothing is left of a listener that comes and goes, but its id is not given again. -/
theorem Seats.removeSome_add (h : r.Seats own id) (l : L) :
    (r.add l).2.removeSome (some (r.add l).1) = ⟨r.entries, r.nextId + 1⟩ := by
  have hstay : ∀ e ∈ r.entries, (e.1 != r.nextId) = true := by
    intro e he
    exact bne_iff_ne.mpr (Nat.ne_of_lt (h.fresh e.1 (List.mem_map_of_mem he)))
  unfold Listeners.add Listeners.removeSome remove
  simp [List.filter_append, List.filter_eq_self.mpr hstay]

end Listeners

namespace Membership

open Bench (Floor)

variable {L : Type}

def ProviderListener.isService : ProviderListener L → Bool
  | .guest _ => false
  | .service => true

def DiscoveryListener.isProtocol : DiscoveryListener L → Bool
  | .guest _ => false
  | .protocol => true

def GroupListener.isService : GroupListener L → Bool
  | .guest _ => false
  | .service => true

def GroupListener.guest? : GroupListener L → Option L
  | .guest l => some l
  | .service => none

/-! ## Rounds -/

/-- What some listeners at one floor were told. -/
def heard (f : Floor) (told : List (Floor × Delivery L)) : List (Delivery L) :=
  (told.filter fun d => d.1 = f).map (·.2)

@[simp] theorem heard_nil (f : Floor) : heard f ([] : List (Floor × Delivery L)) = [] := rfl

@[simp] theorem heard_append (f : Floor) (told more : List (Floor × Delivery L)) :
    heard f (told ++ more) = heard f told ++ heard f more := by
  simp [heard]

theorem heard_flatMap {A : Type} (f : Floor) (told : A → List (Floor × Delivery L)) (as : List A) :
    heard f (as.flatMap told) = as.flatMap fun a => heard f (told a) := by
  induction as with
  | nil => rfl
  | cons a as ih => rw [List.flatMap_cons, heard_append, ih, List.flatMap_cons]

theorem heard_map (f f' : Floor) (ds : List (Delivery L)) :
    heard f (ds.map (f', ·)) = if f' = f then ds else [] := by
  unfold heard
  split
  · rename_i heq
    simp [heq, Function.comp_def, List.filter_map]
  · rename_i hne
    simp [hne, List.filter_map, Function.comp_def]

theorem flatMap_own {A D : Type} {own : A → Bool} {f : A → List D} {ds : List D}
    (hguest : ∀ a, own a = false → f a = []) (hown : ∀ a, own a = true → f a = ds) (as : List A) :
    as.flatMap f = (List.replicate (as.countP own) ds).flatten := by
  induction as with
  | nil => rfl
  | cons a as ih =>
    rw [List.flatMap_cons, ih]
    cases ha : own a with
    | false => rw [hguest a ha, List.countP_cons_of_neg (by simp [ha]), List.nil_append]
    | true =>
      rw [hown a ha, List.countP_cons_of_pos ha, List.replicate_succ, List.flatten_cons]

/-- Steps that write into a log. One of them at most, the owner's, moves something too. -/
theorem foldl_round {S A P D : Type} {step : S → A → S} {s : P → List D → S} {own : A → Bool}
    {told : A → List D} {p q : P}
    (hguest : ∀ p log a, own a = false → step (s p log) a = s p ((told a).reverse ++ log))
    (hown : ∀ log a, own a = true → step (s p log) a = s q ((told a).reverse ++ log))
    {as : List A} (hone : as.countP own ≤ 1) (log : List D) :
    as.foldl step (s p log) =
      s (if as.any own then q else p) ((as.flatMap told).reverse ++ log) := by
  -- Behind the owner there are guests only, so nothing moves twice.
  have hguests : ∀ (as : List A) p log, as.countP own = 0 →
      as.foldl step (s p log) = s p ((as.flatMap told).reverse ++ log) := by
    intro as
    induction as with
    | nil => exact fun _ _ _ => rfl
    | cons a as ih =>
      intro p log hnone
      rw [List.countP_cons] at hnone
      have ha : own a = false := by
        by_contra hown
        simp [hown] at hnone
      rw [List.foldl_cons, hguest p log a ha, ih _ _ (by omega), List.flatMap_cons, List.reverse_append,
        List.append_assoc]
  induction as generalizing log with
  | nil => rfl
  | cons a as ih =>
    rw [List.countP_cons] at hone
    rw [List.foldl_cons, List.any_cons, List.flatMap_cons, List.reverse_append, List.append_assoc]
    cases ha : own a with
    | false =>
      rw [hguest p log a ha, ih (by omega), Bool.false_or]
    | true =>
      rw [hown log a ha, hguests _ _ _ (by simp [ha] at hone; simpa using hone), Bool.true_or, if_pos rfl]

namespace Protocol

def guests (p : Protocol L) : List L := p.listeners.snapshot.filterMap GroupListener.guest?

theorem length_notices (p : Protocol L) (e : DiscoveryEvent) : (p.notices e).length ≤ 1 := by
  unfold notices
  cases (p.follow e).1 <;> simp

end Protocol

namespace Roster

variable {g : Roster L}

def protocolTells (g : Roster L) (n : Notice) : GroupListener L → List (Floor × Delivery L)
  | .guest l => [(.protocol, ⟨l, .member n.change n.member⟩)]
  | .service => (n.deliveries g.listeners.snapshot).map (.service, ·)

/-- Whom the protocol tells of something, and the service after it. -/
def noticeRound (g : Roster L) (n : Notice) : List (Floor × Delivery L) :=
  g.protocol.listeners.snapshot.flatMap (g.protocolTells n)

def discoveryTells (g : Roster L) (e : DiscoveryEvent) : DiscoveryListener L → List (Floor × Delivery L)
  | .guest l => [(.discovery, ⟨l, .discovery e⟩)]
  | .protocol => (g.protocol.notices e).flatMap g.noticeRound

/-- Whom discovery tells of an event, and the protocol after it. -/
def spreadRound (g : Roster L) (e : DiscoveryEvent) : List (Floor × Delivery L) :=
  g.discovery.listeners.snapshot.flatMap (g.discoveryTells e)

def providerTells (g : Roster L) (e : DiscoveryEvent) : ProviderListener L → List (Floor × Delivery L)
  | .guest l => [(.provider, ⟨l, .discovery e⟩)]
  | .service => g.spreadRound e

/-- Whom the provider tells of an event, and discovery after it. -/
def postRound (g : Roster L) (e : DiscoveryEvent) : List (Floor × Delivery L) :=
  g.discovery.provider.listeners.snapshot.flatMap (g.providerTells e)

theorem map_noticeRound (g : Roster L) (n : Notice) :
    (g.noticeRound n).map (·.2) = n.deliveries g.audience := by
  unfold noticeRound audience Notice.deliveries
  rw [List.map_flatMap, List.map_flatMap]
  congr 1
  funext l
  cases l with
  | guest l => rfl
  | service => simp [protocolTells, Notice.deliveries, Function.comp_def]

theorem heard_service_noticeRound (g : Roster L) (n : Notice) : heard .service (g.noticeRound n) =
    (List.replicate (g.protocol.listeners.snapshot.countP (·.isService))
      (n.deliveries g.listeners.snapshot)).flatten := by
  unfold noticeRound
  rw [heard_flatMap]
  apply flatMap_own
  · rintro (l | _) hl
    · rfl
    · cases hl
  · rintro (l | _) hl
    · cases hl
    · exact (heard_map _ _ _).trans (if_pos rfl)

theorem heard_protocol_noticeRound (g : Roster L) (n : Notice) :
    heard .protocol (g.noticeRound n) = n.deliveries g.protocol.guests := by
  unfold noticeRound Protocol.guests Notice.deliveries
  rw [heard_flatMap]
  induction g.protocol.listeners.snapshot with
  | nil => rfl
  | cons l ls ih =>
    rw [List.flatMap_cons, ih]
    cases l with
    | guest l => rfl
    | service =>
      rw [protocolTells, heard_map]
      rfl

/-- The floors above the provider and discovery. -/
def Upper (f : Floor) : Prop := f = .protocol ∨ f = .service

theorem heard_spreadRound {f : Floor} (hf : Upper f) (g : Roster L) (e : DiscoveryEvent) :
    heard f (g.spreadRound e) = (List.replicate (g.discovery.listeners.snapshot.countP (·.isProtocol))
      ((g.protocol.notices e).flatMap fun n => heard f (g.noticeRound n))).flatten := by
  unfold spreadRound
  rw [heard_flatMap]
  apply flatMap_own
  · rintro (l | _) hl
    · rcases hf with rfl | rfl <;> rfl
    · cases hl
  · rintro (l | _) hl
    · cases hl
    · exact heard_flatMap f _ _

theorem heard_postRound {f : Floor} (hf : Upper f) (g : Roster L) (e : DiscoveryEvent) :
    heard f (g.postRound e) =
      (List.replicate (g.discovery.provider.listeners.snapshot.countP (·.isService))
        (heard f (g.spreadRound e))).flatten := by
  unfold postRound
  rw [heard_flatMap]
  apply flatMap_own
  · rintro (l | _) hl
    · rcases hf with rfl | rfl <;> rfl
    · cases hl
  · rintro (l | _) hl
    · cases hl
    · rfl

/-- The roster after the protocol has moved, with more in the log. -/
def moved (g : Roster L) (p : Protocol L) (log : List (Delivery L)) : Roster L :=
  { g with protocol := p, log }

theorem spread_eq (hone : g.discovery.listeners.snapshot.countP (·.isProtocol) ≤ 1) (e : DiscoveryEvent) :
    g.spread e = g.moved
      (if g.discovery.listeners.snapshot.any (·.isProtocol) then (g.protocol.follow e).2 else g.protocol)
      (((g.spreadRound e).map (·.2)).reverse ++ g.log) := by
  unfold spread spreadRound
  rw [List.map_flatMap]
  refine foldl_round (s := g.moved) (p := g.protocol) ?_ ?_ hone g.log
  · rintro p log (l | _) hl
    · rfl
    · cases hl
  · rintro log (l | _) hl
    · cases hl
    · change (g.moved g.protocol log).hear e = _
      rw [hear_eq, discoveryTells, List.map_flatMap]
      simp only [map_noticeRound]
      rfl

theorem post_eq (hprovider : g.discovery.provider.listeners.snapshot.countP (·.isService) ≤ 1)
    (hdiscovery : g.discovery.listeners.snapshot.countP (·.isProtocol) ≤ 1) (e : DiscoveryEvent) :
    g.post e = g.moved
      (if g.discovery.provider.listeners.snapshot.any (·.isService) then
        (if g.discovery.listeners.snapshot.any (·.isProtocol) then (g.protocol.follow e).2 else g.protocol)
      else g.protocol)
      (((g.postRound e).map (·.2)).reverse ++ g.log) := by
  unfold post postRound
  rw [List.map_flatMap]
  refine foldl_round (s := g.moved) (p := g.protocol) ?_ ?_ hprovider g.log
  · rintro p log (l | _) hl
    · rfl
    · cases hl
  · rintro log (l | _) hl
    · cases hl
    · exact spread_eq (g := g.moved g.protocol log) hdiscovery e

end Roster

end Membership

end ClusterNet
