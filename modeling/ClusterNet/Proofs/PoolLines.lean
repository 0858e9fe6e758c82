import ClusterNet.Proofs.PoolMoves

/-!
# Who waits and who has the slot

Whoever waits for a slot stands in its line once, and stands in no other line. A call that waits
for a new connection is the first of its line and its slot is empty, and a connection that is
active is the one in its slot. Every move keeps this.
-/

namespace ClusterNet.Messaging.Pool

variable {p q : Pool} {u v : UserId} {a b : Place} {c : ConnectionId}

/-! ## Lines -/

/-- A line holds once everyone who stands there. -/
def Lines (line : Place → List UserId) (stands : UserId → Place → Prop) : Prop :=
  ∀ a, (line a).Nodup ∧ ∀ u, u ∈ line a ↔ stands u a

section

variable {line : Place → List UserId} {stands : UserId → Place → Prop}

theorem Lines.congr (h : Lines line stands) {line' : Place → List UserId}
    {stands' : UserId → Place → Prop} (hline : ∀ b, line' b = line b)
    (hstands : ∀ v b, stands' v b ↔ stands v b) : Lines line' stands' := by
  intro b
  rw [hline]
  exact ⟨(h b).1, fun v => by rw [(h b).2, hstands]⟩

theorem Lines.join (h : Lines line stands) (hu : ∀ b, ¬ stands u b) :
    Lines (fun b => if b = a then line b ++ [u] else line b)
      fun v b => stands v b ∨ v = u ∧ b = a := by
  intro b
  obtain ⟨hnodup, hmem⟩ := h b
  by_cases hb : b = a
  · simp only [hb, if_true] at hmem hnodup ⊢
    have hnot : u ∉ line a := fun hin => hu a ((hmem u).mp hin)
    refine ⟨List.nodup_append.mpr ⟨hnodup, List.nodup_singleton u, ?_⟩, fun v => ?_⟩
    · intro v hv w hw
      rw [List.mem_singleton.mp hw]
      rintro rfl
      exact hnot hv
    · rw [List.mem_append, hmem, List.mem_singleton, and_true]
  · simp only [hb, if_false, and_false, or_false]
    exact ⟨hnodup, hmem⟩

theorem Lines.leave (h : Lines line stands) :
    Lines (fun b => if b = a then (line b).filter (· != u) else line b)
      fun v b => stands v b ∧ ¬ (v = u ∧ b = a) := by
  intro b
  obtain ⟨hnodup, hmem⟩ := h b
  by_cases hb : b = a
  · simp only [hb, if_true, and_true] at hmem hnodup ⊢
    refine ⟨hnodup.filter _, fun v => ?_⟩
    rw [List.mem_filter, hmem, bne_iff_ne]
  · simp only [hb, if_false, and_false, not_false_iff, and_true]
    exact ⟨hnodup, hmem⟩

end

/-- Where a user of this kind stands. -/
def seats (p : Pool) (a : Place) : User → Prop
  | .get g => g.isOpen ∧ g.place = a
  | .watch w => w.stage = .queued ∧ (p.connections.get? w.connection).map (·.place) = some a
  | .sweep s => s.queued ∧ s.left.head? = some a

def stands (p : Pool) (u : UserId) (a : Place) : Prop := ∃ x, p.users.get? u = some x ∧ p.seats a x

/-- What is true of a user that is there. -/
def Fit (p : Pool) : User → Prop
  | .get g => 1 ≤ g.attempt ∧ g.attempt ≤ attemptLimit ∧ g.place.slot < p.size
  | .watch w => ∃ x, p.connections.get? w.connection = some x ∧ (w.stage ≠ .watching → x.active = false)
  | .sweep _ => True

structure Inv (p : Pool) : Prop where
  roomy : 0 < p.size
  lines : Lines (fun a => (p.slot a).line) p.stands
  fit : ∀ {u x}, p.users.get? u = some x → u < p.nextUser ∧ p.Fit x
  /-- Whoever waits for a connection has the slot, and the slot is empty. -/
  connecting : ∀ {u g}, p.Connects u g →
    (p.slot g.place).line.head? = some u ∧ (p.slot g.place).connection = none
  /-- An active connection is in its slot. -/
  installed : ∀ {c x}, p.connections.get? c = some x → x.active = true →
    (p.slot x.place).connection = some c
  bounded : ∀ {c x}, p.connections.get? c = some x → x.place.slot < p.size

theorem inv_ofSize (n : Nat) : (ofSize n).Inv where
  roomy := Nat.lt_of_lt_of_le Nat.one_pos (Nat.le_max_right n 1)
  lines a := ⟨List.nodup_nil, fun u => by simp [slot, ofSize, stands]⟩
  fit h := by simp [ofSize] at h
  connecting h := by simp [ofSize, Connects] at h
  installed h := by simp [ofSize] at h
  bounded h := by simp [ofSize] at h

theorem Inv.not_stands (h : p.Inv) (hu : p.nextUser ≤ u) (a : Place) : ¬ p.stands u a := by
  rintro ⟨x, hx, -⟩
  exact absurd (h.fit hx).1 (Nat.not_lt.mpr hu)

theorem Inv.connects_unique (h : p.Inv) {g g' : Get} (hu : p.Connects u g) (hv : p.Connects v g')
    (hplace : g.place = g'.place) : u = v := by
  have hhead := (h.connecting hu).1
  rw [hplace, (h.connecting hv).1] at hhead
  exact (Option.some.inj hhead).symm

theorem stands_get {g : Get} (hu : p.users.get? u = some (.get g)) :
    p.stands u a ↔ g.isOpen = true ∧ g.place = a := by
  simp [stands, hu, seats]

theorem stands_watch {w : Watch} (hu : p.users.get? u = some (.watch w)) : p.stands u a ↔
    w.stage = .queued ∧ (p.connections.get? w.connection).map (·.place) = some a := by
  simp [stands, hu, seats]

theorem stands_sweep {s : Sweep} (hu : p.users.get? u = some (.sweep s)) : p.stands u a ↔
    s.queued = true ∧ s.left.head? = some a := by
  simp [stands, hu, seats]

/-! ## Changes of one user -/

def withUsers (p : Pool) (users : Table UserId User) : Pool := { p with users }

@[simp] theorem users_withUsers (users : Table UserId User) : (p.withUsers users).users = users := rfl

@[simp] theorem slot_withUsers (users : Table UserId User) : (p.withUsers users).slot a = p.slot a := rfl

/-- The user `u` is now `o`, and everyone else is as before. -/
def Becomes (p : Pool) (users : Table UserId User) (u : UserId) (o : Option User) : Prop :=
  ∀ v, users.get? v = if v = u then o else p.users.get? v

theorem becomes_insert (p : Pool) (u : UserId) (x : User) :
    p.Becomes (p.users.insert u x) u (some x) :=
  fun v => Table.get?_insert p.users u v x

theorem becomes_erase (p : Pool) (u : UserId) : p.Becomes (p.users.erase u) u none :=
  fun v => Table.get?_erase p.users u v

section

variable {o : Option User}

theorem stands_of_becomes (q : Pool) (h : p.Becomes q.users u o)
    (hconn : q.connections = p.connections) (v : UserId) (b : Place) :
    q.stands v b ↔ (v = u ∧ ∃ x, o = some x ∧ p.seats b x) ∨ (v ≠ u ∧ p.stands v b) := by
  have hseats : ∀ x, q.seats b x ↔ p.seats b x := by
    intro x
    cases x <;> simp [seats, hconn]
  simp only [stands, h v, hseats]
  by_cases hv : v = u <;> simp [hv]

theorem Connects.of_becomes {g : Get} (hv : q.Connects v g) (h : p.Becomes q.users u o) :
    (v = u ∧ o = some (.get g) ∧ g.stage = .connecting) ∨ (v ≠ u ∧ p.Connects v g) := by
  obtain ⟨hg, hstage⟩ := hv
  rw [h v] at hg
  split at hg
  · rename_i hvu
    exact .inl ⟨hvu, hg, hstage⟩
  · rename_i hvu
    exact .inr ⟨hvu, hg, hstage⟩

end

theorem head?_leave (h : (p.slot b).line.head? = some v) (hne : v ≠ u) (a : Place) :
    ((p.leave a u).slot b).line.head? = some v := by
  rw [line_leave]
  split
  · cases hline : (p.slot b).line with
    | nil => simp [hline] at h
    | cons w l =>
      rw [hline] at h
      obtain rfl := Option.some.inj h
      simp [hne]
  · exact h

theorem head?_join (h : (p.slot b).line.head? = some v) (a : Place) (u : UserId) :
    ((p.join a u).slot b).line.head? = some v := by
  rw [line_join]
  split
  · rw [List.head?_append, h]
    rfl
  · exact h

theorem Inv.depart (h : p.Inv) {users : Table UserId User} {o : Option User}
    (husers : p.Becomes users u o) (hu : o = none ∨ u < p.nextUser)
    (hstood : ∀ b, p.stands u b → b = a) (ho : ∀ x, o = some x → p.Fit x ∧ ∀ b, ¬ p.seats b x) :
    ((p.leave a u).withUsers users).Inv where
  roomy := h.roomy
  lines := by
    refine (h.lines.leave (u := u) (a := a)).congr (line_leave p a u) fun v b => ?_
    refine (stands_of_becomes ((p.leave a u).withUsers users) husers rfl v b).trans ?_
    by_cases hv : v = u
    · simp only [hv, true_and, ne_eq, not_true, false_and, or_false]
      constructor
      · rintro ⟨x, hx, hseats⟩
        exact absurd hseats ((ho x hx).2 b)
      · rintro ⟨hs, hb⟩
        exact absurd (hstood b hs) hb
    · simp [hv]
  fit {v x} hv := by
    rw [users_withUsers, husers v] at hv
    split at hv
    · rename_i hvu
      rcases hu with hnone | hlt
      · simp [hnone] at hv
      · rw [hvu]
        exact ⟨hlt, (ho x hv).1⟩
    · exact h.fit hv
  connecting {v g} hv := by
    rcases hv.of_becomes husers with ⟨-, hg, hstage⟩ | ⟨hvu, hg⟩
    · exact absurd ⟨by simp [Get.isOpen, hstage], rfl⟩ ((ho _ hg).2 g.place)
    · rw [slot_withUsers, connection_leave]
      exact ⟨head?_leave (h.connecting hg).1 hvu a, (h.connecting hg).2⟩
  installed hc hactive := by
    rw [slot_withUsers, connection_leave]
    exact h.installed hc hactive
  bounded := h.bounded

theorem Inv.arrive (h : p.Inv) {users : Table UserId User} {x : User}
    (husers : p.Becomes users u (some x)) (hu : u < p.nextUser) (hstood : ∀ b, ¬ p.stands u b)
    (hfit : p.Fit x) (hseats : ∀ b, p.seats b x ↔ b = a)
    (hstage : ∀ g, x = .get g → g.stage ≠ .connecting) :
    ((p.withUsers users).join a u).Inv where
  roomy := h.roomy
  lines := by
    refine (h.lines.join hstood (a := a)).congr (line_join (p.withUsers users) a u) fun v b => ?_
    refine (stands_of_becomes ((p.withUsers users).join a u) husers rfl v b).trans ?_
    by_cases hv : v = u
    · subst hv
      simp [hseats, hstood]
    · simp [hv]
  fit {v y} hv := by
    rw [users_join, users_withUsers, husers v] at hv
    split at hv
    · rename_i hvu
      rw [hvu, ← Option.some.inj hv]
      exact ⟨hu, hfit⟩
    · exact h.fit hv
  connecting {v g} hv := by
    rcases hv.of_becomes husers with ⟨-, hg, hg'⟩ | ⟨hvu, hg⟩
    · exact absurd hg' (hstage g (Option.some.inj hg))
    · rw [connection_join]
      exact ⟨head?_join (p := p.withUsers users) (h.connecting hg).1 a u, (h.connecting hg).2⟩
  installed hc hactive := by
    rw [connection_join]
    exact h.installed hc hactive
  bounded := h.bounded

theorem Inv.enter (h : p.Inv) {x : User} (hfit : p.Fit x) (hseats : ∀ b, ¬ p.seats b x) :
    (p.addUser x).2.Inv where
  roomy := h.roomy
  lines := by
    refine h.lines.congr (fun _ => rfl) fun v b => ?_
    refine (stands_of_becomes (p.addUser x).2 (becomes_insert p p.nextUser x) rfl v b).trans ?_
    by_cases hv : v = p.nextUser
    · subst hv
      simp [hseats, h.not_stands]
    · simp [hv]
  fit {v y} hv := by
    rw [show (p.addUser x).2.users = p.users.insert p.nextUser x from rfl, Table.get?_insert] at hv
    split at hv
    · rename_i hvu
      rw [hvu, ← Option.some.inj hv]
      exact ⟨Nat.lt_succ_self _, hfit⟩
    · exact ⟨Nat.lt_succ_of_lt (h.fit hv).1, (h.fit hv).2⟩
  connecting {v g} hv := by
    rcases hv.of_becomes (becomes_insert p p.nextUser x) with ⟨-, hg, hstage⟩ | ⟨-, hg⟩
    · obtain rfl := Option.some.inj hg
      exact absurd ⟨by simp [Get.isOpen, hstage], rfl⟩ (hseats g.place)
    · exact h.connecting hg
  installed := h.installed
  bounded := h.bounded

theorem Inv.launch (h : p.Inv) {g : Get} (hu : p.users.get? u = some (.get g))
    (hstage : g.stage = .queued) (hhas : p.has g.place u = true)
    (hnone : (p.slot g.place).connection = none) :
    (p.setUser u (.get { g with stage := .connecting })).Inv where
  roomy := h.roomy
  lines := by
    refine h.lines.congr (fun _ => rfl) fun v b => ?_
    refine (stands_of_becomes (p.setUser u _) (becomes_insert p u _) rfl v b).trans ?_
    by_cases hv : v = u
    · subst hv
      simp [seats, Get.isOpen, stands_get hu, hstage]
    · simp [hv]
  fit {v x} hv := by
    rw [users_setUser] at hv
    split at hv
    · rename_i hvu
      rw [hvu, ← Option.some.inj hv]
      exact h.fit hu
    · exact h.fit hv
  connecting {v g'} hv := by
    rcases hv.of_becomes (becomes_insert p u _) with ⟨rfl, hg, -⟩ | ⟨-, hg⟩
    · obtain rfl := User.get.inj (Option.some.inj hg)
      exact ⟨by simpa [has] using hhas, hnone⟩
    · exact h.connecting hg
  installed := h.installed
  bounded := h.bounded

/-! ## Changes of slots and connections -/

theorem stands_congr (husers : q.users = p.users)
    (hplace : ∀ {u w}, p.users.get? u = some (.watch w) →
      (q.connections.get? w.connection).map (·.place) = (p.connections.get? w.connection).map (·.place))
    (v : UserId) (b : Place) : q.stands v b ↔ p.stands v b := by
  simp only [stands, husers]
  refine exists_congr fun x => and_congr_right fun hx => ?_
  cases x with
  | watch w => rw [seats, seats, hplace hx]
  | get g => rfl
  | sweep s => rfl

theorem Inv.clear (h : p.Inv) (hidle : ∀ {c x}, p.connections.get? c = some x → x.active = true →
    x.place ≠ a) : (p.put a none).Inv where
  roomy := h.roomy
  lines := h.lines.congr (fun _ => line_put none) (stands_congr rfl fun _ => rfl)
  fit := h.fit
  connecting {u g} hu := by
    rw [line_put, connection_put]
    refine ⟨(h.connecting hu).1, ?_⟩
    split
    · rfl
    · exact (h.connecting hu).2
  installed hc hactive := by
    rw [connection_put, if_neg (hidle hc hactive)]
    exact h.installed hc hactive
  bounded := h.bounded

theorem Inv.close (h : p.Inv) (c : ConnectionId) : (p.close c).Inv where
  roomy := h.roomy
  lines := by
    refine h.lines.congr (fun _ => rfl) (stands_congr rfl fun {u w} _ => ?_)
    rw [connections_close]
    split
    · cases p.connections.get? w.connection <;> rfl
    · rfl
  fit {u x} hu := by
    refine ⟨(h.fit hu).1, ?_⟩
    have hfit := (h.fit hu).2
    cases x with
    | get g => exact hfit
    | sweep s => trivial
    | watch w =>
      obtain ⟨y, hy, hclosed⟩ := hfit
      simp only [Fit, connections_close, hy]
      split
      · exact ⟨_, rfl, fun _ => rfl⟩
      · exact ⟨y, rfl, hclosed⟩
  connecting := h.connecting
  installed {d x} hd hactive := by
    rw [connections_close] at hd
    split at hd
    · obtain ⟨y, -, rfl⟩ := Option.map_eq_some_iff.mp hd
      simp at hactive
    · exact h.installed hd hactive
  bounded {d x} hd := by
    rw [connections_close] at hd
    split at hd
    · obtain ⟨y, hy, rfl⟩ := Option.map_eq_some_iff.mp hd
      exact h.bounded (x := y) hy
    · exact h.bounded hd

theorem Inv.deposit (h : p.Inv) {x : Connection} (hnew : p.connections.get? c = none)
    (hnone : (p.slot x.place).connection = none) (hfree : ∀ {u g}, p.Connects u g → g.place ≠ x.place)
    (hbounded : x.place.slot < p.size) :
    (({ p with connections := p.connections.insert c x } : Pool).put x.place (some c)).Inv where
  roomy := h.roomy
  lines := by
    refine h.lines.congr (fun _ => line_put (some c)) (stands_congr rfl fun {u w} hw => ?_)
    obtain ⟨y, hy, -⟩ := (h.fit hw).2
    rw [connections_put, Table.get?_insert_of_ne]
    rintro rfl
    simp [hnew] at hy
  fit {u x} hu := by
    refine ⟨(h.fit hu).1, ?_⟩
    have hfit := (h.fit hu).2
    cases x with
    | get g => exact hfit
    | sweep s => trivial
    | watch w =>
      obtain ⟨y, hy, hclosed⟩ := hfit
      refine ⟨y, ?_, hclosed⟩
      rw [connections_put, Table.get?_insert_of_ne, hy]
      rintro rfl
      simp [hnew] at hy
  connecting {u g} hu := by
    rw [line_put, connection_put, if_neg (hfree hu)]
    exact h.connecting hu
  installed {d y} hd hactive := by
    rw [connections_put, Table.get?_insert] at hd
    rw [connection_put]
    split at hd
    · rename_i hdc
      rw [← Option.some.inj hd, if_pos rfl, hdc]
    · rw [if_neg, ← h.installed hd hactive]
      · rfl
      · intro hplace
        have hd' := h.installed hd hactive
        rw [hplace, hnone] at hd'
        simp at hd'
  bounded {d y} hd := by
    rw [connections_put, Table.get?_insert] at hd
    split at hd
    · rw [← Option.some.inj hd]
      exact hbounded
    · exact h.bounded hd

theorem Inv.congr (h : p.Inv) (husers : ∀ u, q.users.get? u = p.users.get? u)
    (hline : ∀ a, (q.slot a).line = (p.slot a).line)
    (hconnection : ∀ a, (q.slot a).connection = (p.slot a).connection)
    (hconnections : q.connections = p.connections) (hnext : q.nextUser = p.nextUser)
    (hsize : q.size = p.size) : q.Inv where
  roomy := hsize ▸ h.roomy
  lines := by
    refine h.lines.congr hline fun v b => ?_
    simp only [stands, husers]
    refine exists_congr fun x => and_congr_right fun _ => ?_
    cases x <;> simp [seats, hconnections]
  fit {u x} hu := by
    rw [husers] at hu
    rw [hnext]
    refine ⟨(h.fit hu).1, ?_⟩
    have hfit := (h.fit hu).2
    cases x <;> simp only [Fit, hconnections, hsize] at hfit ⊢ <;> exact hfit
  connecting {u g} hu := by
    rw [Connects, husers] at hu
    rw [hline, hconnection]
    exact h.connecting hu
  installed hc hactive := by
    rw [hconnections] at hc
    rw [hconnection]
    exact h.installed hc hactive
  bounded hc := by
    rw [hconnections] at hc
    rw [hsize]
    exact h.bounded hc

/-! ## Moves -/

theorem Inv.endGet (h : p.Inv) {g : Get} (hu : p.users.get? u = some (.get g))
    (r : Except Failure ConnectionId) : (p.endGet u g r).Inv := by
  have husers := becomes_insert p u (.get { g with stage := .ended r })
  refine h.depart husers (.inr (h.fit hu).1) (fun b hb => ?_) fun x hx => ?_
  · exact ((stands_get hu).mp hb).2.symm
  · obtain rfl := Option.some.inj hx
    exact ⟨(h.fit hu).2, fun b hb => by simp [seats, Get.isOpen] at hb⟩

theorem Inv.raise (h : p.Inv) {n : UserId} (hn : p.nextUser ≤ n) :
    ({ p with nextUser := n } : Pool).Inv where
  roomy := h.roomy
  lines := h.lines
  fit hu := ⟨Nat.lt_of_lt_of_le (h.fit hu).1 hn, (h.fit hu).2⟩
  connecting := h.connecting
  installed := h.installed
  bounded := h.bounded

theorem slotOf_lt (n : Nat) (subject : String) : slotOf n subject < max n 1 :=
  Nat.mod_lt _ (Nat.lt_of_lt_of_le Nat.one_pos (Nat.le_max_right n 1))

theorem Inv.started (h : p.Inv) (d : Destination) (subject : String) (e : EntryId) :
    (p.started d subject e).Inv := by
  have hslot : slotOf p.size subject < p.size := by
    have := slotOf_lt p.size subject
    rwa [Nat.max_eq_left h.roomy] at this
  refine (h.raise (Nat.le_succ _)).arrive (becomes_insert p p.nextUser _) (Nat.lt_succ_self _)
    (h.not_stands (Nat.le_refl _)) ⟨Nat.le_refl 1, ?_, hslot⟩ (fun b => ?_) fun g hg => ?_
  · exact Nat.succ_le_succ (Nat.zero_le 2)
  · simp [seats, Get.isOpen, eq_comm]
  · rw [← User.get.inj hg]
    simp

theorem Inv.cleared (h : p.Inv) (hq : p.Cleared a q) : q.Inv := by
  obtain ⟨-, rfl⟩ | ⟨c, hc, hidle, rfl⟩ := hq
  · exact h
  · refine h.clear fun {d x} hd hactive hplace => ?_
    have hd' := h.installed hd hactive
    rw [hplace, hc] at hd'
    obtain rfl := Option.some.inj hd'
    rw [isActive_eq_false hd, hactive] at hidle
    simp at hidle

theorem Cleared.connection (hq : p.Cleared a q) : (q.slot a).connection = none := by
  obtain ⟨hnone, rfl⟩ | ⟨c, -, -, rfl⟩ := hq
  · exact hnone
  · rw [connection_put, if_pos rfl]

theorem Cleared.users (hq : p.Cleared a q) : q.users = p.users := by
  obtain ⟨-, rfl⟩ | ⟨c, -, -, rfl⟩ := hq <;> rfl

theorem Cleared.line (hq : p.Cleared a q) (b : Place) : (q.slot b).line = (p.slot b).line := by
  obtain ⟨-, rfl⟩ | ⟨c, -, -, rfl⟩ := hq
  · rfl
  · exact line_put none

theorem Inv.withdrawn (h : p.Inv) (hc : p.isActive c = false) (hq : p.Withdraws a c q) : q.Inv := by
  obtain ⟨hin, rfl⟩ | ⟨-, rfl⟩ := hq
  · exact h.cleared (.inr ⟨c, hin, hc, rfl⟩)
  · exact h

theorem Withdraws.users (hq : p.Withdraws a c q) :
    q.users = p.users ∧ q.connections = p.connections := by
  obtain ⟨-, rfl⟩ | ⟨-, rfl⟩ := hq <;> exact ⟨rfl, rfl⟩

theorem Shuts.users (hq : p.Shuts a q) : q.users = p.users := by
  obtain ⟨c, -, rfl⟩ | ⟨-, rfl⟩ := hq <;> rfl

theorem Inv.shut (h : p.Inv) (hq : p.Shuts a q) : q.Inv := by
  obtain ⟨c, -, rfl⟩ | ⟨-, rfl⟩ := hq
  · exact h.close c
  · exact h

theorem Shuts.idle (hq : p.Shuts a q) (hinv : q.Inv) {x : Connection}
    (hc : q.connections.get? c = some x) (hactive : x.active = true) : x.place ≠ a := by
  rintro rfl
  have hinstalled := hinv.installed hc hactive
  obtain ⟨d, hd, rfl⟩ | ⟨hnone, rfl⟩ := hq
  · rw [slot_close, hd] at hinstalled
    obtain rfl := Option.some.inj hinstalled
    rw [connections_close, if_pos rfl] at hc
    obtain ⟨y, -, rfl⟩ := Option.map_eq_some_iff.mp hc
    simp at hactive
  · simp [hnone] at hinstalled

theorem Inv.stir (h : p.Inv) {w : Watch} {x : Connection} (hu : p.users.get? u = some (.watch w))
    (hx : p.connections.get? w.connection = some x) (hstage : w.stage = .watching)
    (hclosed : x.active = false) :
    ((p.setUser u (.watch { w with stage := .queued })).join x.place u).Inv := by
  refine h.arrive (becomes_insert p u _) (h.fit hu).1 (fun b hb => ?_) ⟨x, hx, fun _ => hclosed⟩
    (fun b => ?_) (by simp)
  · simp [((stands_watch hu).mp hb).1] at hstage
  · simp [seats, hx, eq_comm]

theorem Inv.withdraw (h : p.Inv) {w : Watch} {x : Connection} (hu : p.users.get? u = some (.watch w))
    (hx : p.connections.get? w.connection = some x) (hstage : w.stage = .queued)
    (hq : p.Withdraws x.place w.connection q) :
    ((q.setUser u (.watch { w with stage := .ended })).leave x.place u).Inv := by
  obtain ⟨y, hy, hclosed⟩ := (h.fit hu).2
  obtain rfl := Option.some.inj (hx.symm.trans hy)
  have hidle : x.active = false := hclosed (by simp [hstage])
  have hinv : q.Inv := h.withdrawn ((isActive_eq_false hx).mpr hidle) hq
  have hu' : q.users.get? u = some (.watch w) := hq.users.1 ▸ hu
  refine hinv.depart (becomes_insert q u _) (.inr (hinv.fit hu').1) (fun b hb => ?_) fun y hy => ?_
  · have hplace := ((stands_watch hu').mp hb).2
    rw [hq.users.2, hx] at hplace
    exact (Option.some.inj hplace).symm
  · obtain rfl := Option.some.inj hy
    exact ⟨⟨x, hq.users.2 ▸ hx, fun _ => hidle⟩, fun b hb => by simp [seats] at hb⟩

theorem Inv.closesAll (h : p.Inv) : p.beginSweep.2.Inv := by
  have hr : ({ p with index := .empty } : Pool).Inv :=
    h.congr (fun _ => rfl) (fun _ => rfl) (fun _ => rfl) rfl rfl rfl
  exact hr.enter trivial fun b hb => by simp [seats] at hb

theorem Inv.queue (h : p.Inv) {s : Sweep} {rest : List Place} (hu : p.users.get? u = some (.sweep s))
    (hleft : s.left = a :: rest) (hqueued : s.queued = false) :
    ((p.setUser u (.sweep { s with queued := true })).join a u).Inv := by
  refine h.arrive (becomes_insert p u _) (h.fit hu).1 (fun b hb => ?_) trivial (fun b => ?_) (by simp)
  · simp [((stands_sweep hu).mp hb).1] at hqueued
  · simp [seats, hleft, eq_comm]

theorem Inv.sweep (h : p.Inv) {s : Sweep} {rest : List Place} (hu : p.users.get? u = some (.sweep s))
    (hleft : s.left = a :: rest) (hq : p.Shuts a q) :
    (((q.put a none).leave a u).setUser u (.sweep ⟨rest, false⟩)).Inv := by
  have hempty := (h.shut hq).clear (hq.idle (h.shut hq))
  have hu' : (q.put a none).users.get? u = some (.sweep s) := by rw [users_put, hq.users, hu]
  refine hempty.depart (becomes_insert (q.put a none) u _) (.inr (hempty.fit hu').1) (fun b hb => ?_)
    fun y hy => ?_
  · have hplace := ((stands_sweep hu').mp hb).2
    rw [hleft] at hplace
    exact (Option.some.inj hplace).symm
  · obtain rfl := Option.some.inj hy
    exact ⟨trivial, fun b hb => by simp [seats] at hb⟩

theorem line_settle (p : Pool) (u : UserId) (g : Get) (c : ConnectionId) (active : Bool) (b : Place) :
    ((p.settle u g c active).slot b).line =
      if b = g.place then (p.slot b).line.filter (· != u) else (p.slot b).line := by
  refine (line_leave (({ p with connections := _ } : Pool).put g.place (some c)) g.place u b).trans ?_
  rw [line_put]
  rfl

theorem connection_settle (p : Pool) (u : UserId) (g : Get) (c : ConnectionId) (active : Bool)
    (b : Place) : ((p.settle u g c active).slot b).connection =
      if b = g.place then some c else (p.slot b).connection := by
  refine Eq.trans (connection_leave (p := ({ p with connections := _ } : Pool).put g.place (some c))) ?_
  exact connection_put _ g.place (some c) b

/-- A connection comes to the call that waits for it. The call leaves its place and is over, until
it may begin again. -/
theorem Inv.land (h : p.Inv) {g : Get} (hu : p.Connects u g) (hnew : p.connections.get? c = none)
    (active : Bool) (r : Except Failure ConnectionId) :
    ((p.settle u g c active).setUser u (.get { g with stage := .ended r })).Inv := by
  have hlt := (h.fit hu.1).1
  -- As if the call had ended first, and its connection were put into the free slot afterwards.
  have hended := h.endGet hu.1 r
  have hfree : ∀ {v g'}, (p.endGet u g r).Connects v g' → g'.place ≠ g.place := by
    rintro v g' hv hplace
    rcases hv.of_becomes (becomes_insert p u _) with ⟨-, hg', hstage⟩ | ⟨hne, hv⟩
    · rw [← User.get.inj (Option.some.inj hg')] at hstage
      simp at hstage
    · exact hne (h.connects_unique hv hu hplace)
  have hput := hended.deposit (x := ⟨g.destination, g.place, active⟩) hnew
    (connection_leave.trans (h.connecting hu).2) hfree (h.fit hu.1).2.2.2
  have hwatched := hput.enter (x := .watch ⟨c, .watching⟩)
    ⟨_, Table.get?_insert_self _ _ _, by simp⟩ fun b hb => by simp [seats] at hb
  refine hwatched.congr (fun v => ?_) (fun b => ?_) (fun b => ?_) rfl rfl rfl
  · exact Table.get?_insert_comm p.users (Nat.ne_of_gt hlt) _ _ v
  · rw [slot_setUser, line_settle]
    refine Eq.trans ?_ (line_put (some c)).symm
    exact (line_leave p g.place u b).symm
  · rw [slot_setUser, connection_settle]
    refine Eq.trans ?_ (connection_put _ g.place (some c) b).symm
    split
    · rfl
    · exact connection_leave.symm

theorem Inv.retry (h : p.Inv) {g : Get} (hu : p.Connects u g) (hnew : p.connections.get? c = none)
    (active : Bool) (hmore : g.attempt < attemptLimit) : (((p.settle u g c active).setUser u
      (.get { g with attempt := g.attempt + 1, stage := .queued })).join g.place u).Inv := by
  have hland := h.land hu hnew active (.ok c)
  have hu' := users_setUser (p.settle u g c active) u (.get { g with stage := .ended (.ok c) }) u
  rw [if_pos rfl] at hu'
  refine hland.arrive (x := .get { g with attempt := g.attempt + 1, stage := .queued })
    (fun v => ?_) (hland.fit hu').1 (fun b hb => ?_) ⟨?_, hmore, (h.fit hu.1).2.2.2⟩
    (fun b => ?_) (fun g' hg' => ?_)
  · rw [users_setUser]
    refine (Table.get?_insert _ _ _ _).trans ?_
    by_cases hv : v = u <;> simp [hv]
  · have hopen := ((stands_get hu').mp hb).1
    simp [Get.isOpen] at hopen
  · exact Nat.le_succ_of_le (h.fit hu.1).2.1
  · simp [seats, Get.isOpen, eq_comm]
  · rw [← User.get.inj hg']
    simp

theorem Inv.move (h : p.Inv) {a : PoolAct} (hq : p.Moves a q) : q.Inv := by
  cases hq with
  | idle => exact h
  | begins d subject e index nextEntry found old =>
    have hr : ({ p with index, nextEntry } : Pool).Inv :=
      h.congr (fun _ => rfl) (fun _ => rfl) (fun _ => rfl) rfl rfl rfl
    exact hr.started d subject e
  | finds u g c was stage has offered => exact h.endGet was _
  | launches u g r was stage has cleared =>
    refine (h.cleared cleared).launch (cleared.users ▸ was) stage ?_ cleared.connection
    rw [Pool.has, cleared.line]
    exact has
  | gets u g c was new => exact h.land was new true _
  | retries u g c was new more => exact h.retry was new false more
  | gives_up u g c was new last => exact h.land was new false _
  | fails u g f was => exact h.endGet was.1 _
  | abandons u g was =>
    exact h.depart (becomes_erase p u) (.inl rfl) (fun b hb => ((stands_get was).mp hb).2.symm) (by simp)
  | closes c => exact h.close c
  | stirs u w x was watched stage closed => exact h.stir was watched stage closed
  | clears u w x r was watched stage has withdraws => exact h.withdraw was watched stage withdraws
  | closesAll => exact h.closesAll
  | queues u s a rest was next queued => exact h.queue was next queued
  | sweeps u s a rest r was next queued has shuts => exact h.sweep was next shuts

theorem Inv.act (h : p.Inv) (a : PoolAct) : (p.act a).Inv := h.move (moves_act p a)

theorem Inv.run (h : p.Inv) (acts : List PoolAct) : (p.run acts).Inv := by
  induction acts generalizing p with
  | nil => exact h
  | cons a acts ih => exact ih (h.act a)

end ClusterNet.Messaging.Pool
