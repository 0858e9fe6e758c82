import ClusterNet.Proofs.PoolCalls

/-!
# Closing everything

Whoever closes everything forgets the entries first and goes through their places later. A call
that was there before still comes to its slot ahead of them, so that they find its connection.
There is one exception: a call that tries again goes to the end of the line, behind them.
-/

namespace ClusterNet.Messaging.Pool

variable {p q : Pool} {u v w : UserId} {a b : Place} {c : ConnectionId}

/-! ## Places in a line -/

/-- `u` stands in the line, and `v` does not stand before it. -/
def Ahead (line : List UserId) (u v : UserId) : Prop :=
  ∃ l r, line = l ++ u :: r ∧ v ∉ l ++ [u]

theorem Ahead.join {line : List UserId} (h : Ahead line u v) (w : UserId) :
    Ahead (line ++ [w]) u v := by
  obtain ⟨l, r, rfl, hv⟩ := h
  exact ⟨l, r ++ [w], by simp, hv⟩

theorem Ahead.leave {line : List UserId} (h : Ahead line u v) (hu : u ≠ w) :
    Ahead (line.filter (· != w)) u v := by
  obtain ⟨l, r, rfl, hv⟩ := h
  refine ⟨l.filter (· != w), r.filter (· != w), ?_, fun hin => hv ?_⟩
  · rw [List.filter_append, List.filter_cons_of_pos (by simpa using hu)]
  · simp only [List.mem_append, List.mem_filter] at hin ⊢
    exact hin.imp_left And.left

theorem Ahead.ne_head {line : List UserId} (h : Ahead line u v) : line.head? ≠ some v := by
  obtain ⟨l, r, rfl, hv⟩ := h
  intro hhead
  cases l with
  | nil => exact hv (by simpa using hhead.symm)
  | cons x l => exact hv (by simp [show v = x by simpa using hhead.symm])

theorem ahead_of_not_mem {line : List UserId} (hu : u ∈ line) (hv : v ∉ line) : Ahead line u v := by
  obtain ⟨l, r, rfl⟩ := List.append_of_mem hu
  exact ⟨l, r, rfl, fun hin => hv (by simp only [List.mem_append, List.mem_cons] at hin ⊢; tauto)⟩

/-- The call of `u` got a closed connection and tries again. -/
def Retries (p : Pool) (u : UserId) (g : Get) (a : PoolAct) : Prop :=
  p.Connects u g ∧ g.attempt < attemptLimit ∧
    (p.act a).users.get? u = some (.get { g with attempt := g.attempt + 1, stage := .queued })

/-- What an act does to the line of `b`. -/
inductive Shifts (p : Pool) (a : PoolAct) (b : Place) (line : List UserId) : Prop where
  | same (eq : line = (p.slot b).line)
  | joined (w : UserId) (eq : line = (p.slot b).line ++ [w])
  | left (w : UserId) (eq : line = (p.slot b).line.filter (· != w))
  | again (w : UserId) (g : Get) (retries : p.Retries w g a)
      (eq : line = (p.slot b).line.filter (· != w) ++ [w])

theorem shifts_of_join (a : PoolAct) (hq : (q.slot b).line = (p.slot b).line) (w : UserId) (c : Place) :
    p.Shifts a b ((q.join c w).slot b).line := by
  rw [line_join, hq]
  split
  · exact .joined w rfl
  · exact .same rfl

theorem shifts_of_leave (a : PoolAct) (hq : (q.slot b).line = (p.slot b).line) (w : UserId) (c : Place) :
    p.Shifts a b ((q.leave c w).slot b).line := by
  rw [line_leave, hq]
  split
  · exact .left w rfl
  · exact .same rfl

theorem shifts_of_settle (a : PoolAct) (w : UserId) (g : Get) (c : ConnectionId) (active : Bool) :
    p.Shifts a b ((p.settle w g c active).slot b).line := by
  rw [line_settle]
  split
  · exact .left w rfl
  · exact .same rfl

theorem shifts_act (p : Pool) (a : PoolAct) (b : Place) : p.Shifts a b ((p.act a).slot b).line := by
  have hmoves := moves_act p a
  generalize hq : p.act a = q at hmoves ⊢
  cases hmoves with
  | idle => exact .same rfl
  | begins d subject e index nextEntry found old => exact shifts_of_join _ rfl _ _
  | finds w g c was stage has offered => exact shifts_of_leave _ rfl w g.place
  | launches w g r was stage has cleared => exact .same (cleared.line b)
  | gets w g c was new => exact shifts_of_settle _ w g c true
  | retries w g c was new more =>
    have hretries : p.Retries w g (.connects w c false) := by
      refine ⟨was, more, ?_⟩
      rw [hq]
      exact Table.get?_insert_self _ _ _
    rw [line_join, slot_setUser, line_settle]
    split
    · exact .again w g hretries rfl
    · exact .same rfl
  | gives_up w g c was new last => exact shifts_of_settle _ w g c false
  | fails w g f was => exact shifts_of_leave _ rfl w g.place
  | abandons w g was => exact shifts_of_leave (q := p) _ rfl w g.place
  | closes c => exact .same rfl
  | stirs w w' x was watched stage closed => exact shifts_of_join _ rfl w x.place
  | clears w w' x r was watched stage has withdraws =>
    refine shifts_of_leave _ ?_ w x.place
    obtain ⟨-, rfl⟩ | ⟨-, rfl⟩ := withdraws
    · exact line_put none
    · rfl
  | closesAll => exact .same rfl
  | queues w s c rest was next queued => exact shifts_of_join _ rfl w c
  | sweeps w s c rest r was next queued has shuts =>
    refine shifts_of_leave (q := r.put c none) _ ?_ w c
    obtain ⟨d, -, rfl⟩ | ⟨-, rfl⟩ := shuts <;> exact line_put none

theorem Ahead.act {a : PoolAct} (h : Ahead (p.slot b).line u v)
    (hu : u ∈ ((p.act a).slot b).line) (hretries : ∀ g, ¬ p.Retries u g a) :
    Ahead ((p.act a).slot b).line u v := by
  cases shifts_act p a b with
  | same eq => rwa [eq]
  | joined w eq =>
    rw [eq]
    exact h.join w
  | left w eq =>
    rw [eq] at hu ⊢
    exact h.leave (by simpa using (List.mem_filter.mp hu).2)
  | again w g retries eq =>
    rw [eq]
    refine (h.leave ?_).join w
    rintro rfl
    exact hretries g retries

/-! ## Those who close everything -/

/-- Someone who closes everything still has to come to this place. -/
def Sweeps (p : Pool) (v : UserId) (a : Place) : Prop :=
  ∃ s, p.users.get? v = some (.sweep s) ∧ a ∈ s.left

theorem Sweeps.not_swept (h : p.Sweeps v a) : p.swept v = false := by
  obtain ⟨s, hs, hin⟩ := h
  rw [swept, hs]
  simpa using List.ne_nil_of_mem hin

theorem Sweeps.act (h : p.Sweeps v b) (hinv : p.Inv) (a : PoolAct) : (p.act a).Sweeps v b ∨
    a = .sweeps v ∧ (p.slot b).line.head? = some v ∧ ((p.act a).slot b).connection = none := by
  obtain ⟨s, hs, hin⟩ := h
  have hmoves := moves_act p a
  generalize p.act a = q at hmoves ⊢
  by_cases ha : a.mover? = some v
  · cases hmoves with
    | idle => exact .inl ⟨s, hs, hin⟩
    | queues u s' c rest was next queued =>
      obtain rfl := Option.some.inj ha
      obtain rfl := User.sweep.inj (Option.some.inj (hs.symm.trans was))
      exact .inl ⟨_, (users_setUser p u _ u).trans (if_pos rfl), hin⟩
    | sweeps u s' c rest r was next queued has shuts =>
      obtain rfl := Option.some.inj ha
      obtain rfl := User.sweep.inj (Option.some.inj (hs.symm.trans was))
      rw [next, List.mem_cons] at hin
      rcases hin with rfl | hin
      · refine .inr ⟨rfl, by simpa [Pool.has] using has, ?_⟩
        rw [slot_setUser, connection_leave, connection_put, if_pos rfl]
      · exact .inl ⟨_, (users_setUser _ u _ u).trans (if_pos rfl), hin⟩
    | begins => simp [PoolAct.mover?] at ha
    | closes => simp [PoolAct.mover?] at ha
    | closesAll => simp [PoolAct.mover?] at ha
    -- Every other move is made by a call or by a watcher.
    | finds u g c was =>
      obtain rfl := Option.some.inj ha
      simp [hs] at was
    | launches u g r was =>
      obtain rfl := Option.some.inj ha
      simp [hs] at was
    | gets u g c was =>
      obtain rfl := Option.some.inj ha
      simp [Connects, hs] at was
    | retries u g c was =>
      obtain rfl := Option.some.inj ha
      simp [Connects, hs] at was
    | gives_up u g c was =>
      obtain rfl := Option.some.inj ha
      simp [Connects, hs] at was
    | fails u g f was =>
      obtain rfl := Option.some.inj ha
      simp [Connects, hs] at was
    | abandons u g was =>
      obtain rfl := Option.some.inj ha
      simp [hs] at was
    | stirs u w x was =>
      obtain rfl := Option.some.inj ha
      simp [hs] at was
    | clears u w x r was =>
      obtain rfl := Option.some.inj ha
      simp [hs] at was
  · exact .inl ⟨s, (hmoves.users (hinv.fit hs).1 ha).trans hs, hin⟩

def Listed (p : Pool) (d : Destination) (a : Place) : Prop := p.index.get? d = some a.entry

theorem Listed.closesAll {d : Destination} (h : p.Listed d a) (ha : a.slot < p.size) :
    (p.act .closesAll).Sweeps p.nextUser a := by
  refine ⟨_, Table.get?_insert_self _ _ _, List.mem_flatMap.mpr ⟨a.entry, ?_, ?_⟩⟩
  · exact List.mem_map.mpr ⟨(d, a.entry), Table.mem_of_lookup h, rfl⟩
  · exact List.mem_map.mpr ⟨a.slot, List.mem_range.mpr ha, rfl⟩

theorem Listed.act {d : Destination} (h : p.Listed d b) (hb : b.slot < p.size) (a : PoolAct) :
    (p.act a).Listed d b ∨ a = .closesAll ∧ (p.act a).Sweeps p.nextUser b := by
  by_cases ha : a = .closesAll
  · subst ha
    exact .inr ⟨rfl, h.closesAll hb⟩
  · exact .inl ((frame_act p ha).index h)

/-! ## Nothing is forgotten -/

/-- What is open is at an entry that is there, or someone who closes everything still comes to it. -/
structure Covered (p : Pool) : Prop where
  calls : ∀ {u g}, p.users.get? u = some (.get g) → g.isOpen = true →
    p.Listed g.destination g.place ∨ ∃ v, p.Sweeps v g.place ∧ Ahead (p.slot g.place).line u v
  connections : ∀ {c x}, p.connections.get? c = some x → x.active = true →
    p.Listed x.destination x.place ∨ ∃ v, p.Sweeps v x.place

theorem covered_ofSize (n : Nat) : (ofSize n).Covered where
  calls h := by simp [ofSize] at h
  connections h := by simp [ofSize] at h

/-- A call gets a closed connection at an entry that is not there any more, and tries again. -/
def Strays (p : Pool) : PoolAct → Prop
  | .connects u _ false =>
    ∃ g, p.Connects u g ∧ g.attempt < attemptLimit ∧ ¬ p.Listed g.destination g.place
  | _ => False

theorem mem_line (h : p.Inv) {g : Get} (hu : p.users.get? u = some (.get g)) (hopen : g.isOpen = true) :
    u ∈ (p.slot g.place).line :=
  ((h.lines g.place).2 u).mpr ((stands_get hu).mpr ⟨hopen, rfl⟩)

theorem Covered.stay (h : p.Covered) (hinv : p.Inv) {a : PoolAct} {g g' : Get}
    (hu : p.users.get? u = some (.get g)) (hopen : g.isOpen = true)
    (hu' : (p.act a).users.get? u = some (.get g')) (hopen' : g'.isOpen = true)
    (hdestination : g'.destination = g.destination) (hplace : g'.place = g.place)
    (hretries : ∀ g, ¬ p.Retries u g a) : (p.act a).Listed g'.destination g'.place ∨
      ∃ v, (p.act a).Sweeps v g'.place ∧ Ahead ((p.act a).slot g'.place).line u v := by
  have hin := mem_line (hinv.act a) hu' hopen'
  rw [hdestination]
  rw [hplace] at hin ⊢
  rcases h.calls hu hopen with hlisted | ⟨v, hsweeps, hahead⟩
  · rcases hlisted.act (hinv.fit hu).2.2.2 a with hlisted | ⟨rfl, hsweeps⟩
    · exact .inl hlisted
    · refine .inr ⟨_, hsweeps, ahead_of_not_mem hin fun hnew => ?_⟩
      exact hinv.not_stands (Nat.le_refl _) _ (((hinv.lines _).2 _).mp hnew)
  · rcases hsweeps.act hinv a with hsweeps | ⟨-, hhead, -⟩
    · exact .inr ⟨v, hsweeps, hahead.act hin hretries⟩
    · exact absurd hhead hahead.ne_head

theorem Covered.act (h : p.Covered) (hinv : p.Inv) {a : PoolAct} (ha : ¬ p.Strays a) :
    (p.act a).Covered where
  calls {u g'} hu hopen := by
    cases came hu with
    | stayed was =>
      refine h.stay hinv was hopen hu hopen rfl rfl fun g hretries => ?_
      obtain ⟨hg, -, hagain⟩ := hretries
      obtain rfl := User.get.inj (Option.some.inj (was.symm.trans hg.1))
      simpa using congrArg Get.attempt (User.get.inj (Option.some.inj (hu.symm.trans hagain)))
    | proceeded g was move =>
      cases move with
      | finds c stage offered => simp [Get.isOpen] at hopen
      | launches stage =>
        refine h.stay hinv was (by simp [Get.isOpen, stage]) hu hopen rfl rfl fun g hretries => ?_
        obtain ⟨-, -, hagain⟩ := hretries
        simpa using congrArg Get.stage (User.get.inj (Option.some.inj (hu.symm.trans hagain)))
      | gets c stage offered => simp [Get.isOpen] at hopen
      | retries c stage more =>
        -- It goes to the end of the line, so it has to be at an entry that is there.
        have hlisted : p.Listed g.destination g.place := by
          by_contra hnot
          exact ha ⟨g, ⟨was, stage⟩, more, hnot⟩
        exact .inl ((frame_act p (by simp)).index hlisted)
      | gives_up c stage last => simp [Get.isOpen] at hopen
      | fails f stage => simp [Get.isOpen] at hopen
    | began d subject act new destination slot entry first stage =>
      left
      rw [Listed, destination]
      exact entry
  connections {c x} hc hactive := by
    rcases connection_act hc with ⟨y, hy, hlater⟩ | ⟨u, g, active, rfl, hu, -, rfl⟩
    · rw [hlater.destination, hlater.place]
      rcases h.connections hy (hlater.active hactive) with hlisted | ⟨v, hsweeps⟩
      · rcases hlisted.act (hinv.bounded hy) a with hlisted | ⟨-, hsweeps⟩
        · exact .inl hlisted
        · exact .inr ⟨_, hsweeps⟩
      · rcases hsweeps.act hinv a with hsweeps | ⟨-, -, hnone⟩
        · exact .inr ⟨v, hsweeps⟩
        · have hinstalled := (hinv.act a).installed hc hactive
          rw [hlater.place, hnone] at hinstalled
          simp at hinstalled
    -- A new connection is covered because the call that waited for it was.
    · rcases h.calls hu.1 (by simp [Get.isOpen, hu.2]) with hlisted | ⟨v, hsweeps, -⟩
      · exact .inl ((frame_act p (by simp)).index hlisted)
      · rcases hsweeps.act hinv _ with hsweeps | ⟨hact, -⟩
        · exact .inr ⟨v, hsweeps⟩
        · simp at hact

/-- No call strays in the run. -/
def Steady : Pool → List PoolAct → Prop
  | _, [] => True
  | p, a :: acts => ¬ p.Strays a ∧ Steady (p.act a) acts

theorem Covered.run (h : p.Covered) (hinv : p.Inv) {acts : List PoolAct} (hacts : p.Steady acts) :
    (p.run acts).Covered := by
  induction acts generalizing p with
  | nil => exact h
  | cons a acts ih => exact ih (h.act hinv hacts.1) (hinv.act a) hacts.2

/-- Whoever still has to come to the place of a connection closes it, whatever happens before. -/
theorem Sweeps.run (hinv : p.Inv) {x : Connection} (hc : p.connections.get? c = some x)
    (h : x.active = true → p.Sweeps v x.place) (acts : List PoolAct)
    (hswept : (p.run acts).swept v = true) : (p.run acts).isActive c = false := by
  induction acts generalizing p x with
  | nil =>
    refine (isActive_eq_false hc).mpr ?_
    by_contra hactive
    have hnot := (h (by simpa using hactive)).not_swept
    exact Bool.false_ne_true (hnot.symm.trans hswept)
  | cons a acts ih =>
    obtain ⟨y, hy, hlater⟩ := later_act hc a
    refine ih (hinv.act a) hy (fun hactive => ?_) hswept
    rw [hlater.place]
    rcases (h (hlater.active hactive)).act hinv a with hsweeps | ⟨-, -, hnone⟩
    · exact hsweeps
    · have hinstalled := (hinv.act a).installed hy hactive
      rw [hlater.place, hnone] at hinstalled
      simp at hinstalled

/-- When everyone who closes everything is through, each active connection is in its slot, at an
entry that is there, and the next one who closes everything closes it. -/
theorem nothing_is_forgotten (n : Nat) (acts : List PoolAct) (hacts : (ofSize n).Steady acts)
    (hswept : ∀ v, ((ofSize n).run acts).swept v = true) {c : ConnectionId} {x : Connection}
    (hc : ((ofSize n).run acts).connections.get? c = some x) (hactive : x.active = true) :
    (((ofSize n).run acts).slot x.place).connection = some c ∧
      ((ofSize n).run acts).Listed x.destination x.place ∧
        ∀ later, (((ofSize n).run (acts ++ [.closesAll])).run later).swept
            ((ofSize n).run acts).nextUser = true →
          (((ofSize n).run (acts ++ [.closesAll])).run later).isActive c = false := by
  have hinv := (inv_ofSize n).run acts
  have hcovered := (covered_ofSize n).run (inv_ofSize n) hacts
  have hlisted : ((ofSize n).run acts).Listed x.destination x.place := by
    rcases hcovered.connections hc hactive with hlisted | ⟨v, hsweeps⟩
    · exact hlisted
    · exact absurd (hsweeps.not_swept.symm.trans (hswept v)) Bool.false_ne_true
  refine ⟨hinv.installed hc hactive, hlisted, fun later => ?_⟩
  rw [run_concat]
  obtain ⟨y, hy, hlater⟩ := later_act hc .closesAll
  refine Sweeps.run (hinv.act .closesAll) hy (fun _ => ?_) later
  rw [hlater.place]
  exact hlisted.closesAll (hinv.bounded hc)

theorem swept_of_keys (h : ∀ v ∈ p.users.keys, p.swept v = true) (v : UserId) :
    p.swept v = true := by
  cases hx : p.users.get? v with
  | none => rw [swept, hx]
  | some x => exact h v (List.mem_map.mpr ⟨(v, x), Table.mem_of_lookup hx, rfl⟩)

def somewhere : Destination := ⟨⟨"10.0.0.1", 80⟩, .v4 ⟨10, 0, 0, 1⟩⟩

/-- A call tries again and goes on at an entry that is forgotten by then. A second call makes a new
entry. -/
def overtaken : List PoolAct := [.begins somewhere "a", .inspects 0, .connects 0 0 false, .closesAll,
  .inspects 0, .sweeps 2, .connects 0 1 true, .sweeps 2, .begins somewhere "a", .inspects 4,
  .connects 4 2 true]

theorem steady_overtaken : (ofSize 1).Steady overtaken := by
  have hlisted : ¬ ((ofSize 1).run [.begins somewhere "a", .inspects 0]).Strays (.connects 0 0 false) := by
    rintro ⟨g, ⟨hg, -⟩, -, hnot⟩
    have hget : some (.get g) = some (User.get ⟨somewhere, ⟨0, slotOf 1 "a"⟩, 1, .connecting⟩) :=
      hg.symm.trans rfl
    rw [User.get.inj (Option.some.inj hget)] at hnot
    exact hnot rfl
  exact ⟨id, id, hlisted, id, id, id, id, id, id, id, id, trivial⟩

/-- The first call's connection was closed on the way, and the second call's is closed by the next
one who closes everything. -/
theorem nothing_is_forgotten_overtaken :
    ((ofSize 1).run overtaken).result? 0 = some (.ok 1) ∧
      ((ofSize 1).run overtaken).isActive 1 = false ∧ ((ofSize 1).run overtaken).isActive 2 = true ∧
        (((ofSize 1).run (overtaken ++ [.closesAll])).run [.sweeps 6, .sweeps 6]).isActive 2 = false := by
  have hactive : ((ofSize 1).run overtaken).isActive 2 = true := by decide +kernel
  obtain ⟨x, hc, hx⟩ := isActive_eq_true.mp hactive
  have hswept : ∀ v, ((ofSize 1).run overtaken).swept v = true := swept_of_keys (by decide +kernel)
  refine ⟨by decide +kernel, by decide +kernel, hactive, ?_⟩
  exact (nothing_is_forgotten 1 overtaken steady_overtaken hswept hc hx).2.2 _ (by decide +kernel)

/-! ## A call that strays -/

/-- A call waits for its connection while somebody closes everything. The connection comes closed,
so the call tries again, behind them. -/
def straying : List PoolAct := [.begins somewhere "a", .inspects 0, .closesAll, .sweeps 1,
  .connects 0 0 false, .sweeps 1, .inspects 0, .connects 0 1 true]

/-- Nobody is left who closes anything, and the call has an active connection at an entry that is
forgotten. The next one who closes everything is through at once and has not closed it. -/
theorem a_straying_call_keeps_its_connection :
    (∀ v, ((ofSize 1).run straying).swept v = true) ∧
      ((ofSize 1).run straying).result? 0 = some (.ok 1) ∧
        (∃ x, ((ofSize 1).run straying).connections.get? 1 = some x ∧ x.active = true ∧
          ¬ ((ofSize 1).run straying).Listed x.destination x.place) ∧
            ((ofSize 1).run (straying ++ [.closesAll])).swept ((ofSize 1).run straying).nextUser = true ∧
              ((ofSize 1).run (straying ++ [.closesAll])).isActive 1 = true := by
  have hforgotten : ((ofSize 1).run straying).index.get? somewhere = none := by decide +kernel
  refine ⟨swept_of_keys (by decide +kernel), by decide +kernel, ?_, by decide +kernel, by decide +kernel⟩
  refine ⟨⟨somewhere, ⟨0, slotOf 1 "a"⟩, true⟩, rfl, rfl, fun hlisted => ?_⟩
  simp [Listed, hforgotten] at hlisted

end ClusterNet.Messaging.Pool
