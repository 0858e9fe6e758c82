import ClusterNet.Proofs.PoolLines
import Mathlib.Data.List.Induction

/-!
# What becomes of a call

A call for a connection goes on only by moves of its own, and there are six of them. It keeps its
destination and its place, it has a limited number of attempts, and a connection that it gives
back was active in its slot at that very moment.
-/

namespace ClusterNet.Messaging.Pool

variable {p q : Pool} {u v : UserId} {c : ConnectionId}

/-- What a call does by an act, from `g` on. -/
inductive Proceeds (p : Pool) (u : UserId) (g : Get) : PoolAct → Get → Prop where
  | finds (c : ConnectionId) (stage : g.stage = .queued)
      (offered : (p.act (.inspects u)).Offers g.place c) :
      Proceeds p u g (.inspects u) { g with stage := .ended (.ok c) }
  | launches (stage : g.stage = .queued) :
      Proceeds p u g (.inspects u) { g with stage := .connecting }
  | gets (c : ConnectionId) (stage : g.stage = .connecting)
      (offered : (p.act (.connects u c true)).Offers g.place c) :
      Proceeds p u g (.connects u c true) { g with stage := .ended (.ok c) }
  | retries (c : ConnectionId) (stage : g.stage = .connecting) (more : g.attempt < attemptLimit) :
      Proceeds p u g (.connects u c false) { g with attempt := g.attempt + 1, stage := .queued }
  | gives_up (c : ConnectionId) (stage : g.stage = .connecting) (last : attemptLimit ≤ g.attempt) :
      Proceeds p u g (.connects u c false) { g with stage := .ended (.error (exhausted g)) }
  | fails (f : Failure) (stage : g.stage = .connecting) :
      Proceeds p u g (.fails u f) { g with stage := .ended (.error f) }

theorem Proceeds.kept {g g' : Get} {a : PoolAct} (h : p.Proceeds u g a g') :
    g'.destination = g.destination ∧ g'.place = g.place := by
  cases h <;> exact ⟨rfl, rfl⟩

/-- A call that is there after an act was there before and is unchanged, or it has made one of its
moves, or it has just begun. -/
inductive Came (p : Pool) (a : PoolAct) (u : UserId) (g' : Get) : Prop where
  | stayed (was : p.users.get? u = some (.get g'))
  | proceeded (g : Get) (was : p.users.get? u = some (.get g)) (move : p.Proceeds u g a g')
  | began (d : Destination) (subject : String) (act : a = .begins d subject) (new : u = p.nextUser)
      (destination : g'.destination = d) (slot : g'.place.slot = slotOf p.size subject)
      (entry : (p.act a).index.get? d = some g'.place.entry) (first : g'.attempt = 1)
      (stage : g'.stage = .queued)

theorem came_of_insert {a : PoolAct} {g : Get} {x : User} {users : Table UserId User}
    (hu : (users.insert v x).get? u = some (.get g))
    (hold : users.get? u = some (.get g) → p.Came a u g) (hx : x = .get g → v = u → p.Came a u g) :
    p.Came a u g := by
  rw [Table.get?_insert] at hu
  split at hu
  · rename_i huv
    exact hx (Option.some.inj hu) huv.symm
  · exact hold hu

theorem came_of_settle {a : PoolAct} {g g' : Get} {active : Bool}
    (hold : p.users.get? u = some (.get g) → p.Came a u g)
    (hu : (p.settle v g' c active).users.get? u = some (.get g)) : p.Came a u g :=
  came_of_insert hu hold fun hx _ => by simp at hx

theorem came {a : PoolAct} {g : Get} (hu : (p.act a).users.get? u = some (.get g)) : p.Came a u g := by
  have hmoves := moves_act p a
  generalize hq : p.act a = q at hmoves hu
  cases hmoves with
  | idle => exact .stayed hu
  | begins d subject e index nextEntry found old =>
    change (p.users.insert p.nextUser _).get? u = _ at hu
    refine came_of_insert hu .stayed fun hg hv => ?_
    rw [← User.get.inj hg]
    exact .began d subject rfl hv.symm rfl rfl (by rw [hq]; exact found) rfl rfl
  | finds w g' c was stage has offered =>
    refine came_of_insert hu .stayed fun hg hv => ?_
    subst hv
    rw [← User.get.inj hg]
    refine .proceeded g' was (.finds c stage ?_)
    rw [hq]
    exact ⟨connection_leave.trans offered.1, offered.2⟩
  | launches w g' r was stage has cleared =>
    rw [setUser, cleared.users] at hu
    refine came_of_insert hu .stayed fun hg hv => ?_
    subst hv
    rw [← User.get.inj hg]
    exact .proceeded g' was (.launches stage)
  | gets w g' c was new =>
    refine came_of_insert hu (came_of_settle .stayed) fun hg hv => ?_
    subst hv
    rw [← User.get.inj hg]
    refine .proceeded g' was.1 (.gets c was.2 ?_)
    rw [hq]
    refine ⟨(connection_settle p w g' c true g'.place).trans (if_pos rfl), isActive_eq_true.mpr ?_⟩
    exact ⟨_, Table.get?_insert_self _ _ _, rfl⟩
  | retries w g' c was new more =>
    refine came_of_insert hu (came_of_settle .stayed) fun hg hv => ?_
    subst hv
    rw [← User.get.inj hg]
    exact .proceeded g' was.1 (.retries c was.2 more)
  | gives_up w g' c was new last =>
    refine came_of_insert hu (came_of_settle .stayed) fun hg hv => ?_
    subst hv
    rw [← User.get.inj hg]
    exact .proceeded g' was.1 (.gives_up c was.2 last)
  | fails w g' f was =>
    refine came_of_insert hu .stayed fun hg hv => ?_
    subst hv
    rw [← User.get.inj hg]
    exact .proceeded g' was.1 (.fails f was.2)
  | abandons w g' was =>
    change (p.users.erase w).get? u = _ at hu
    rw [Table.get?_erase] at hu
    split at hu
    · simp at hu
    · exact .stayed hu
  | closes c => exact .stayed hu
  | stirs w w' x was watched stage closed =>
    exact came_of_insert hu .stayed fun hx _ => by simp at hx
  | clears w w' x r was watched stage has withdraws =>
    rw [users_leave, setUser, withdraws.users.1] at hu
    exact came_of_insert hu .stayed fun hx _ => by simp at hx
  | closesAll =>
    change (p.users.insert p.nextUser _).get? u = _ at hu
    exact came_of_insert hu .stayed fun hx _ => by simp at hx
  | queues w s b rest was next queued =>
    exact came_of_insert hu .stayed fun hx _ => by simp at hx
  | sweeps w s b rest r was next queued has shuts =>
    rw [setUser, users_leave, users_put, shuts.users] at hu
    exact came_of_insert hu .stayed fun hx _ => by simp at hx

/-! ## Attempts -/

/-- How many times a call may still begin to connect. -/
def budget (p : Pool) (u : UserId) : Nat :=
  match p.users.get? u with
  | some (.get g) =>
    match g.stage with
    | .queued => attemptLimit + 1 - g.attempt
    | .connecting => attemptLimit - g.attempt
    | .ended _ => 0
  | some _ => 0
  | none => if u < p.nextUser then 0 else attemptLimit

def connects (p : Pool) (u : UserId) : Bool :=
  match p.users.get? u with
  | some (.get g) => (g.stage matches .connecting)
  | _ => false

/-- How many times a call begins to connect in a run. -/
def launches (u : UserId) : Pool → List PoolAct → Nat
  | _, [] => 0
  | p, a :: acts =>
    (if p.connects u = false ∧ (p.act a).connects u = true then 1 else 0) + launches u (p.act a) acts

theorem budget_get {g : Get} (hu : p.users.get? u = some (.get g)) : p.budget u =
    match g.stage with
    | .queued => attemptLimit + 1 - g.attempt
    | .connecting => attemptLimit - g.attempt
    | .ended _ => 0 := by
  rw [budget, hu]

theorem connects_get {g : Get} (hu : p.users.get? u = some (.get g)) :
    p.connects u = (g.stage matches .connecting) := by
  rw [connects, hu]

theorem Inv.budget_act (h : p.Inv) (a : PoolAct) (u : UserId) :
    (if p.connects u = false ∧ (p.act a).connects u = true then 1 else 0) + (p.act a).budget u ≤
      p.budget u := by
  cases hu : (p.act a).users.get? u with
  | none =>
    rw [connects.eq_def (p.act a), budget.eq_def (p.act a), hu]
    simp only [Bool.false_eq_true, and_false, if_false, Nat.zero_add]
    split
    · exact Nat.zero_le _
    · rename_i hlt
      have hlt' : ¬ u < p.nextUser := fun hlt' => hlt (Nat.lt_of_lt_of_le hlt' (nextUser_act p a))
      have hnone : p.users.get? u = none :=
        Option.eq_none_iff_forall_ne_some.mpr fun x hx => hlt' (h.fit hx).1
      rw [budget, hnone]
      simp only [if_neg hlt']
      exact Nat.le_refl _
  | some x =>
    cases x with
    | watch w =>
      rw [connects.eq_def (p.act a), budget.eq_def (p.act a), hu]
      simp
    | sweep s =>
      rw [connects.eq_def (p.act a), budget.eq_def (p.act a), hu]
      simp
    | get g' =>
      rw [budget_get hu, connects_get hu]
      cases came hu with
      | stayed was =>
        rw [budget_get was, connects_get was]
        cases g'.stage <;> simp
      | proceeded g was move =>
        obtain ⟨hlow, hhigh, -⟩ := (h.fit was).2
        rw [budget_get was, connects_get was]
        cases move with
        | finds c stage => simp [stage]
        | launches stage =>
          simp only [stage, and_self, if_true]
          omega
        | gets c stage => simp [stage]
        | retries c stage more =>
          simp only [stage, Bool.true_eq_false, false_and, if_false]
          omega
        | gives_up c stage last => simp [stage]
        | fails f stage => simp [stage]
      | began d subject act new destination slot entry first stage =>
        have hnone : p.users.get? u = none :=
          Option.eq_none_iff_forall_ne_some.mpr fun x hx =>
            Nat.lt_irrefl _ (new ▸ (h.fit hx).1)
        rw [budget, hnone, stage, first]
        simp [new]

theorem Inv.launches_le (h : p.Inv) (acts : List PoolAct) (u : UserId) :
    launches u p acts ≤ p.budget u := by
  induction acts generalizing p with
  | nil => exact Nat.zero_le _
  | cons a acts ih =>
    have hrest := ih (h.act a)
    have hstep := h.budget_act a u
    rw [launches]
    omega

/-! ## Results -/

theorem result?_eq_some {r : Except Failure ConnectionId} : p.result? u = some r ↔
    ∃ g, p.users.get? u = some (.get g) ∧ g.stage = .ended r := by
  constructor
  · intro h
    unfold result? at h
    split at h
    · rename_i g hg
      split at h
      · rename_i r' hstage
        exact ⟨g, hg, hstage.trans (congrArg _ (Option.some.inj h))⟩
      · simp at h
    · simp at h
  · rintro ⟨g, hg, hstage⟩
    rw [result?, hg]
    simp only [hstage]

/-- Why a call with the record `g` has this result after an act. -/
def Reason (p : Pool) (a : PoolAct) (u : UserId) (g : Get) : Except Failure ConnectionId → Prop
  | .ok c => (p.act a).Offers g.place c
  | .error f => a = .fails u f ∧ g.stage = .connecting ∨
      f = exhausted g ∧ attemptLimit ≤ g.attempt ∧ ∃ c, a = .connects u c false

theorem result?_act {a : PoolAct} {r : Except Failure ConnectionId} (hr : (p.act a).result? u = some r) :
    p.result? u = some r ∨
      ∃ g, p.users.get? u = some (.get g) ∧ g.isOpen = true ∧ p.Reason a u g r := by
  obtain ⟨g', hu, hstage⟩ := result?_eq_some.mp hr
  cases came hu with
  | stayed was => exact .inl (result?_eq_some.mpr ⟨g', was, hstage⟩)
  | proceeded g was move =>
    refine .inr ⟨g, was, ?_⟩
    cases move with
    | finds c stage offered =>
      obtain rfl := GetStage.ended.inj hstage
      exact ⟨by simp [Get.isOpen, stage], offered⟩
    | launches stage => simp at hstage
    | gets c stage offered =>
      obtain rfl := GetStage.ended.inj hstage
      exact ⟨by simp [Get.isOpen, stage], offered⟩
    | retries c stage more => simp at hstage
    | gives_up c stage last =>
      obtain rfl := GetStage.ended.inj hstage
      exact ⟨by simp [Get.isOpen, stage], .inr ⟨rfl, last, c, rfl⟩⟩
    | fails f stage =>
      obtain rfl := GetStage.ended.inj hstage
      exact ⟨by simp [Get.isOpen, stage], .inl ⟨rfl, stage⟩⟩
  | began d subject act new destination slot entry first stage => simp [stage] at hstage

theorem result?_run (p : Pool) (hp : p.result? u = none) (acts : List PoolAct)
    {r : Except Failure ConnectionId} (hr : (p.run acts).result? u = some r) :
    ∃ pre a post g, acts = pre ++ a :: post ∧ (p.run pre).users.get? u = some (.get g) ∧
      g.isOpen = true ∧ (p.run pre).Reason a u g r := by
  -- From the end: either the last act gave the result, or the call had it before.
  induction acts using List.reverseRecOn with
  | nil => simp [run, hp] at hr
  | append_singleton acts a ih =>
    rw [run_concat] at hr
    rcases result?_act hr with hr | ⟨g, hu, hopen, hreason⟩
    · obtain ⟨pre, b, post, g, rfl, hrest⟩ := ih hr
      exact ⟨pre, b, post ++ [a], g, by simp, hrest⟩
    · exact ⟨acts, a, [], g, rfl, hu, hopen, hreason⟩

/-! ## Connections -/

theorem Moves.connections {a : PoolAct} (h : p.Moves a q) : q.connections = p.connections ∨
    (∃ d, q.connections = (p.close d).connections) ∨
      ∃ u g d active, a = .connects u d active ∧ p.Connects u g ∧ p.connections.get? d = none ∧
        q.connections = p.connections.insert d ⟨g.destination, g.place, active⟩ := by
  cases h with
  | gets u g d was new => exact .inr (.inr ⟨u, g, d, true, rfl, was, new, rfl⟩)
  | retries u g d was new more => exact .inr (.inr ⟨u, g, d, false, rfl, was, new, rfl⟩)
  | gives_up u g d was new last => exact .inr (.inr ⟨u, g, d, false, rfl, was, new, rfl⟩)
  | closes d => exact .inr (.inl ⟨d, rfl⟩)
  | launches u g r was stage has cleared =>
    obtain ⟨-, rfl⟩ | ⟨d, -, -, rfl⟩ := cleared <;> exact .inl rfl
  | clears u w x r was watched stage has withdraws => exact .inl withdraws.users.2
  | sweeps u s b rest r was next queued has shuts =>
    obtain ⟨d, -, rfl⟩ | ⟨-, rfl⟩ := shuts
    · exact .inr (.inl ⟨d, rfl⟩)
    · exact .inl rfl
  | _ => exact .inl rfl

/-- The same connection at a later time. It may have closed. -/
structure Later (x y : Connection) : Prop where
  destination : y.destination = x.destination
  place : y.place = x.place
  active : y.active = true → x.active = true

theorem Later.refl (x : Connection) : Later x x := ⟨rfl, rfl, id⟩

theorem later_closed (x : Connection) : Later x { x with active := false } := ⟨rfl, rfl, by simp⟩

/-- A connection that is there after an act was there before, or the call that waited for it has
just got it. -/
theorem connection_act {a : PoolAct} {x : Connection} (hc : (p.act a).connections.get? c = some x) :
    (∃ y, p.connections.get? c = some y ∧ Later y x) ∨
      ∃ u g active, a = .connects u c active ∧ p.Connects u g ∧ p.connections.get? c = none ∧
        x = ⟨g.destination, g.place, active⟩ := by
  rcases (moves_act p a).connections with hsame | ⟨d, hclose⟩ | ⟨u, g, d, active, hact, hu, hnew, hinsert⟩
  · rw [hsame] at hc
    exact .inl ⟨x, hc, .refl x⟩
  · left
    rw [hclose, connections_close] at hc
    split at hc
    · obtain ⟨y, hy, rfl⟩ := Option.map_eq_some_iff.mp hc
      exact ⟨y, hy, later_closed y⟩
    · exact ⟨x, hc, .refl x⟩
  · rw [hinsert, Table.get?_insert] at hc
    split at hc
    · rename_i hcd
      subst hcd
      exact .inr ⟨u, g, active, hact, hu, hnew, (Option.some.inj hc).symm⟩
    · exact .inl ⟨x, hc, .refl x⟩

theorem later_act {x : Connection} (hc : p.connections.get? c = some x) (a : PoolAct) :
    ∃ y, (p.act a).connections.get? c = some y ∧ Later x y := by
  rcases (moves_act p a).connections with hsame | ⟨d, hclose⟩ | ⟨u, g, d, active, -, -, hnew, hinsert⟩
  · exact ⟨x, hsame ▸ hc, .refl x⟩
  · rw [hclose, connections_close, hc]
    split
    · exact ⟨_, rfl, later_closed x⟩
    · exact ⟨x, rfl, .refl x⟩
  · refine ⟨x, ?_, .refl x⟩
    rw [hinsert, Table.get?_insert_of_ne, hc]
    rintro rfl
    simp [hnew] at hc

end ClusterNet.Messaging.Pool
