import ClusterNet.Messaging.Pool
import ClusterNet.Proofs.Tables

/-!
# What may happen to a pool

The users of a pool move one at a time, in any order: calls that begin, look at their slot, get a
connection or none, and are given up; watchers; those who close everything. Connections close at
any time. Each lemma here says what one move needs and what it leaves.
-/

namespace ClusterNet.Messaging

/-- What may happen to a pool, in any order. -/
inductive PoolAct where
  | begins (d : Destination) (subject : String)
  | inspects (u : UserId)
  /-- A connection comes, and may be closed already. -/
  | connects (u : UserId) (c : ConnectionId) (active : Bool)
  | fails (u : UserId) (f : Failure)
  | abandons (u : UserId)
  | closes (c : ConnectionId)
  | watches (u : UserId)
  /-- Somebody starts to close everything. -/
  | closesAll
  | sweeps (u : UserId)

def PoolAct.mover? : PoolAct → Option UserId
  | .inspects u => some u
  | .connects u _ _ => some u
  | .fails u _ => some u
  | .abandons u => some u
  | .watches u => some u
  | .sweeps u => some u
  | .begins _ _ => none
  | .closes _ => none
  | .closesAll => none

/-- The call waits for its slot or for a connection. -/
def Get.isOpen (g : Get) : Bool :=
  match g.stage with
  | .ended _ => false
  | _ => true

namespace Pool

/-- An act that is not possible now changes nothing. No connection is made twice. -/
def act (p : Pool) : PoolAct → Pool
  | .begins d subject => (p.begin d subject).2
  | .inspects u => (p.inspect? u).getD p
  | .connects u c active =>
    if p.connections.contains c then p else (p.connect? u c active).getD p
  | .fails u f => (p.connectFails? u f).getD p
  | .abandons u => p.abandon u
  | .closes c => p.close c
  | .watches u => (p.watch? u).getD p
  | .closesAll => p.beginSweep.2
  | .sweeps u => (p.sweep? u).getD p

def run (p : Pool) (acts : List PoolAct) : Pool := acts.foldl act p

theorem run_concat (p : Pool) (acts : List PoolAct) (a : PoolAct) :
    p.run (acts ++ [a]) = (p.run acts).act a := by
  simp [run]

variable {p q : Pool} {u v : UserId} {a b : Place} {c : ConnectionId}

/-! ## What each operation changes -/

theorem slot_setSlot (s : PoolSlot) : (p.setSlot a s).slot b = if b = a then s else p.slot b := by
  rw [slot, setSlot, Table.get?_insert]
  split <;> rfl

theorem line_join (p : Pool) (a : Place) (u : UserId) (b : Place) :
    ((p.join a u).slot b).line = if b = a then (p.slot b).line ++ [u] else (p.slot b).line := by
  rw [join, slot_setSlot]
  split
  · rename_i h
    rw [h]
  · rfl

theorem line_leave (p : Pool) (a : Place) (u : UserId) (b : Place) : ((p.leave a u).slot b).line =
    if b = a then (p.slot b).line.filter (· != u) else (p.slot b).line := by
  rw [leave, slot_setSlot]
  split
  · rename_i h
    rw [h]
  · rfl

@[simp] theorem line_put (o : Option ConnectionId) : ((p.put a o).slot b).line = (p.slot b).line := by
  rw [put, slot_setSlot]
  split
  · rename_i h
    rw [h]
  · rfl

@[simp] theorem connection_join : ((p.join a u).slot b).connection = (p.slot b).connection := by
  rw [join, slot_setSlot]
  split
  · rename_i h
    rw [h]
  · rfl

@[simp] theorem connection_leave : ((p.leave a u).slot b).connection = (p.slot b).connection := by
  rw [leave, slot_setSlot]
  split
  · rename_i h
    rw [h]
  · rfl

theorem connection_put (p : Pool) (a : Place) (o : Option ConnectionId) (b : Place) :
    ((p.put a o).slot b).connection = if b = a then o else (p.slot b).connection := by
  rw [put, slot_setSlot]
  split <;> rfl

@[simp] theorem users_join : (p.join a u).users = p.users := rfl

@[simp] theorem users_leave : (p.leave a u).users = p.users := rfl

@[simp] theorem users_put (o : Option ConnectionId) : (p.put a o).users = p.users := rfl

@[simp] theorem connections_put (o : Option ConnectionId) :
    (p.put a o).connections = p.connections := rfl

@[simp] theorem slot_setUser (x : User) : (p.setUser u x).slot b = p.slot b := rfl

theorem users_setUser (p : Pool) (u : UserId) (x : User) (v : UserId) :
    (p.setUser u x).users.get? v = if v = u then some x else p.users.get? v :=
  Table.get?_insert _ _ _ _

@[simp] theorem slot_close : (p.close c).slot b = p.slot b := rfl

theorem connections_close (p : Pool) (c d : ConnectionId) : (p.close c).connections.get? d =
    if d = c then (p.connections.get? d).map fun x => { x with active := false }
    else p.connections.get? d :=
  Table.get?_modify _ _ _ _

theorem isActive_eq_true : p.isActive c = true ↔ ∃ x, p.connections.get? c = some x ∧ x.active := by
  unfold isActive
  cases p.connections.get? c <;> simp

theorem isActive_eq_false {x : Connection} (h : p.connections.get? c = some x) :
    p.isActive c = false ↔ x.active = false := by
  simp [isActive, h]

/-! ## What each move needs, and what it leaves -/

/-- The call waits for a new connection. -/
def Connects (p : Pool) (u : UserId) (g : Get) : Prop :=
  p.users.get? u = some (.get g) ∧ g.stage = .connecting

/-- The connection is in the slot, and it is active. -/
def Offers (p : Pool) (a : Place) (c : ConnectionId) : Prop :=
  (p.slot a).connection = some c ∧ p.isActive c = true

/-- A slot in which no active connection was is empty now. -/
def Cleared (p : Pool) (a : Place) (q : Pool) : Prop :=
  (p.slot a).connection = none ∧ q = p ∨
    ∃ c, (p.slot a).connection = some c ∧ p.isActive c = false ∧ q = p.put a none

/-- A watcher takes its own connection out of the slot, and no other. -/
def Withdraws (p : Pool) (a : Place) (c : ConnectionId) (q : Pool) : Prop :=
  (p.slot a).connection = some c ∧ q = p.put a none ∨ (p.slot a).connection ≠ some c ∧ q = p

/-- The connection in the slot, if there is one, is closed. -/
def Shuts (p : Pool) (a : Place) (q : Pool) : Prop :=
  (∃ c, (p.slot a).connection = some c ∧ q = p.close c) ∨ (p.slot a).connection = none ∧ q = p

/-- A call has begun at this entry. -/
def started (p : Pool) (d : Destination) (subject : String) (e : EntryId) : Pool :=
  (p.addUser (.get ⟨d, ⟨e, slotOf p.size subject⟩, 1, .queued⟩)).2.join ⟨e, slotOf p.size subject⟩
    p.nextUser

/-- A new connection is in its slot, the call that made it has left the line, and somebody
watches it. -/
def settle (p : Pool) (u : UserId) (g : Get) (c : ConnectionId) (active : Bool) : Pool :=
  (((({ p with connections := p.connections.insert c ⟨g.destination, g.place, active⟩ } : Pool).put
    g.place (some c)).leave g.place u).addUser (.watch ⟨c, .watching⟩)).2

/-- The failure of a call that got nothing but closed connections. -/
def exhausted (g : Get) : Failure := .connect g.destination.address (.closedAtOnce attemptLimit)

/-- All that an act may do. Where it is not possible, it does nothing. -/
inductive Moves (p : Pool) : PoolAct → Pool → Prop where
  | idle (a : PoolAct) : Moves p a p
  | begins (d : Destination) (subject : String) (e : EntryId) (index : Table Destination EntryId)
      (nextEntry : EntryId) (found : index.get? d = some e)
      (old : ∀ {d e}, p.index.get? d = some e → index.get? d = some e) :
      Moves p (.begins d subject) (({ p with index, nextEntry } : Pool).started d subject e)
  | finds (u : UserId) (g : Get) (c : ConnectionId) (was : p.users.get? u = some (.get g))
      (stage : g.stage = .queued) (has : p.has g.place u = true) (offered : p.Offers g.place c) :
      Moves p (.inspects u) (p.endGet u g (.ok c))
  | launches (u : UserId) (g : Get) (r : Pool) (was : p.users.get? u = some (.get g))
      (stage : g.stage = .queued) (has : p.has g.place u = true) (cleared : p.Cleared g.place r) :
      Moves p (.inspects u) (r.setUser u (.get { g with stage := .connecting }))
  | gets (u : UserId) (g : Get) (c : ConnectionId) (was : p.Connects u g)
      (new : p.connections.get? c = none) :
      Moves p (.connects u c true)
        ((p.settle u g c true).setUser u (.get { g with stage := .ended (.ok c) }))
  | retries (u : UserId) (g : Get) (c : ConnectionId) (was : p.Connects u g)
      (new : p.connections.get? c = none) (more : g.attempt < attemptLimit) :
      Moves p (.connects u c false) (((p.settle u g c false).setUser u
        (.get { g with attempt := g.attempt + 1, stage := .queued })).join g.place u)
  | gives_up (u : UserId) (g : Get) (c : ConnectionId) (was : p.Connects u g)
      (new : p.connections.get? c = none) (last : attemptLimit ≤ g.attempt) :
      Moves p (.connects u c false)
        ((p.settle u g c false).setUser u (.get { g with stage := .ended (.error (exhausted g)) }))
  | fails (u : UserId) (g : Get) (f : Failure) (was : p.Connects u g) :
      Moves p (.fails u f) (p.endGet u g (.error f))
  | abandons (u : UserId) (g : Get) (was : p.users.get? u = some (.get g)) :
      Moves p (.abandons u) { p.leave g.place u with users := p.users.erase u }
  | closes (c : ConnectionId) : Moves p (.closes c) (p.close c)
  | stirs (u : UserId) (w : Watch) (x : Connection) (was : p.users.get? u = some (.watch w))
      (watched : p.connections.get? w.connection = some x) (stage : w.stage = .watching)
      (closed : x.active = false) :
      Moves p (.watches u) ((p.setUser u (.watch { w with stage := .queued })).join x.place u)
  | clears (u : UserId) (w : Watch) (x : Connection) (r : Pool)
      (was : p.users.get? u = some (.watch w)) (watched : p.connections.get? w.connection = some x)
      (stage : w.stage = .queued) (has : p.has x.place u = true)
      (withdraws : p.Withdraws x.place w.connection r) :
      Moves p (.watches u) ((r.setUser u (.watch { w with stage := .ended })).leave x.place u)
  | closesAll : Moves p .closesAll p.beginSweep.2
  | queues (u : UserId) (s : Sweep) (a : Place) (rest : List Place)
      (was : p.users.get? u = some (.sweep s)) (next : s.left = a :: rest) (queued : s.queued = false) :
      Moves p (.sweeps u) ((p.setUser u (.sweep { s with queued := true })).join a u)
  | sweeps (u : UserId) (s : Sweep) (a : Place) (rest : List Place) (r : Pool)
      (was : p.users.get? u = some (.sweep s)) (next : s.left = a :: rest) (queued : s.queued = true)
      (has : p.has a u = true) (shuts : p.Shuts a r) :
      Moves p (.sweeps u) (((r.put a none).leave a u).setUser u (.sweep ⟨rest, false⟩))

theorem moves_begin (p : Pool) (d : Destination) (subject : String) :
    p.Moves (.begins d subject) (p.begin d subject).2 := by
  unfold begin entryOf
  cases hentry : p.index.get? d with
  | some e => exact .begins d subject e p.index p.nextEntry hentry id
  | none =>
    refine .begins d subject p.nextEntry _ (p.nextEntry + 1) (Table.get?_insert_self _ _ _) fun {d' e} h => ?_
    rw [Table.get?_insert_of_ne, h]
    rintro rfl
    simp [hentry] at h

theorem moves_inspect? (h : p.inspect? u = some q) : p.Moves (.inspects u) q := by
  unfold inspect? at h
  split at h
  · rename_i g hg
    split at h
    · rename_i hstage
      split at h
      · rename_i hhas
        split at h
        · rename_i c hc
          split at h <;> obtain rfl := Option.some.inj h
          · rename_i hactive
            exact .finds u g c hg hstage hhas ⟨hc, hactive⟩
          · rename_i hactive
            exact .launches u g _ hg hstage hhas (.inr ⟨c, hc, by simpa using hactive, rfl⟩)
        · rename_i hc
          obtain rfl := Option.some.inj h
          exact .launches u g p hg hstage hhas (.inl ⟨hc, rfl⟩)
      · simp at h
    · simp at h
  · simp at h

theorem moves_connect? {active : Bool} (hnew : p.connections.get? c = none)
    (h : p.connect? u c active = some q) : p.Moves (.connects u c active) q := by
  unfold connect? at h
  split at h
  · rename_i g hg
    split at h
    · rename_i hstage
      cases active with
      | true =>
        obtain rfl := Option.some.inj h
        exact .gets u g c ⟨hg, hstage⟩ hnew
      | false =>
        simp only [Bool.false_eq_true, if_false] at h
        split at h <;> obtain rfl := Option.some.inj h
        · rename_i hlt
          exact .retries u g c ⟨hg, hstage⟩ hnew hlt
        · rename_i hlt
          exact .gives_up u g c ⟨hg, hstage⟩ hnew (Nat.le_of_not_lt hlt)
    · simp at h
  · simp at h

theorem connectFails?_eq {g : Get} (h : p.Connects u g) (f : Failure) :
    p.connectFails? u f = some (p.endGet u g (.error f)) := by
  simp only [connectFails?, h.1, h.2]

theorem moves_connectFails? {f : Failure} (h : p.connectFails? u f = some q) : p.Moves (.fails u f) q := by
  unfold connectFails? at h
  split at h
  · rename_i g hg
    split at h
    · rename_i hstage
      obtain rfl := Option.some.inj h
      exact .fails u g f ⟨hg, hstage⟩
    · simp at h
  · simp at h

theorem moves_abandon (p : Pool) (u : UserId) : p.Moves (.abandons u) (p.abandon u) := by
  unfold abandon
  split
  · rename_i g hg
    exact .abandons u g hg
  · exact .idle _

theorem moves_watch? (h : p.watch? u = some q) : p.Moves (.watches u) q := by
  unfold watch? at h
  split at h
  · rename_i w hw
    split at h
    · simp at h
    · rename_i x hx
      split at h
      · rename_i hstage
        split at h
        · simp at h
        · rename_i hactive
          obtain rfl := Option.some.inj h
          exact .stirs u w x hw hx hstage (by simpa using hactive)
      · rename_i hstage
        split at h
        · rename_i hhas
          obtain rfl := Option.some.inj h
          refine .clears u w x _ hw hx hstage hhas ?_
          split
          · rename_i hc
            exact .inl ⟨hc, rfl⟩
          · rename_i hc
            exact .inr ⟨hc, rfl⟩
        · simp at h
      · simp at h
  · simp at h

theorem moves_sweep? (h : p.sweep? u = some q) : p.Moves (.sweeps u) q := by
  unfold sweep? at h
  split at h
  · rename_i s hs
    split at h
    · simp at h
    · rename_i a rest hleft
      split at h
      · rename_i hqueued
        obtain rfl := Option.some.inj h
        exact .queues u s a rest hs hleft (by simpa using hqueued)
      · rename_i hqueued
        split at h
        · rename_i hhas
          obtain rfl := Option.some.inj h
          refine .sweeps u s a rest _ hs hleft (by simpa using hqueued) hhas ?_
          split
          · rename_i c hc
            exact .inl ⟨c, hc, rfl⟩
          · rename_i hc
            exact .inr ⟨hc, rfl⟩
        · simp at h
  · simp at h

theorem moves_act (p : Pool) (a : PoolAct) : p.Moves a (p.act a) := by
  have hstep : ∀ {o : Option Pool}, (∀ q, o = some q → p.Moves a q) → p.Moves a (o.getD p) := by
    rintro (_ | q) ho
    · exact .idle a
    · exact ho q rfl
  cases a with
  | begins d subject => exact moves_begin p d subject
  | inspects u => exact hstep fun q => moves_inspect?
  | connects u c active =>
    rw [act]
    split
    · exact .idle _
    · rename_i hnew
      exact hstep fun q => moves_connect? (by simpa [Table.contains] using hnew)
  | fails u f => exact hstep fun q => moves_connectFails?
  | abandons u => exact moves_abandon p u
  | closes c => exact .closes c
  | watches u => exact hstep fun q => moves_watch?
  | closesAll => exact .closesAll
  | sweeps u => exact hstep fun q => moves_sweep?

/-! ## What no move takes back -/

/-- The size stays, no id of a user is given out twice, and entries are not lost. -/
structure Frame (p q : Pool) : Prop where
  size : q.size = p.size
  nextUser : p.nextUser ≤ q.nextUser
  index : ∀ {d e}, p.index.get? d = some e → q.index.get? d = some e

theorem Frame.of_eq (hsize : q.size = p.size) (hnext : p.nextUser ≤ q.nextUser)
    (hindex : q.index = p.index) : p.Frame q :=
  ⟨hsize, hnext, fun h => hindex ▸ h⟩

theorem Moves.frame {a : PoolAct} (h : p.Moves a q) (ha : a ≠ .closesAll) : p.Frame q := by
  cases h with
  | idle => exact .of_eq rfl (Nat.le_refl _) rfl
  | begins d subject e index nextEntry found old => exact ⟨rfl, Nat.le_succ _, old⟩
  | finds u g c was stage has offered => exact .of_eq rfl (Nat.le_refl _) rfl
  | launches u g r was stage has cleared =>
    obtain ⟨-, rfl⟩ | ⟨c, -, -, rfl⟩ := cleared <;> exact .of_eq rfl (Nat.le_refl _) rfl
  | gets u g c was new => exact .of_eq rfl (Nat.le_succ _) rfl
  | retries u g c was new more => exact .of_eq rfl (Nat.le_succ _) rfl
  | gives_up u g c was new last => exact .of_eq rfl (Nat.le_succ _) rfl
  | fails u g f was => exact .of_eq rfl (Nat.le_refl _) rfl
  | abandons u g was => exact .of_eq rfl (Nat.le_refl _) rfl
  | closes c => exact .of_eq rfl (Nat.le_refl _) rfl
  | stirs u w x was watched stage closed => exact .of_eq rfl (Nat.le_refl _) rfl
  | clears u w x r was watched stage has withdraws =>
    obtain ⟨-, rfl⟩ | ⟨-, rfl⟩ := withdraws <;> exact .of_eq rfl (Nat.le_refl _) rfl
  | closesAll => exact absurd rfl ha
  | queues u s a rest was next queued => exact .of_eq rfl (Nat.le_refl _) rfl
  | sweeps u s a rest r was next queued has shuts =>
    obtain ⟨c, -, rfl⟩ | ⟨-, rfl⟩ := shuts <;> exact .of_eq rfl (Nat.le_refl _) rfl

theorem frame_act (p : Pool) {a : PoolAct} (ha : a ≠ .closesAll) : p.Frame (p.act a) :=
  (moves_act p a).frame ha

theorem Moves.users {a : PoolAct} (h : p.Moves a q) (hu : u < p.nextUser) (ha : a.mover? ≠ some u) :
    q.users.get? u = p.users.get? u := by
  have hnew : u ≠ p.nextUser := Nat.ne_of_lt hu
  have hother : ∀ {w}, a.mover? = some w → u ≠ w := by
    rintro w hw rfl
    exact ha hw
  cases h with
  | idle => rfl
  | begins d subject e index nextEntry found old => exact Table.get?_insert_of_ne _ hnew _
  | finds w g c was stage has offered => exact Table.get?_insert_of_ne _ (hother rfl) _
  | launches w g r was stage has cleared =>
    obtain ⟨-, rfl⟩ | ⟨c, -, -, rfl⟩ := cleared <;> exact Table.get?_insert_of_ne _ (hother rfl) _
  | gets w g c was new =>
    exact (Table.get?_insert_of_ne _ (hother rfl) _).trans (Table.get?_insert_of_ne _ hnew _)
  | retries w g c was new more =>
    exact (Table.get?_insert_of_ne _ (hother rfl) _).trans (Table.get?_insert_of_ne _ hnew _)
  | gives_up w g c was new last =>
    exact (Table.get?_insert_of_ne _ (hother rfl) _).trans (Table.get?_insert_of_ne _ hnew _)
  | fails w g f was => exact Table.get?_insert_of_ne _ (hother rfl) _
  | abandons w g was => exact Table.get?_erase_of_ne _ (hother rfl)
  | closes c => rfl
  | stirs w w' x was watched stage closed => exact Table.get?_insert_of_ne _ (hother rfl) _
  | clears w w' x r was watched stage has withdraws =>
    obtain ⟨-, rfl⟩ | ⟨-, rfl⟩ := withdraws <;> exact Table.get?_insert_of_ne _ (hother rfl) _
  | closesAll => exact Table.get?_insert_of_ne _ hnew _
  | queues w s b rest was next queued => exact Table.get?_insert_of_ne _ (hother rfl) _
  | sweeps w s b rest r was next queued has shuts =>
    obtain ⟨c, -, rfl⟩ | ⟨-, rfl⟩ := shuts <;> exact Table.get?_insert_of_ne _ (hother rfl) _

theorem size_act (p : Pool) (a : PoolAct) : (p.act a).size = p.size := by
  cases a with
  | closesAll => rfl
  | _ => exact (frame_act p (by simp)).size

theorem nextUser_act (p : Pool) (a : PoolAct) : p.nextUser ≤ (p.act a).nextUser := by
  cases a with
  | closesAll => exact Nat.le_succ _
  | _ => exact (frame_act p (by simp)).nextUser

theorem size_run (p : Pool) (acts : List PoolAct) : (p.run acts).size = p.size := by
  induction acts generalizing p with
  | nil => rfl
  | cons a acts ih => exact (ih (p.act a)).trans (size_act p a)

end Pool

end ClusterNet.Messaging
