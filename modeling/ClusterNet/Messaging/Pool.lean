import ClusterNet.Checksum.Fnv
import ClusterNet.Messaging.Failure
import ClusterNet.Table

/-!
# Connection pools

A pool keeps connections to other nodes. A destination has a fixed number of slots with one
connection each, and the subject of a message decides which slot it goes through. Whoever
works on a slot has it alone: the users of a slot wait in line, and the first in line has it.

Users are the calls that want a connection, the watchers that clear a slot when its connection
has closed, and those who close everything. Between two points where a user waits, nobody else
comes in.
-/

namespace ClusterNet.Messaging

/-- A destination: the address as it was written, and the IP that it stands for now. -/
structure Destination where
  address : Address
  ip : Ip
  deriving DecidableEq, Repr

abbrev ConnectionId := Nat

abbrev UserId := Nat

/-- The slots of one destination, from the first use until everything is closed. -/
abbrev EntryId := Nat

structure Place where
  entry : EntryId
  slot : Nat
  deriving DecidableEq, Repr

structure PoolSlot where
  connection : Option ConnectionId
  /-- Who waits for the slot. The first one has it. -/
  line : List UserId
  deriving Repr

structure Connection where
  destination : Destination
  place : Place
  active : Bool
  deriving Repr

/-- What a call for a connection does. -/
inductive GetStage where
  /-- Waits for the slot. -/
  | queued
  /-- Has the slot and waits for a new connection. -/
  | connecting
  | ended (result : Except Failure ConnectionId)

structure Get where
  destination : Destination
  place : Place
  /-- The attempt that goes on, from 1. -/
  attempt : Nat
  stage : GetStage

inductive WatchStage where
  /-- Waits until the connection is closed. -/
  | watching
  | queued
  | ended
  deriving DecidableEq, Repr

structure Watch where
  connection : ConnectionId
  stage : WatchStage
  deriving Repr

/-- Closes the connections in some places, one after the other. -/
structure Sweep where
  left : List Place
  /-- Stands in the line of the first place. -/
  queued : Bool
  deriving Repr

inductive User where
  | get (g : Get)
  | watch (w : Watch)
  | sweep (s : Sweep)

structure Pool where
  /-- How many slots a destination has. -/
  size : Nat
  index : Table Destination EntryId
  nextEntry : EntryId
  slots : Table Place PoolSlot
  connections : Table ConnectionId Connection
  users : Table UserId User
  nextUser : UserId

namespace Pool

/-- How often a call tries to get a connection that lives. -/
def attemptLimit : Nat := 3

/-- A pool has one slot for each destination at least. -/
def ofSize (n : Nat) : Pool := ⟨max n 1, .empty, 0, .empty, .empty, .empty, 0⟩

/-- The slot of `n` that messages on a subject go through. -/
def slotOf (n : Nat) (subject : String) : Nat :=
  (Fnv.hash (Bytes.ofText subject)).toNat % max n 1

def slot (p : Pool) (a : Place) : PoolSlot := (p.slots.get? a).getD ⟨none, []⟩

def setSlot (p : Pool) (a : Place) (s : PoolSlot) : Pool := { p with slots := p.slots.insert a s }

def isActive (p : Pool) (c : ConnectionId) : Bool :=
  ((p.connections.get? c).map (·.active)).getD false

def setUser (p : Pool) (u : UserId) (x : User) : Pool := { p with users := p.users.insert u x }

def addUser (p : Pool) (x : User) : UserId × Pool :=
  (p.nextUser, { p with users := p.users.insert p.nextUser x, nextUser := p.nextUser + 1 })

/-- Joins the line of a slot. -/
def join (p : Pool) (a : Place) (u : UserId) : Pool :=
  p.setSlot a { p.slot a with line := (p.slot a).line ++ [u] }

/-- Leaves the line of a slot. If the first one leaves, the next one has the slot. -/
def leave (p : Pool) (a : Place) (u : UserId) : Pool :=
  p.setSlot a { p.slot a with line := (p.slot a).line.filter (· != u) }

def has (p : Pool) (a : Place) (u : UserId) : Bool := (p.slot a).line.head? = some u

def put (p : Pool) (a : Place) (c : Option ConnectionId) : Pool :=
  p.setSlot a { p.slot a with connection := c }

/-! ## Getting a connection -/

/-- The entry of a destination, which is made if there is none. -/
def entryOf (p : Pool) (d : Destination) : EntryId × Pool :=
  match p.index.get? d with
  | some e => (e, p)
  | none =>
    (p.nextEntry, { p with index := p.index.insert d p.nextEntry, nextEntry := p.nextEntry + 1 })

/-- Starts a call for a connection. -/
def begin (p : Pool) (d : Destination) (subject : String) : UserId × Pool :=
  let (e, p) := p.entryOf d
  let place : Place := ⟨e, slotOf p.size subject⟩
  let (u, p) := p.addUser (.get ⟨d, place, 1, .queued⟩)
  (u, p.join place u)

def endGet (p : Pool) (u : UserId) (g : Get) (r : Except Failure ConnectionId) : Pool :=
  (p.setUser u (.get { g with stage := .ended r })).leave g.place u

/-- A call that has its slot takes the connection in it, if that is active. Otherwise the slot
is emptied, and a new connection is needed. -/
def inspect? (p : Pool) (u : UserId) : Option Pool :=
  match p.users.get? u with
  | some (.get g) =>
    match g.stage with
    | .queued =>
      if p.has g.place u then
        match (p.slot g.place).connection with
        | some c =>
          if p.isActive c then some (p.endGet u g (.ok c))
          else some ((p.put g.place none).setUser u (.get { g with stage := .connecting }))
        | none => some (p.setUser u (.get { g with stage := .connecting }))
      else none
    | _ => none
  | _ => none

/-- A new connection is there, and may be closed already. It goes into the slot, somebody
watches it, and the slot is given to the next user. A call whose connection is closed tries
again, at the end of the line. -/
def connect? (p : Pool) (u : UserId) (c : ConnectionId) (active : Bool) : Option Pool :=
  match p.users.get? u with
  | some (.get g) =>
    match g.stage with
    | .connecting =>
      let p := { p with connections := p.connections.insert c ⟨g.destination, g.place, active⟩ }
      let p := ((p.put g.place (some c)).leave g.place u)
      let (_, p) := p.addUser (.watch ⟨c, .watching⟩)
      if active then some (p.setUser u (.get { g with stage := .ended (.ok c) }))
      else if g.attempt < attemptLimit then
        let again := { g with attempt := g.attempt + 1, stage := .queued }
        some ((p.setUser u (.get again)).join g.place u)
      else
        let failure := Failure.connect g.destination.address (.closedAtOnce attemptLimit)
        some (p.setUser u (.get { g with stage := .ended (.error failure) }))
    | _ => none
  | _ => none

/-- No connection could be made. The slot stays empty. -/
def connectFails? (p : Pool) (u : UserId) (f : Failure) : Option Pool :=
  match p.users.get? u with
  | some (.get g) =>
    match g.stage with
    | .connecting => some (p.endGet u g (.error f))
    | _ => none
  | _ => none

/-- The one who wanted a connection gives up. -/
def abandon (p : Pool) (u : UserId) : Pool :=
  match p.users.get? u with
  | some (.get g) => { p.leave g.place u with users := p.users.erase u }
  | _ => p

def result? (p : Pool) (u : UserId) : Option (Except Failure ConnectionId) :=
  match p.users.get? u with
  | some (.get g) =>
    match g.stage with
    | .ended r => some r
    | _ => none
  | _ => none

/-! ## Closing -/

/-- A connection closes, for whatever reason. -/
def close (p : Pool) (c : ConnectionId) : Pool :=
  { p with connections := p.connections.modify c fun x => { x with active := false } }

/-- A watcher goes for the slot when its connection has closed, and clears it if that very
connection is still there. -/
def watch? (p : Pool) (u : UserId) : Option Pool :=
  match p.users.get? u with
  | some (.watch w) =>
    match p.connections.get? w.connection with
    | none => none
    | some x =>
      match w.stage with
      | .watching =>
        if x.active then none
        else some ((p.setUser u (.watch { w with stage := .queued })).join x.place u)
      | .queued =>
        if p.has x.place u then
          let p := if (p.slot x.place).connection = some w.connection then p.put x.place none else p
          some ((p.setUser u (.watch { w with stage := .ended })).leave x.place u)
        else none
      | .ended => none
  | _ => none

/-- Starts to close everything. From now on, calls get new entries. -/
def beginSweep (p : Pool) : UserId × Pool :=
  let places := p.index.values.flatMap fun e => (List.range p.size).map (Place.mk e)
  ({ p with index := .empty } : Pool).addUser (.sweep ⟨places, false⟩)

/-- Closes the connection in the next place. -/
def sweep? (p : Pool) (u : UserId) : Option Pool :=
  match p.users.get? u with
  | some (.sweep s) =>
    match s.left with
    | [] => none
    | a :: rest =>
      if !s.queued then some ((p.setUser u (.sweep { s with queued := true })).join a u)
      else if p.has a u then
        let q := match (p.slot a).connection with
          | some c => p.close c
          | none => p
        some (((q.put a none).leave a u).setUser u (.sweep ⟨rest, false⟩))
      else none
  | _ => none

def swept (p : Pool) (u : UserId) : Bool :=
  match p.users.get? u with
  | some (.sweep s) => s.left.isEmpty
  | _ => true

/-! ## What can be seen -/

def entryCount (p : Pool) : Nat := p.index.size

/-- Whether someone still works on an entry. -/
def inUse (p : Pool) (e : EntryId) : Bool :=
  p.users.values.any fun
    | .get g => match g.stage with
      | .ended _ => false
      | _ => g.place.entry = e
    | .watch w =>
      w.stage = .queued && ((p.connections.get? w.connection).map (·.place.entry)) = some e
    | .sweep s => s.left.any (·.entry = e)

/-- Whether a slot that counts still holds a connection. -/
def holds (p : Pool) (c : ConnectionId) : Bool :=
  match p.connections.get? c with
  | none => false
  | some x =>
    (p.slot x.place).connection = some c &&
      (p.index.values.contains x.place.entry || p.inUse x.place.entry)

end Pool

end ClusterNet.Messaging
