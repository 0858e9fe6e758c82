import ClusterNet.Bench.Clock
import ClusterNet.Messaging.Pool

/-!
# A pool on the bench

A pool whose connections are made by a script: each takes ten milliseconds, and how it ends is
decided when it starts.
-/

namespace ClusterNet.Bench

open Messaging

/-- How an attempt to connect ends. -/
inductive Verdict where
  | refused
  /-- The connection is closed when it comes. -/
  | dead
  | live
  deriving DecidableEq, Repr

/-- An attempt on its way. -/
structure Flight where
  number : Nat
  due : Nat
  verdict : Verdict
  deriving Repr

structure PoolBench where
  pool : Pool
  flights : Table UserId Flight
  /-- How many attempts there were. -/
  attempts : Nat
  /-- How many of the next attempts will fail. -/
  failing : Nat
  /-- How many of those after them will come to nothing. -/
  dying : Nat
  /-- Who may move, in the order in which they came to be able to. -/
  ready : List UserId

namespace PoolBench

def ofSize (n : Nat) : PoolBench := ⟨.ofSize n, .empty, 0, 0, 0, []⟩

def connectTime : Nat := 10

/-- The address that a user wants a connection to. -/
def wanted? (b : PoolBench) (u : UserId) : Option Address :=
  match b.pool.users.get? u with
  | some (.get g) => match g.stage with
    | .connecting => some g.destination.address
    | _ => none
  | _ => none

/-- Starts an attempt. -/
def launch (b : PoolBench) (now : Nat) (u : UserId) : PoolBench :=
  let (verdict, failing, dying) :=
    if 0 < b.failing then (Verdict.refused, b.failing - 1, b.dying)
    else if 0 < b.dying then (.dead, 0, b.dying - 1)
    else (.live, 0, 0)
  { b with
    failing, dying, attempts := b.attempts + 1
    flights := b.flights.insert u ⟨b.attempts, now + connectTime, verdict⟩ }

/-- Ends an attempt. -/
def land? (b : PoolBench) (u : UserId) (f : Flight) (a : Address) : Option PoolBench :=
  let pool := match f.verdict with
    | .refused => b.pool.connectFails? u (.connect a .refused)
    | .dead => b.pool.connect? u f.number false
    | .live => b.pool.connect? u f.number true
  pool.map fun pool => { b with pool, flights := b.flights.erase u }

/-- A step of one user. -/
def moveOf? (b : PoolBench) (now : Nat) (u : UserId) : Option PoolBench :=
  match b.wanted? u with
  | some a =>
    match b.flights.get? u with
    | none => some (b.launch now u)
    | some f => if f.due ≤ now then b.land? u f a else none
  | none =>
    (((b.pool.inspect? u).orElse fun _ => b.pool.watch? u).orElse fun _ => b.pool.sweep? u).map
      fun pool => { b with pool }

def canMove (b : PoolBench) (now : Nat) (u : UserId) : Bool := (b.moveOf? now u).isSome

/-- Attempts that end at the same time end in the order in which they started. -/
def rank (b : PoolBench) (u : UserId) : Nat := ((b.flights.get? u).map (·.number)).getD b.attempts

/-- Everyone who can move and is not known to yet. -/
def awaken (now : Nat) (b : PoolBench) : PoolBench :=
  let more := b.pool.users.keys.filter fun u => !b.ready.contains u && b.canMove now u
  { b with ready := b.ready ++ more.mergeSort fun u v => b.rank u ≤ b.rank v }

/-- A user makes the moves that are possible at once. -/
def hurry (now : Nat) (u : UserId) : (moves : Nat) → PoolBench → PoolBench
  | 0, b => b
  | moves + 1, b =>
    match b.moveOf? now u with
    | some b => hurry now u moves b
    | none => b

/-- More moves than a user can make without waiting for another one. -/
def spurt : Nat := 100

/-- The user who could move first makes its moves. -/
def turn? (now : Nat) (b : PoolBench) : Option PoolBench :=
  let b := b.awaken now
  match b.ready with
  | [] => none
  | u :: rest => some ((hurry now u spurt { b with ready := rest }).awaken now)

def machine : Machine PoolBench where
  move? := turn?
  dues b := b.flights.values.map (·.due)

abbrev Run := Timed PoolBench

def change (f : PoolBench → PoolBench) (t : Run) : Run := { t with state := f t.state }

/-- Asks for a connection, unless the address has no IP. -/
def begin (a : Address) (subject : String) (t : Run) : Except Failure UserId × Run :=
  match a.resolve? with
  | none => (.error (.connect a .unresolved), t)
  | some ip =>
    let (u, pool) := t.state.pool.begin ⟨a, ip⟩ subject
    (.ok u, change (fun b => { hurry t.now u spurt { b with pool } with ready := b.ready }) t)

/-- Waits for the connection that was asked for. -/
def finish (asked : Except Failure UserId) (t : Run) : Except Failure ConnectionId × Run :=
  match asked with
  | .error f => (.error f, t)
  | .ok u =>
    let (r, t) := machine.await (fun b => b.pool.result? u) Machine.patience t
    (r.getD (.error .connectionClosed), t)

/-- Asks for several connections and waits for all of them. Hosts that have to be looked up come
after those that are IPs already. -/
def getAll (wants : List (Address × String)) (t : Run) : List (Except Failure ConnectionId) × Run :=
  let (atOnce, later) := wants.zipIdx.partition fun w => w.1.1.ip?.isSome
  let (asked, t) := (atOnce ++ later).foldl (fun (us, t) (w, i) =>
    let (u, t) := begin w.1 w.2 t
    (us ++ [(i, u)], t)) ([], t)
  (asked.mergeSort fun a b => a.1 ≤ b.1).foldl (fun (rs, t) u =>
    let (r, t) := finish u.2 t
    (rs ++ [r], t)) ([], t)

def closeAll (t : Run) : Run :=
  let (u, pool) := t.state.pool.beginSweep
  let done (b : PoolBench) : Option Unit := if b.pool.swept u then some () else none
  (machine.await done Machine.patience (change (fun b => { b with pool }) t)).2

/-- The IP that a connection leads to. -/
def ipOf? (b : PoolBench) (c : ConnectionId) : Option Ip :=
  (b.pool.connections.get? c).map (·.destination.ip)

/-- All connections that were ever made, by their numbers. -/
def made (b : PoolBench) : List ConnectionId :=
  (List.range b.attempts).filter fun c => b.pool.connections.contains c

end PoolBench

end ClusterNet.Bench
