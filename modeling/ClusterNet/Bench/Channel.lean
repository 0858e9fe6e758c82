import ClusterNet.Bench.Stream

/-!
# A channel on the bench

One channel with a script at the other end of its stream. Messages are taken from the channel
as soon as they are there.
-/

namespace ClusterNet.Bench

open Messaging

structure ChannelBench where
  station : Station
  /-- The messages that were taken, the last first. -/
  taken : List Wire.Message

namespace ChannelBench

def ofChannel (c : Channel) (room : Nat) : ChannelBench :=
  ⟨⟨c, .ofCapacity room, .ofCapacity room, .none⟩, []⟩

def take? (b : ChannelBench) : Option ChannelBench :=
  (b.station.channel.receive?).map fun (m, channel) =>
    ⟨{ b.station with channel }, m :: b.taken⟩

/-- A stream gives and takes as much as there is and as fits. -/
def most : Nat := 65536

def machine : Machine ChannelBench where
  move? _ b :=
    let on (s : Option Station) : Option ChannelBench := s.map fun station => { b with station }
    ((on b.station.notice?).orElse fun _ => on (b.station.read? most)).orElse fun _ =>
      b.take?.orElse fun _ => on (b.station.write? most)
  dues _ := []

def tap : Tap ChannelBench where
  pipes b := (b.station.into, b.station.out)
  setPipes b p := { b with station := { b.station with into := p.1, out := p.2 } }

abbrev Run := Timed ChannelBench

def change (f : Channel → Channel) (t : Run) : Run :=
  { t with state := { t.state with
      station := { t.state.station with channel := f t.state.station.channel } } }

/-- Sends a message and waits for what becomes of it. -/
def send (m : Wire.Message) (t : Run) : Option (Except Failure Unit) × Run :=
  let (ticket, c) := t.state.station.channel.submit m
  machine.await (fun b => b.station.channel.outcome? ticket) 1 (change (fun _ => c) t)

def setFaults (f : Faults) (t : Run) : Run :=
  { t with state := { t.state with station := { t.state.station with faults := f } } }

/-- The messages that were taken, which are forgotten then. -/
def collect (t : Run) : List Wire.Message × Run :=
  (t.state.taken.reverse, { t with state := { t.state with taken := [] } })

end ChannelBench

end ClusterNet.Bench
