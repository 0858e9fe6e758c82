import ClusterNet.Proofs.Lifecycle

/-!
# A stop while the node starts

A start waits twice, to listen and to join, and a stop waits for the provider and for messaging. So
a stop may begin before the start has ended, and the start goes on behind it. Every stretch between
two waits is an act here. A stop that begins while the start waits leaves the node stopped only if
the start fails: a start that succeeds sets up again what the stop has taken down, or found missing.
-/

namespace ClusterNet

namespace Membership

variable {L : Type}

/-- Nobody is a member of a group that was not joined. -/
def Protocol.Vacant (p : Protocol L) : Prop := p.joined = false → p.members = .empty

namespace Roster

variable {g : Roster L}

theorem joined_joinProtocol (g : Roster L) : g.joinProtocol.protocol.joined = true := by
  unfold joinProtocol
  split
  · assumption
  · rw [introduce, announce_eq]
    rfl

theorem vacant_joinProtocol (g : Roster L) : g.joinProtocol.protocol.Vacant := by
  intro hjoined
  rw [joined_joinProtocol] at hjoined
  exact absurd hjoined (by simp)

theorem vacant_leaveProtocol (h : g.protocol.Vacant) :
    g.leaveProtocol.protocol.joined = false ∧ g.leaveProtocol.protocol.Vacant := by
  unfold leaveProtocol
  split
  · exact ⟨rfl, fun _ => rfl⟩
  · exact ⟨by simpa using ‹¬ g.protocol.joined = true›, h⟩

theorem finding_beginStop (g : Roster L) : g.beginStop.2.discovery.running = g.discovery.running := by
  unfold beginStop leaveGroup
  split
  · rfl
  · unfold leaveProtocol
    split
    · rfl
    · rfl

end Roster

end Membership

namespace PubSub.Host

theorem protocol_start (h : Host) (now : Nat) : (h.start now).1.roster.protocol = h.roster.protocol := by
  unfold start
  split
  · rfl
  · rfl

theorem protocol_stop (h : Host) : h.stop.roster.protocol = h.roster.protocol := by
  unfold stop
  split
  · rfl
  · rfl

end PubSub.Host

namespace Cluster

open ClusterNet.Membership Messaging PubSub

/-- How far a start is, and what it waits for. -/
inductive Starting where
  | no
  | binding
  | joining
  /-- It could not join, and waits for messaging to stop. -/
  | withdrawing (f : Failure)
  | ended (r : Done)

/-- How far a stop is, and what it waits for. -/
inductive Stopping where
  | no
  | leaving
  | closing
  | ended
  deriving DecidableEq

/-- The provider was left, or needed not be left. -/
def Stopping.late : Stopping → Bool
  | .closing | .ended => true
  | _ => false

theorem Stopping.begun {t : Stopping} (h : t.late = true) : t ≠ .no := by
  rintro rfl
  simp [late] at h

def Starting.ofProgress : Progress → Starting
  | .binding => .binding
  | .joining => .joining
  | .ended r => .ended r

/-- The start waits for what may let it succeed. -/
def Starting.waits : Starting → Bool
  | .binding | .joining => true
  | _ => false

namespace Stack

variable {n : Stack}

/-! ## Stretches of a stop -/

/-- The membership is left, and the provider is told so. -/
def departing (n : Stack) : Stack :=
  let g := n.roster.beginStop.2
  n.setRoster (g.setDiscovery g.discovery.beginStop)

def closing (n : Stack) : Stack := n.setMessaging n.messaging.stop

/-- The membership is as it will stay, and messaging is next. -/
def settling (n : Stack) (g : Roster ServiceKey) : Stack := (n.withRoster ((), g)).2.1.closing

/-- From where the provider was left. -/
def departed (n : Stack) : Stack :=
  n.settling (n.roster.setDiscovery n.roster.discovery.detach).finishStop

/-- From where a stop begins up to where it waits. -/
def beginStop (n : Stack) : Stopping × Stack :=
  if n.running then
    let n := n.ending
    if n.roster.running then
      if n.roster.discovery.running then (.leaving, n.departing)
      else (.closing, n.settling n.roster.beginStop.2.finishStop)
    else (.closing, n.settling n.roster)
  else (.ended, { n with stopped := true })

end Stack

/-- A start and a stop of one node. -/
structure Overlap where
  node : Stack
  starting : Starting
  stopping : Stopping
  /-- The stop began while the start was waiting. -/
  caught : Bool

inductive OverlapAct where
  | starts
  | binds (r : Except Messaging.Failure Socket)
  | joins (now : Nat) (r : Done)
  | withdraws
  | stops
  | leaves
  | closes

namespace Overlap

def ofNode (n : Stack) : Overlap := ⟨n, .no, .no, false⟩

/-- An act that is not possible now changes nothing. -/
def act (s : Overlap) : OverlapAct → Overlap
  | .starts =>
    match s.starting with
    | .no => { s with node := s.node.beginStart.2, starting := .ofProgress s.node.beginStart.1 }
    | _ => s
  | .binds r =>
    match s.starting with
    | .binding => { s with node := (s.node.bound r).2, starting := .ofProgress (s.node.bound r).1 }
    | _ => s
  | .joins now r =>
    match s.starting, r with
    | .joining, .ok _ =>
      let (p, n, _) := s.node.joined now r
      { s with node := n, starting := .ofProgress p }
    | .joining, .error f =>
      { s with node := (s.node.informed (.error f)).closing, starting := .withdrawing f }
    | _, _ => s
  | .withdraws =>
    match s.starting with
    | .withdrawing f => { s with node := (s.node.fail f).2, starting := .ofProgress (s.node.fail f).1 }
    | _ => s
  | .stops =>
    match s.stopping with
    | .no =>
      { s with
        node := s.node.beginStop.2
        stopping := s.node.beginStop.1
        caught := s.starting.waits }
    | _ => s
  | .leaves =>
    match s.stopping with
    | .leaving => { s with node := s.node.departed, stopping := .closing }
    | _ => s
  | .closes =>
    match s.stopping with
    | .closing => { s with stopping := .ended }
    | _ => s

def run (s : Overlap) (acts : List OverlapAct) : Overlap := acts.foldl act s

/-! ## Acts one right after the other -/

theorem run_start (n : Stack) (now : Nat) (bind : Except Messaging.Failure Socket) (join : Done)
    (hgate : n.roster.gate = ⟨none, none⟩) :
    (ofNode n).run [.starts, .binds bind, .joins now join, .withdraws] =
      ⟨(n.attempt now bind join).2.1, .ended (n.attempt now bind join).1, .no, false⟩ := by
  cases hstopped : n.stopped with
  | true =>
    have hbegin : n.beginStart = (.ended (.error .stopped), n) := by
      unfold Stack.beginStart
      rw [if_pos hstopped]
    rw [Stack.attempt_stopped hstopped]
    simp [run, act, ofNode, hbegin, Starting.ofProgress]
  | false =>
    cases hrunning : n.running with
    | true =>
      have hbegin : n.beginStart = (.ended (.ok ()), n) := by
        unfold Stack.beginStart
        rw [if_neg (by simp [hstopped]), if_pos hrunning]
      rw [Stack.attempt_running hstopped hrunning]
      simp [run, act, ofNode, hbegin, Starting.ofProgress]
    | false =>
      have hbegin := Stack.beginStart_fresh hstopped hrunning
      rw [Stack.attempt_fresh hstopped hrunning]
      cases bind with
      | error f => simp [run, act, ofNode, hbegin, Starting.ofProgress, Stack.bound_error]
      | ok socket =>
        cases join with
        | error f =>
          obtain ⟨mail, hjoined⟩ := (n.listening.entering socket).joined_error now f
          simp [run, act, ofNode, hbegin, Starting.ofProgress, Stack.bound_ok, hjoined, Progress.result]
          exact ⟨rfl, rfl⟩
        | ok u =>
          obtain ⟨mail, hjoined⟩ := Stack.joined_ok (n := n.listening.entering socket) hgate now
          simp [run, act, ofNode, hbegin, Starting.ofProgress, Stack.bound_ok, hjoined, Progress.result]

theorem run_stop (n : Stack) : ((ofNode n).run [.stops, .leaves, .closes]).node = n.stop := by
  cases hrunning : n.running with
  | false =>
    have hbegin : n.beginStop = (.ended, { n with stopped := true }) := by
      unfold Stack.beginStop
      rw [if_neg (by simp [hrunning])]
    have hstop : n.stop = { n with stopped := true } := by
      unfold Stack.stop
      rw [if_neg (by simp [hrunning])]
    simp [run, act, ofNode, hbegin, hstop]
  | true =>
    have hall : n.stop = n.ending.settling n.ending.roster.stop.2 := Stack.stop_eq hrunning
    have hfinding := Roster.finding_beginStop n.ending.roster
    rw [hall]
    cases hserving : n.ending.roster.running with
    | false =>
      have hbegin : n.beginStop = (.closing, n.ending.settling n.ending.roster) := by
        unfold Stack.beginStop
        rw [if_pos hrunning, if_neg (by simp [hserving])]
      have hstop : n.ending.roster.stop = (.ok (), n.ending.roster) := by
        unfold Roster.stop
        rw [if_neg (by simp [hserving])]
      simp [run, act, ofNode, hbegin, hstop]
    | true =>
      rw [Roster.stop_eq hserving]
      cases hleft : n.ending.roster.discovery.running with
      | false =>
        have hbegin : n.beginStop = (.closing, n.ending.settling n.ending.roster.beginStop.2.finishStop) := by
          unfold Stack.beginStop
          rw [if_pos hrunning, if_pos hserving, if_neg (by simp [hleft])]
        have hstay : n.ending.roster.beginStop.2.discovery.stop.2 = n.ending.roster.beginStop.2.discovery := by
          unfold Discovery.stop
          rw [if_neg (by simp [hfinding, hleft])]
        rw [hstay]
        simp [run, act, ofNode, hbegin, Roster.setDiscovery]
      | true =>
        have hbegin : n.beginStop = (.leaving, n.ending.departing) := by
          unfold Stack.beginStop
          rw [if_pos hrunning, if_pos hserving, if_pos hleft]
        have hleave : n.ending.roster.beginStop.2.discovery.stop.2 =
            n.ending.roster.beginStop.2.discovery.beginStop.detach := by
          unfold Discovery.stop
          rw [if_pos (hfinding.trans hleft)]
        rw [hleave]
        simp only [run, act, ofNode, hbegin, List.foldl_cons, List.foldl_nil]
        rfl

end Overlap

/-! ## What each stretch does to a node -/

/-- How a node looks, with its membership and whether it can be started. -/
structure Look extends Flags where
  joined : Bool
  stopped : Bool
  deriving DecidableEq

/-- Nothing runs. -/
def Look.dark (stopped : Bool) : Look := ⟨.all false, false, stopped⟩

namespace Stack

variable {n : Stack} {l : Look}

structure Shows (n : Stack) (l : Look) : Prop where
  stands : n.Stands l.toFlags
  joined : n.roster.protocol.joined = l.joined
  vacant : n.roster.protocol.Vacant
  stopped : n.stopped = l.stopped

theorem shows_ofProvider {config : Config} {generated : MemberId} {clock : UInt64}
    {provider : Provider ServiceKey} (h : ofProvider config generated clock provider = .ok n) :
    n.Shows (.dark false) := by
  obtain ⟨hstands, hstopped⟩ := stands_ofProvider h
  unfold ofProvider at h
  split at h
  · simp at h
  · obtain rfl := Except.ok.inj h
    exact ⟨hstands, rfl, fun _ => rfl, rfl⟩

theorem Shows.members (h : n.Shows l) (hjoined : l.joined = false) : n.members = [] := by
  have hempty := h.vacant (h.joined.trans hjoined)
  unfold Stack.members Roster.members
  rw [hempty]
  rfl

theorem Shows.listening (h : n.Shows l) :
    n.listening.Shows { l with cluster := true, messaging := true } :=
  ⟨h.stands.listening, h.joined, h.vacant, h.stopped⟩

theorem Shows.deaf (h : n.Shows l) (f : Messaging.Failure) :
    (n.deaf f).Shows { l with cluster := false, messaging := false, stopped := true } :=
  ⟨h.stands.deaf f, h.joined, h.vacant, rfl⟩

theorem Shows.entering (h : n.Shows l) (socket : Socket) :
    (n.entering socket).Shows { l with membership := true, discovery := true } :=
  ⟨h.stands.entering socket, h.joined, h.vacant, h.stopped⟩

theorem protocol_withRoster {A : Type} (n : Stack) (a : A) (g : Roster ServiceKey) :
    (n.withRoster (a, g)).2.1.roster.protocol = g.protocol := by
  have hroster : (n.withRoster (a, g)).2.1.roster = { g with log := [] } := Host.roster_follow n.host g
  rw [hroster]

theorem protocol_entered (hgate : n.roster.gate = ⟨none, none⟩) (now : Nat) :
    (n.entered now).roster.protocol =
      ((n.roster.setDiscovery n.roster.discovery).markLocal true).joinProtocol.protocol := by
  have hfinish : (n.roster.setDiscovery n.roster.discovery).finishStart (.ok ()) = _ :=
    Roster.finishStart_ok hgate
  refine (Host.protocol_start _ now).trans ((protocol_withRoster n _ _).trans ?_)
  exact congrArg (fun r => r.2.protocol) hfinish

theorem Shows.entered (h : n.Shows l) (now : Nat) : (n.entered now).Shows { l with
    events := true
    active := true
    reachable := true
    joined := true } := by
  have hprotocol := protocol_entered h.stands.gate now
  refine ⟨h.stands.entered now, ?_, ?_, h.stopped⟩
  · rw [hprotocol]
    exact Roster.joined_joinProtocol _
  · rw [hprotocol]
    exact Roster.vacant_joinProtocol _

/-- What could not be joined is taken back. -/
theorem Shows.refused (h : n.Shows l) (f : Failure) : (n.informed (.error f)).closing.Shows { l with
    messaging := false
    membership := false
    discovery := false
    active := false
    reachable := false } := by
  have hstands := h.stands.rejected f
  have hprotocol := protocol_withRoster n (.error f : Done)
    (n.roster.setDiscovery (n.roster.discovery.finishStart (.error f))).undoStart
  refine ⟨⟨h.stands.cluster, hstands.messaging, hstands.events, hstands.roster⟩, ?_, ?_, h.stopped⟩
  · exact (congrArg Protocol.joined hprotocol).trans h.joined
  · exact hprotocol ▸ h.vacant

theorem Shows.fail (h : n.Shows l) (f : Failure) :
    (n.fail f).2.Shows { l with cluster := false, stopped := true } :=
  ⟨⟨rfl, h.stands.messaging, h.stands.events, h.stands.roster⟩, h.joined, h.vacant, rfl⟩

theorem Shows.ending (h : n.Shows l) :
    n.ending.Shows { l with cluster := false, events := false, stopped := true } := by
  have hprotocol : n.ending.roster.protocol = n.roster.protocol := Host.protocol_stop n.host
  refine ⟨h.stands.ending, ?_, ?_, rfl⟩
  · exact (congrArg Protocol.joined hprotocol).trans h.joined
  · exact hprotocol ▸ h.vacant

theorem Shows.departing (h : n.Shows l) :
    n.departing.Shows { l with membership := false, discovery := false, joined := false } := by
  obtain ⟨m, hroster, hmember⟩ := h.stands.roster
  have hleft := hroster.beginStop.setDiscovery n.roster.beginStop.2.discovery.beginStop
  have hprotocol : n.departing.roster.protocol =
      ({ n.roster with running := false } : Roster ServiceKey).leaveProtocol.protocol := by
    unfold Stack.departing
    rw [Roster.beginStop_eq h.stands.gate]
    rfl
  obtain ⟨hjoined, hvacant⟩ :=
    Roster.vacant_leaveProtocol (g := { n.roster with running := false }) h.vacant
  refine ⟨⟨h.stands.cluster, h.stands.messaging, h.stands.events, m, hleft, hmember⟩, ?_, ?_, h.stopped⟩
  · rw [hprotocol]
    exact hjoined
  · rw [hprotocol]
    exact hvacant

theorem Shows.settling (h : n.Shows l) {g : Roster ServiceKey} {serving finding : Bool} {m : Member}
    (hg : g.Stands serving finding m) (hjoined : g.protocol.joined = l.joined) (hvacant : g.protocol.Vacant) :
    (n.settling g).Shows { l with
      messaging := false
      membership := serving
      discovery := finding
      active := m.active
      reachable := m.reachable } := by
  have hstands := h.stands.withRoster () hg
  have hprotocol := protocol_withRoster n () g
  refine ⟨⟨hstands.cluster, running_stop_messaging _, hstands.events, hstands.roster⟩, ?_, ?_, h.stopped⟩
  · exact (congrArg Protocol.joined hprotocol).trans hjoined
  · exact hprotocol ▸ hvacant

/-- A stop that has left the provider takes the flags of the local member, and nothing else. -/
theorem Shows.departed (h : n.Shows l) :
    n.departed.Shows { l with messaging := false, active := false, reachable := false } := by
  obtain ⟨m, hroster, -⟩ := h.stands.roster
  have hdetached := (hroster.setDiscovery n.roster.discovery.detach).finishStop
  rw [show n.roster.discovery.detach.running = l.discovery from hroster.discovery] at hdetached
  exact h.settling hdetached h.joined h.vacant

theorem Shows.settled (h : n.Shows l) : (n.settling n.roster).Shows { l with messaging := false } := by
  obtain ⟨m, hroster, hactive, hreachable⟩ := h.stands.roster
  have hsettled := h.settling hroster h.joined h.vacant
  rwa [hactive, hreachable] at hsettled

theorem Shows.stopped_only (h : n.Shows l) :
    ({ n with stopped := true } : Stack).Shows { l with stopped := true } :=
  ⟨⟨h.stands.cluster, h.stands.messaging, h.stands.events, h.stands.roster⟩, h.joined, h.vacant, rfl⟩

end Stack

/-! ## Which looks there are -/

open Stopping in
/-- How a node looks that is being started and stopped. -/
inductive Picture : Starting → Stopping → Bool → Look → Prop where
  | rests : Picture .no no false (.dark false)
  | listens : Picture .binding no false { Look.dark false with cluster := true, messaging := true }
  | enters : Picture .joining no false { Look.dark false with
      cluster := true
      messaging := true
      membership := true
      discovery := true }
  | withdraws (f : Failure) : Picture (.withdrawing f) no false { Look.dark false with cluster := true }
  | fails (f : Failure) (t : Stopping) (caught : Bool) : Picture (.ended (.error f)) t caught (.dark true)
  | runs : Picture (.ended (.ok ())) no false ⟨.all true, true, false⟩
  -- The stop has begun, and not while the start was waiting.
  | forestalls : Picture .no ended false (.dark true)
  | yields (f : Failure) {t : Stopping} (caught : Bool) (begun : t ≠ no) :
      Picture (.withdrawing f) t caught (.dark true)
  | leaves : Picture (.ended (.ok ())) leaving false { Look.dark true with
      messaging := true
      active := true
      reachable := true }
  | left {t : Stopping} (late : t.late = true) : Picture (.ended (.ok ())) t false (.dark true)
  -- The stop has begun while the start was waiting, and the start waits on.
  | missesListening {t : Stopping} (late : t.late = true) : Picture .binding t true (.dark true)
  | goesOn {t : Stopping} (late : t.late = true) :
      Picture .joining t true { Look.dark true with membership := true, discovery := true }
  | missesJoining : Picture .joining leaving true { Look.dark true with messaging := true }
  | missedJoining {t : Stopping} (late : t.late = true) : Picture .joining t true (.dark true)
  /-- The start has succeeded behind the stop. -/
  | survives {t : Stopping} (begun : t ≠ no) {l : Look} (cluster : l.cluster = false)
      (messaging : t ≠ leaving → l.messaging = false) (events : l.events = true) (stopped : l.stopped = true) :
      Picture (.ended (.ok ())) t true l

namespace Overlap

variable {n : Stack} {u : Starting} {t : Stopping} {c : Bool}

def Sound (s : Overlap) : Prop := ∃ l, Picture s.starting s.stopping s.caught l ∧ s.node.Shows l

theorem Sound.starts (h : (⟨n, .no, t, c⟩ : Overlap).Sound) : (act ⟨n, .no, t, c⟩ .starts).Sound := by
  obtain ⟨l, hpicture, hshows⟩ := h
  cases hpicture with
  | rests =>
    have hbegin := Stack.beginStart_fresh hshows.stopped hshows.stands.cluster
    unfold act
    dsimp only
    rw [hbegin]
    exact ⟨_, .listens, hshows.listening⟩
  | forestalls =>
    have hbegin : n.beginStart = (.ended (.error .stopped), n) := by
      unfold Stack.beginStart
      exact if_pos hshows.stopped
    unfold act
    dsimp only
    rw [hbegin]
    exact ⟨_, .fails .stopped .ended false, hshows⟩

theorem Sound.binds (h : (⟨n, .binding, t, c⟩ : Overlap).Sound) (r : Except Messaging.Failure Socket) :
    (act ⟨n, .binding, t, c⟩ (.binds r)).Sound := by
  obtain ⟨l, hpicture, hshows⟩ := h
  cases r with
  | error f =>
    have hdeaf := hshows.deaf f
    cases hpicture with
    | listens => exact ⟨_, .fails (.messaging f) .no false, hdeaf⟩
    | missesListening late => exact ⟨_, .fails (.messaging f) t true, hdeaf⟩
  | ok socket =>
    have hentering := hshows.entering socket
    cases hpicture with
    | listens => exact ⟨_, .enters, hentering⟩
    | missesListening late => exact ⟨_, .goesOn late, hentering⟩

theorem Sound.joins (h : (⟨n, .joining, t, c⟩ : Overlap).Sound) (now : Nat) (r : Done) :
    (act ⟨n, .joining, t, c⟩ (.joins now r)).Sound := by
  obtain ⟨l, hpicture, hshows⟩ := h
  have hbegun : Stopping.leaving ≠ .no := by simp
  cases r with
  | error f =>
    have hrefused := hshows.refused f
    cases hpicture with
    | enters => exact ⟨_, .withdraws f, hrefused⟩
    | goesOn late => exact ⟨_, .yields f true (Stopping.begun late), hrefused⟩
    | missesJoining => exact ⟨_, .yields f true hbegun, hrefused⟩
    | missedJoining late => exact ⟨_, .yields f true (Stopping.begun late), hrefused⟩
  | ok x =>
    obtain ⟨mail, hjoined⟩ := Stack.joined_ok hshows.stands.gate now
    have hentered := hshows.entered now
    unfold act
    dsimp only
    rw [hjoined]
    cases hpicture with
    | enters => exact ⟨_, .runs, hentered⟩
    | goesOn late => exact ⟨_, .survives (Stopping.begun late) rfl (fun _ => rfl) rfl rfl, hentered⟩
    | missesJoining => exact ⟨_, .survives hbegun rfl (by simp) rfl rfl, hentered⟩
    | missedJoining late => exact ⟨_, .survives (Stopping.begun late) rfl (fun _ => rfl) rfl rfl, hentered⟩

theorem Sound.withdraws {f : Failure} (h : (⟨n, .withdrawing f, t, c⟩ : Overlap).Sound) :
    (act ⟨n, .withdrawing f, t, c⟩ .withdraws).Sound := by
  obtain ⟨l, hpicture, hshows⟩ := h
  have hfailed := hshows.fail f
  cases hpicture with
  | withdraws => exact ⟨_, .fails f .no false, hfailed⟩
  | yields => exact ⟨_, .fails f t c, hfailed⟩

theorem Sound.stops (h : (⟨n, u, .no, c⟩ : Overlap).Sound) : (act ⟨n, u, .no, c⟩ .stops).Sound := by
  obtain ⟨l, hpicture, hshows⟩ := h
  have hending := hshows.ending
  -- What the stop finds running decides how far it comes at once.
  have hidle (hcluster : l.cluster = false) : n.beginStop = (.ended, { n with stopped := true }) := by
    have hoff : n.running = false := hshows.stands.cluster.trans hcluster
    unfold Stack.beginStop
    rw [if_neg (by simp [hoff])]
  have hearly (hcluster : l.cluster = true) (hserving : l.membership = false) :
      n.beginStop = (.closing, n.ending.settling n.ending.roster) := by
    obtain ⟨m, hroster, -⟩ := hending.stands.roster
    unfold Stack.beginStop
    rw [if_pos (hshows.stands.cluster.trans hcluster), if_neg (by simp [hroster.running, hserving])]
  have hlate (hcluster : l.cluster = true) (hserving : l.membership = true) (hfinding : l.discovery = true) :
      n.beginStop = (.leaving, n.ending.departing) := by
    obtain ⟨m, hroster, -⟩ := hending.stands.roster
    unfold Stack.beginStop
    rw [if_pos (hshows.stands.cluster.trans hcluster), if_pos (hroster.running.trans hserving),
      if_pos (hroster.discovery.trans hfinding)]
  unfold act
  cases hpicture with
  | rests =>
    dsimp only
    rw [hidle rfl]
    exact ⟨_, .forestalls, hshows.stopped_only⟩
  | fails f =>
    dsimp only
    rw [hidle rfl]
    exact ⟨_, .fails f .ended false, hshows.stopped_only⟩
  | listens =>
    dsimp only
    rw [hearly rfl rfl]
    exact ⟨_, .missesListening rfl, hending.settled⟩
  | withdraws f =>
    dsimp only
    rw [hearly rfl rfl]
    exact ⟨_, .yields f false (by simp), hending.settled⟩
  | enters =>
    dsimp only
    rw [hlate rfl rfl rfl]
    exact ⟨_, .missesJoining, hending.departing⟩
  | runs =>
    dsimp only
    rw [hlate rfl rfl rfl]
    exact ⟨_, .leaves, hending.departing⟩
  | yields f caught begun => exact absurd rfl begun
  | left late | missesListening late | goesOn late | missedJoining late => simp [Stopping.late] at late
  | survives begun => exact absurd rfl begun

theorem Sound.leaves (h : (⟨n, u, .leaving, c⟩ : Overlap).Sound) :
    (act ⟨n, u, .leaving, c⟩ .leaves).Sound := by
  obtain ⟨l, hpicture, hshows⟩ := h
  have hdeparted := hshows.departed
  have hbegun : Stopping.closing ≠ .no := by simp
  cases hpicture with
  | fails f => exact ⟨_, .fails f .closing c, hdeparted⟩
  | yields f => exact ⟨_, .yields f c hbegun, hdeparted⟩
  | leaves => exact ⟨_, .left rfl, hdeparted⟩
  | missesJoining => exact ⟨_, .missedJoining rfl, hdeparted⟩
  | survives _ cluster _ events stopped =>
    exact ⟨{ l with messaging := false, active := false, reachable := false },
      .survives hbegun cluster (fun _ => rfl) events stopped, hdeparted⟩
  | left late | missesListening late | goesOn late | missedJoining late => simp [Stopping.late] at late

theorem Sound.closes (h : (⟨n, u, .closing, c⟩ : Overlap).Sound) :
    (act ⟨n, u, .closing, c⟩ .closes).Sound := by
  obtain ⟨l, hpicture, hshows⟩ := h
  have hbegun : Stopping.ended ≠ .no := by simp
  refine ⟨l, ?_, hshows⟩
  cases hpicture with
  | fails f => exact .fails f .ended c
  | yields f => exact .yields f c hbegun
  | left => exact .left rfl
  | missesListening => exact .missesListening rfl
  | goesOn => exact .goesOn rfl
  | missedJoining => exact .missedJoining rfl
  | survives _ cluster messaging events stopped =>
    exact .survives hbegun cluster (fun _ => messaging (by simp)) events stopped

theorem Sound.act {s : Overlap} (h : s.Sound) (a : OverlapAct) : (s.act a).Sound := by
  obtain ⟨n, u, t, c⟩ := s
  cases a with
  | starts =>
    cases u with
    | no => exact h.starts
    | _ => exact h
  | binds r =>
    cases u with
    | binding => exact h.binds r
    | _ => exact h
  | joins now r =>
    cases u with
    | joining => exact h.joins now r
    | _ => exact h
  | withdraws =>
    cases u with
    | withdrawing f => exact h.withdraws
    | _ => exact h
  | stops =>
    cases t with
    | no => exact h.stops
    | _ => exact h
  | leaves =>
    cases t with
    | leaving => exact h.leaves
    | _ => exact h
  | closes =>
    cases t with
    | closing => exact h.closes
    | _ => exact h

theorem Sound.run {s : Overlap} (h : s.Sound) (acts : List OverlapAct) : (s.run acts).Sound := by
  induction acts generalizing s with
  | nil => exact h
  | cons a acts ih => exact ih (h.act a)

/-- How a node is when both its start and its stop have returned. -/
structure AfterBoth (s : Overlap) (r : Done) : Prop where
  /-- It says that it does not run, and cannot be started again. -/
  ended : s.node.running = false ∧ s.node.messaging.running = false ∧ s.node.stopped = true
  /-- Nothing is left, unless the start was caught waiting and has succeeded. -/
  dark : s.node.flags = .all false ∧ s.node.members = [] ↔ ¬ (s.caught = true ∧ r = .ok ())

/-- A start and a stop of a fresh node, in any order and at any pace. -/
theorem a_stop_outlasts_the_start {config : Config} {generated : MemberId} {clock : UInt64}
    {provider : Provider ServiceKey} (h : Stack.ofProvider config generated clock provider = .ok n)
    (acts : List OverlapAct) {r : Done} (hstart : ((ofNode n).run acts).starting = .ended r)
    (hstop : ((ofNode n).run acts).stopping = .ended) : AfterBoth ((ofNode n).run acts) r := by
  have hfresh : (ofNode n).Sound := ⟨_, .rests, Stack.shows_ofProvider h⟩
  obtain ⟨l, hpicture, hshows⟩ := hfresh.run acts
  have hover : l.cluster = false → l.messaging = false → l.stopped = true →
      ((ofNode n).run acts).node.running = false ∧ ((ofNode n).run acts).node.messaging.running = false ∧
        ((ofNode n).run acts).node.stopped = true := fun hcluster hmessaging hstopped =>
    ⟨hshows.stands.cluster.trans hcluster, hshows.stands.messaging.trans hmessaging,
      hshows.stopped.trans hstopped⟩
  have hflags := hshows.stands.flags
  generalize (ofNode n).run acts = s at hstart hstop hpicture hshows hover hflags ⊢
  obtain ⟨n, u, t, c⟩ := s
  subst hstart hstop
  cases hpicture with
  | fails f =>
    refine ⟨hover rfl rfl rfl, ?_⟩
    simp [hflags, Look.dark, hshows.members rfl]
  | left =>
    refine ⟨hover rfl rfl rfl, ?_⟩
    simp [hflags, Look.dark, hshows.members rfl]
  | survives _ hcluster hmessaging hevents hstopped =>
    refine ⟨hover hcluster (hmessaging (by simp)) hstopped, ?_⟩
    -- The event service was started last and after the stop had been there.
    have hlit : l.toFlags ≠ .all false := by
      intro hdark
      have hoff : l.events = false := congrArg Flags.events hdark
      simp [hevents] at hoff
    simp [hflags, hlit]

/-- A stop that catches a start which then cannot join. -/
theorem a_stop_outlasts_the_start_refused :
    let socket : Socket := ⟨.v4 ⟨127, 0, 0, 1⟩, 7000⟩
    let acts : List OverlapAct := [.starts, .binds (.ok socket), .stops,
      .joins 0 (.error (.discovery "busy")), .leaves, .withdraws, .closes]
    ∃ n, Stack.ofProvider {} ⟨"a"⟩ 0 (.ofNodes []) = .ok n ∧
      ((ofNode n).run acts).starting = .ended (.error (.discovery "busy")) ∧
      ((ofNode n).run acts).stopping = .ended ∧ ((ofNode n).run acts).caught = true ∧
      ((ofNode n).run acts).node.flags = .all false ∧ ((ofNode n).run acts).node.members = [] := by
  intro socket acts
  have hmade : Stack.ofProvider {} ⟨"a"⟩ 0 (.ofNodes []) = .ok _ := rfl
  refine ⟨_, hmade, rfl, rfl, rfl, ?_⟩
  apply (a_stop_outlasts_the_start hmade acts rfl rfl).dark.mpr
  simp

/-- A stop that begins while the node joins, and one that begins while it is about to listen. Both
calls have returned and the node says that it does not run, but it is a member of its group. -/
theorem a_start_survives_the_stop :
    let socket : Socket := ⟨.v4 ⟨127, 0, 0, 1⟩, 7000⟩
    let joining : List OverlapAct :=
      [.starts, .binds (.ok socket), .stops, .leaves, .closes, .joins 0 (.ok ())]
    let listening : List OverlapAct := [.starts, .stops, .closes, .binds (.ok socket), .joins 0 (.ok ())]
    ∃ n, Stack.ofProvider {} ⟨"a"⟩ 0 (.ofNodes []) = .ok n ∧
      (((ofNode n).run joining).starting = .ended (.ok ()) ∧ ((ofNode n).run joining).stopping = .ended ∧
        ((ofNode n).run joining).node.flags =
          { Flags.all false with events := true, active := true, reachable := true } ∧
        ((ofNode n).run joining).node.members.map (·.id) = [⟨"a"⟩]) ∧
      ((ofNode n).run listening).starting = .ended (.ok ()) ∧
        ((ofNode n).run listening).stopping = .ended ∧
        ((ofNode n).run listening).node.flags =
          { Flags.all true with cluster := false, messaging := false } ∧
        ((ofNode n).run listening).node.members.map (·.id) = [⟨"a"⟩] := by
  intro socket joining listening
  refine ⟨_, rfl, ⟨rfl, rfl, ?_, ?_⟩, rfl, rfl, ?_, ?_⟩
  · decide +kernel
  · decide +kernel
  · decide +kernel
  · decide +kernel

end Overlap

end Cluster

end ClusterNet
