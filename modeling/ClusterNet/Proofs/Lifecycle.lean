import ClusterNet.Cluster.Stack
import ClusterNet.Proofs.GroupNews
import ClusterNet.Proofs.HostActs

/-!
# All services of a node, or none

Five services and the local member each say for themselves whether they run. Between two calls they
agree: either all of them run or none does. A node runs once at most. It starts when it can listen
and join, and after a stop or a start that failed it is over for good.
-/

namespace ClusterNet

theorem Member.asleep_build (id : MemberId) (address : Address) (details : List Detail) :
    (Member.build id address details).active = false ∧
      (Member.build id address details).reachable = false := by
  have hdetail : ∀ (m : Member) d, (m.withDetail d).active = m.active ∧
      (m.withDetail d).reachable = m.reachable := by
    intro m d
    cases d <;> exact ⟨rfl, rfl⟩
  have hfold : ∀ (ds : List Detail) (m : Member), (ds.foldl withDetail m).active = m.active ∧
      (ds.foldl withDetail m).reachable = m.reachable := by
    intro ds
    induction ds with
    | nil => exact fun m => ⟨rfl, rfl⟩
    | cons d ds ih =>
      intro m
      obtain ⟨hactive, hreachable⟩ := hdetail m d
      rw [List.foldl_cons, ← hactive, ← hreachable]
      exact ih _
  exact hfold details _

namespace Membership

variable {L : Type}

/-! ## The local member -/

namespace Protocol

variable {p q : Protocol L} {m : Member}

/-- Nobody else is kept under the key of the local member. -/
structure Apart (p : Protocol L) (m : Member) : Prop where
  keyed : p.Keyed m
  alone : ∀ {id}, p.member? id = some localKey → id = m.id

theorem Apart.of_eq (h : p.Apart m) (hobjects : q.objects = p.objects) (hnext : q.nextKey = p.nextKey)
    (hmembers : q.members = p.members) : q.Apart m where
  keyed := h.keyed.of_eq hobjects hnext hmembers
  alone hk := by
    rw [member?, hmembers] at hk
    exact h.alone hk

theorem Apart.discover (h : p.Apart m) (n : Node) : (p.discover n).2.Apart m where
  keyed := h.keyed.discover n
  alone {id} hk := by
    have hfresh := h.keyed.fresh
    rw [member?_discover] at hk
    split at hk
    · rw [Option.some.inj hk] at hfresh
      exact absurd hfresh (Nat.lt_irrefl _)
    · exact h.alone hk

theorem Apart.enrol (h : p.Apart m) (nodes : List Node) : (p.enrol nodes).Apart m := by
  have hall : (nodes.foldl (fun p n => (p.discover n).2) p).Apart m := by
    induction nodes generalizing p with
    | nil => exact h
    | cons n nodes ih => exact ih (h.discover n)
  have hmember : ∀ id, (p.enrol nodes).member? id = if id = m.id then some localKey else
      (nodes.foldl (fun p n => (p.discover n).2) p).member? id := by
    intro id
    rw [← hall.keyed.localMember]
    apply Table.get?_insert
  refine ⟨⟨hall.keyed.fresh, ?_, hall.keyed.distinct.insert _ _, hall.keyed.own⟩, ?_⟩
  · intro id k hk
    rw [hmember] at hk
    split at hk
    · rw [← Option.some.inj hk]
      exact hall.keyed.fresh
    · exact hall.keyed.bound hk
  · intro id hk
    rw [hmember] at hk
    split at hk
    · assumption
    · exact hall.alone hk

theorem Apart.expel (h : p.Apart m) {id : MemberId} {k : MemberKey} (hk : k ≠ localKey) :
    (p.expel id k).Apart m := by
  have hmember : ∀ {id' k'}, (p.expel id k).member? id' = some k' → p.member? id' = some k' := by
    intro id' k' hk'
    rw [member?_expel] at hk'
    split at hk'
    · simp at hk'
    · exact hk'
  refine ⟨⟨h.keyed.fresh, fun hk' => h.keyed.bound (hmember hk'), h.keyed.distinct.erase _, ?_⟩, ?_⟩
  · rw [object_expel, if_neg (Ne.symm hk)]
    exact h.keyed.own
  · intro id' hk'
    exact h.alone (hmember hk')

theorem Apart.follow (h : p.Apart m) (e : DiscoveryEvent) : (p.follow e).2.Apart m := by
  obtain ⟨presence, n⟩ := e
  by_cases hn : n.id.retag = m.id
  · rwa [h.keyed.follow_own hn]
  cases presence with
  | joined =>
    rw [h.keyed.follow_joined hn]
    exact h.discover n
  | left =>
    rw [h.keyed.follow_left hn]
    cases hk : p.member? n.id.retag with
    | none => exact h
    | some k =>
      apply h.expel
      rintro rfl
      exact hn (h.alone hk)

theorem Apart.mark (h : p.Apart m) (alive : Bool) :
    (p.change localKey (·.marked alive)).Apart (m.marked alive) where
  keyed := by
    refine ⟨h.keyed.fresh, h.keyed.bound, h.keyed.distinct, ?_⟩
    rw [change, Table.get?_modify, if_pos rfl, h.keyed.own]
    rfl
  alone := h.alone

theorem apart_ofLocal (m : Member) : (ofLocal m : Protocol L).Apart m :=
  ⟨(Roster.idle_ofLocal m (.ofNodes [])).keyed, fun hk => by simp [member?, ofLocal] at hk⟩

end Protocol

/-! ## Rosters -/

namespace Roster

variable {g : Roster L} {serving finding : Bool} {m : Member}

/-- Whether a roster runs, whether its discovery does, and how the local member looks. -/
structure Stands (g : Roster L) (serving finding : Bool) (m : Member) : Prop where
  running : g.running = serving
  discovery : g.discovery.running = finding
  gate : g.gate = ⟨none, none⟩
  apart : g.protocol.Apart m

theorem stands_ofLocal (m : Member) (provider : Provider L) : (ofLocal m provider).Stands false false m :=
  ⟨rfl, rfl, rfl, Protocol.apart_ofLocal m⟩

theorem Stands.setDiscovery (h : g.Stands serving finding m) (d : Discovery L) :
    (g.setDiscovery d).Stands serving d.running m :=
  ⟨h.running, rfl, h.gate, h.apart⟩

theorem Stands.beginStart (h : g.Stands serving finding m) : g.beginStart.Stands true finding m :=
  ⟨rfl, h.discovery, h.gate, h.apart.of_eq rfl rfl rfl⟩

theorem Stands.markLocal (h : g.Stands serving finding m) (alive : Bool) :
    (g.markLocal alive).Stands serving finding (m.marked alive) :=
  ⟨h.running, h.discovery, h.gate, h.apart.mark alive⟩

theorem Stands.enrol (h : g.Stands serving finding m) (nodes : List Node) :
    (g.enrol nodes).Stands serving finding m :=
  ⟨h.running, h.discovery, h.gate, (h.apart.enrol nodes).of_eq rfl rfl rfl⟩

theorem Stands.introduce (h : g.Stands serving finding m) : g.introduce.Stands serving finding m := by
  rw [Roster.introduce, announce_eq]
  exact ⟨h.running, h.discovery, h.gate, h.apart⟩

theorem Stands.joinProtocol (h : g.Stands serving finding m) :
    g.joinProtocol.Stands serving finding m := by
  unfold Roster.joinProtocol
  split
  · exact h
  · have hin := (h.enrol g.discovery.provider.nodes).introduce
    exact ⟨hin.running, hin.discovery, hin.gate, hin.apart.of_eq rfl rfl rfl⟩

theorem Stands.leaveProtocol (h : g.Stands serving finding m) :
    g.leaveProtocol.Stands serving finding m := by
  unfold Roster.leaveProtocol
  split
  · have hkeyed := h.apart.keyed
    refine ⟨h.running, h.discovery, h.gate, ⟨hkeyed.fresh, ?_, Table.distinct_empty, hkeyed.own⟩, ?_⟩
    · intro id k hk
      simp [Protocol.member?, disband] at hk
    · intro id hk
      simp [Protocol.member?, disband] at hk
  · exact h

theorem finishStart_ok (hgate : g.gate = ⟨none, none⟩) :
    g.finishStart (.ok ()) = (.ok (), (g.markLocal true).joinProtocol) := by
  have hrefusal : (g.markLocal true).gate.joinRefusal = none := congrArg Gate.joinRefusal hgate
  unfold finishStart joinGroup
  simp only [hrefusal]

theorem Stands.undoStart (h : g.Stands serving finding m) :
    g.undoStart.Stands false finding (m.marked false) :=
  ⟨rfl, h.discovery, h.gate, (h.apart.mark false).of_eq rfl rfl rfl⟩

theorem beginStop_eq (hgate : g.gate = ⟨none, none⟩) :
    g.beginStop = (.ok (), ({ g with running := false } : Roster L).leaveProtocol) := by
  unfold beginStop leaveGroup
  simp only [hgate]

theorem running_stop (d : Discovery L) : d.stop.2.running = false := by
  unfold Discovery.stop
  split
  · rfl
  · simpa using ‹¬ d.running = true›

theorem stop_eq (hrunning : g.running = true) : g.stop.2 =
    (g.beginStop.2.setDiscovery g.beginStop.2.discovery.stop.2).finishStop := by
  unfold stop
  rw [if_pos hrunning]

theorem Stands.beginStop (h : g.Stands serving finding m) : g.beginStop.2.Stands false finding m := by
  rw [beginStop_eq h.gate]
  exact Stands.leaveProtocol ⟨rfl, h.discovery, h.gate, h.apart⟩

theorem Stands.finishStop (h : g.Stands serving finding m) :
    g.finishStop.Stands serving finding (m.marked false) :=
  ⟨h.running, h.discovery, h.gate, (h.apart.mark false).of_eq rfl rfl rfl⟩

/-- Whatever comes to pass in between, a stop ends it. -/
theorem Stands.stop (h : g.Stands true finding m) : g.stop.2.Stands false false (m.marked false) := by
  rw [stop_eq h.running]
  have hleft := h.beginStop
  have hstopped := (hleft.setDiscovery g.beginStop.2.discovery.stop.2).finishStop
  rwa [running_stop] at hstopped

/-! Events of discovery change neither of them. -/

theorem Stands.tell (h : g.Stands serving finding m) (news : News) (l : L) :
    (g.tell news l).Stands serving finding m :=
  ⟨h.running, h.discovery, h.gate, h.apart⟩

theorem Stands.hear (h : g.Stands serving finding m) (e : DiscoveryEvent) :
    (g.hear e).Stands serving finding m := by
  rw [hear_eq]
  exact ⟨h.running, h.discovery, h.gate, h.apart.follow e⟩

theorem Stands.spread (h : g.Stands serving finding m) (e : DiscoveryEvent) :
    (g.spread e).Stands serving finding m := by
  unfold Roster.spread
  generalize g.discovery.listeners.snapshot = ls
  induction ls generalizing g with
  | nil => exact h
  | cons l ls ih =>
    cases l with
    | guest l => exact ih (h.tell _ l)
    | protocol => exact ih (h.hear e)

theorem Stands.occur (h : g.Stands serving finding m) (e : DiscoveryEvent) :
    (g.occur e).Stands serving finding m := by
  have hset : (g.setProvider (·.after e)).Stands serving finding m :=
    ⟨h.running, h.discovery, h.gate, h.apart⟩
  unfold Roster.occur Roster.post
  generalize (g.setProvider (·.after e)).discovery.provider.listeners.snapshot = ls
  generalize g.setProvider (·.after e) = g' at hset
  induction ls generalizing g' with
  | nil => exact hset
  | cons l ls ih =>
    cases l with
    | guest l => exact ih _ (hset.tell _ l)
    | service => exact ih _ (hset.spread e)

end Roster

end Membership

namespace PubSub.Host

open ClusterNet.Membership

/-! ## Hosts -/

theorem frame_notices (h : Host) (ds : List (Delivery ServiceKey)) :
    (h.notices ds).1.roster = h.roster ∧ (h.notices ds).1.current.running = h.current.running := by
  have hnotice : ∀ (h : Host) d, (h.notice d).1.roster = h.roster ∧
      (h.notice d).1.current.running = h.current.running := by
    intro h d
    unfold notice
    split
    · split <;> exact ⟨rfl, rfl⟩
    · exact ⟨rfl, rfl⟩
  rw [fst_notices]
  induction ds generalizing h with
  | nil => exact ⟨rfl, rfl⟩
  | cons d ds ih =>
    obtain ⟨hroster, hrunning⟩ := hnotice h d
    rw [List.foldl_cons, ← hroster, ← hrunning]
    exact ih _

theorem roster_follow (h : Host) (g : Roster ServiceKey) : (h.follow g).1.roster = { g with log := [] } :=
  (frame_notices _ _).1

theorem running_follow (h : Host) (g : Roster ServiceKey) :
    (h.follow g).1.current.running = h.current.running :=
  (frame_notices _ _).2

theorem stands_start {h : Host} {serving finding : Bool} {m : Member}
    (hroster : h.roster.Stands serving finding m) (now : Nat) :
    (h.start now).1.roster.Stands serving finding m := by
  unfold start
  split
  · exact hroster
  · exact ⟨hroster.running, hroster.discovery, hroster.gate, hroster.apart⟩

theorem stands_stop {h : Host} {serving finding : Bool} {m : Member}
    (hroster : h.roster.Stands serving finding m) : h.stop.roster.Stands serving finding m := by
  unfold stop
  split
  · exact ⟨hroster.running, hroster.discovery, hroster.gate, hroster.apart⟩
  · exact hroster

theorem running_start (h : Host) (now : Nat) : (h.start now).1.current.running = true := by
  unfold start
  split
  · assumption
  · rfl

theorem running_stop (h : Host) : h.stop.current.running = false := by
  unfold stop
  split
  · rfl
  · simpa using ‹¬ h.current.running = true›

end PubSub.Host

namespace Cluster

open ClusterNet.Membership Messaging PubSub

/-! ## Nodes -/

/-- Which services say that they run, and how the local member looks. -/
structure Flags where
  cluster : Bool
  messaging : Bool
  membership : Bool
  discovery : Bool
  events : Bool
  active : Bool
  reachable : Bool
  deriving DecidableEq

def Flags.all (b : Bool) : Flags := ⟨b, b, b, b, b, b, b⟩

/-- What happens to a node between one moment of rest and the next. -/
inductive Act where
  /-- It is started. This is what listening and joining come to, if the start gets there. -/
  | starts (now : Nat) (bind : Except Messaging.Failure Socket) (join : Done)
  /-- It is stopped, and the provider may refuse to let it leave. -/
  | stops (refusal : Option String)
  /-- The provider tells of an event. -/
  | occurs (e : DiscoveryEvent)

/-- What a start returns that has come this far. -/
def Progress.result : Progress → Done
  | .ended r => r
  | _ => .ok ()

def Act.isCall : Act → Bool
  | .occurs _ => false
  | _ => true

def Act.isStop : Act → Bool
  | .stops _ => true
  | _ => false

namespace Stack

variable {n : Stack} {f : Flags} {now : Nat} {bind : Except Messaging.Failure Socket} {join : Done}

def flags (n : Stack) : Flags :=
  ⟨n.running, n.messaging.running, n.roster.running, n.roster.discovery.running,
    n.host.current.running, n.localMember.active, n.localMember.reachable⟩

/-- Goes on from where a start has come, when it is known what its waits come to. -/
def resume (now : Nat) (bind : Except Messaging.Failure Socket) (join : Done) :
    Progress × Stack → Progress × Stack × List Outgoing
  | (.binding, n) => let (p, n) := n.bound bind; (p, n, [])
  | (.joining, n) => n.joined now join
  | (p, n) => (p, n, [])

/-- A start, when it is known what its waits come to. -/
def attempt (n : Stack) (now : Nat) (bind : Except Messaging.Failure Socket) (join : Done) :
    Done × Stack × List Outgoing :=
  let (p, n, early) := resume now bind join n.beginStart
  let (p, n, late) := resume now bind join (p, n)
  (p.result, n, early ++ late)

/-- The provider will refuse to let the node leave, or will not. -/
def refuse (n : Stack) (refusal : Option String) : Stack :=
  n.setRoster (n.roster.setProvider fun p => { p with leaveRefusal := refusal })

/-- What an act comes to, and the node afterwards. -/
def act (n : Stack) : Act → Done × Stack × List Outgoing
  | .starts now bind join => n.attempt now bind join
  | .stops refusal => (.ok (), (n.refuse refusal).stop, [])
  | .occurs e => (.ok (), (n.withRoster ((), n.roster.occur e)).2)

def after (n : Stack) (acts : List Act) : Stack := acts.foldl (fun n a => (n.act a).2.1) n

/-! Where a start is when it waits. -/

def listening (n : Stack) : Stack := { n with running := true }.setMessaging n.messaging.beginStart

/-- The node listens, and is about to join. -/
def entering (n : Stack) (socket : Socket) : Stack :=
  let n := n.setMessaging (n.messaging.finishStart (.ok socket)).2
  let roster := n.roster.beginStart
  n.setRoster (roster.setDiscovery roster.discovery.beginStart)

def deaf (n : Stack) (f : Messaging.Failure) : Stack :=
  ((n.setMessaging (n.messaging.finishStart (.error f)).2).fail (.messaging f)).2

theorem bound_ok (n : Stack) (socket : Socket) : n.bound (.ok socket) = (.joining, n.entering socket) := rfl

theorem bound_error (n : Stack) (f : Messaging.Failure) :
    n.bound (.error f) = (.ended (.error (.messaging f)), n.deaf f) := rfl

theorem beginStart_fresh (hstopped : n.stopped = false) (hrunning : n.running = false) :
    n.beginStart = (.binding, n.listening) := by
  unfold beginStart
  rw [if_neg (by simp [hstopped]), if_neg (by simp [hrunning])]
  rfl

theorem attempt_fresh (hstopped : n.stopped = false) (hrunning : n.running = false) :
    n.attempt now bind join = match bind with
      | .error f => (.error (.messaging f), n.listening.deaf f, [])
      | .ok socket =>
        let (p, n, mail) := (n.listening.entering socket).joined now join
        (p.result, n, mail) := by
  unfold attempt
  rw [beginStart_fresh hstopped hrunning]
  cases bind with
  | error f => rfl
  | ok socket => rfl

theorem attempt_running (hstopped : n.stopped = false) (hrunning : n.running = true) :
    n.attempt now bind join = (.ok (), n, []) := by
  unfold attempt beginStart
  rw [hstopped, hrunning]
  rfl

theorem attempt_stopped (hstopped : n.stopped = true) :
    n.attempt now bind join = (.error .stopped, n, []) := by
  unfold attempt beginStart
  rw [hstopped]
  rfl

theorem start_eq (n : Stack) (now : Nat) (ports : Ports) :
    ∃ ports', n.start now ports =
      let (r, n, mail) :=
        n.attempt now (ports.bind n.messaging.address).1 n.roster.discovery.provider.join
      (r, n, mail, ports') := by
  cases hstopped : n.stopped with
  | true =>
    rw [attempt_stopped hstopped]
    unfold start beginStart
    rw [hstopped]
    exact ⟨ports, rfl⟩
  | false =>
    cases hrunning : n.running with
    | true =>
      rw [attempt_running hstopped hrunning]
      unfold start beginStart
      rw [hstopped, hrunning]
      exact ⟨ports, rfl⟩
    | false =>
      rw [attempt_fresh hstopped hrunning]
      unfold start proceed
      rw [beginStart_fresh hstopped hrunning]
      have haddress : n.listening.messaging.address = n.messaging.address := rfl
      dsimp only
      rw [haddress]
      cases (ports.bind n.messaging.address).1 with
      | error f => exact ⟨_, rfl⟩
      | ok socket => exact ⟨_, rfl⟩

/-! Where a start is when it has ended. -/

/-- The roster knows what joining has come to. -/
def informed (n : Stack) (r : Done) : Stack :=
  (n.withRoster ((n.roster.setDiscovery (n.roster.discovery.finishStart r)).finishStart r)).2.1

def entered (n : Stack) (now : Nat) : Stack :=
  { n.informed (.ok ()) with host := ((n.informed (.ok ())).host.start now).1 }

def rejected (n : Stack) (f : Failure) : Stack :=
  let n := n.informed (.error f)
  ((n.setMessaging n.messaging.stop).fail f).2

theorem joined_ok (hgate : n.roster.gate = ⟨none, none⟩) (now : Nat) :
    ∃ mail, n.joined now (.ok ()) = (.ended (.ok ()), n.entered now, mail) := by
  have hfinish : (n.roster.setDiscovery (n.roster.discovery.finishStart (.ok ()))).finishStart (.ok ()) =
      (.ok (), _) := Roster.finishStart_ok hgate
  unfold joined entered informed
  dsimp only
  rw [hfinish]
  exact ⟨_, rfl⟩

theorem joined_error (n : Stack) (now : Nat) (f : Failure) :
    ∃ mail, n.joined now (.error f) = (.ended (.error f), n.rejected f, mail) :=
  ⟨_, rfl⟩

/-! ## What each step does to the flags -/

structure Stands (n : Stack) (f : Flags) : Prop where
  cluster : n.running = f.cluster
  messaging : n.messaging.running = f.messaging
  events : n.host.current.running = f.events
  roster : ∃ m, n.roster.Stands f.membership f.discovery m ∧ m.active = f.active ∧ m.reachable = f.reachable

theorem Stands.flags (h : n.Stands f) : n.flags = f := by
  obtain ⟨m, hroster, hactive, hreachable⟩ := h.roster
  have hlocal : n.localMember = m := hroster.apart.keyed.localMember
  unfold Stack.flags
  rw [h.cluster, h.messaging, h.events, hroster.running, hroster.discovery, hlocal, hactive, hreachable]

theorem Stands.gate (h : n.Stands f) : n.roster.gate = ⟨none, none⟩ := by
  obtain ⟨m, hroster, -⟩ := h.roster
  exact hroster.gate

theorem Stands.listening (h : n.Stands f) :
    n.listening.Stands { f with cluster := true, messaging := true } :=
  ⟨rfl, rfl, h.events, h.roster⟩

theorem Stands.deaf (h : n.Stands f) (e : Messaging.Failure) :
    (n.deaf e).Stands { f with cluster := false, messaging := false } :=
  ⟨rfl, rfl, h.events, h.roster⟩

theorem Stands.entering (h : n.Stands f) (socket : Socket) :
    (n.entering socket).Stands { f with membership := true, discovery := true } := by
  obtain ⟨m, hroster, hmember⟩ := h.roster
  exact ⟨h.cluster, h.messaging, h.events, m, hroster.beginStart.setDiscovery _, hmember⟩

theorem Stands.withRoster {A : Type} (h : n.Stands f) (a : A) {g : Roster ServiceKey} {serving finding : Bool}
    {m : Member} (hg : g.Stands serving finding m) :
    (n.withRoster (a, g)).2.1.Stands { f with
      membership := serving
      discovery := finding
      active := m.active
      reachable := m.reachable } := by
  have hroster : (n.withRoster (a, g)).2.1.roster = { g with log := [] } := Host.roster_follow n.host g
  refine ⟨h.cluster, h.messaging, (Host.running_follow n.host g).trans h.events, m, ?_, rfl, rfl⟩
  rw [hroster]
  exact ⟨hg.running, hg.discovery, hg.gate, hg.apart⟩

theorem Stands.occurs (h : n.Stands f) (e : DiscoveryEvent) :
    (n.withRoster ((), n.roster.occur e)).2.1.Stands f := by
  obtain ⟨m, hroster, hactive, hreachable⟩ := h.roster
  have hafter := h.withRoster () (hroster.occur e)
  rwa [hactive, hreachable] at hafter

theorem Stands.entered (h : n.Stands f) (now : Nat) : (n.entered now).Stands { f with
    events := true
    active := true
    reachable := true } := by
  obtain ⟨m, hroster, -⟩ := h.roster
  have hjoined := ((hroster.setDiscovery n.roster.discovery).markLocal true).joinProtocol
  rw [hroster.discovery] at hjoined
  have hafter := h.withRoster (.ok () : Done) hjoined
  rw [← Roster.finishStart_ok (g := n.roster.setDiscovery n.roster.discovery) hroster.gate] at hafter
  obtain ⟨m', hroster', hactive, hreachable⟩ := hafter.roster
  exact ⟨hafter.cluster, hafter.messaging, Host.running_start _ now, m', Host.stands_start hroster' now,
    hactive, hreachable⟩

theorem running_stop_messaging (s : Messaging.Service) : s.stop.running = false := by
  unfold Messaging.Service.stop
  split
  · rfl
  · simpa using ‹¬ s.running = true›

theorem Stands.rejected (h : n.Stands f) (e : Failure) : (n.rejected e).Stands { f with
    cluster := false
    messaging := false
    membership := false
    discovery := false
    active := false
    reachable := false } := by
  obtain ⟨m, hroster, -⟩ := h.roster
  have hundone := (hroster.setDiscovery (n.roster.discovery.finishStart (.error e))).undoStart
  have hafter := h.withRoster (.error e : Done) hundone
  exact ⟨rfl, running_stop_messaging _, hafter.events, hafter.roster⟩

theorem Stands.refuse (h : n.Stands f) (refusal : Option String) : (n.refuse refusal).Stands f := by
  obtain ⟨m, hroster, hmember⟩ := h.roster
  exact ⟨h.cluster, h.messaging, h.events, m,
    ⟨hroster.running, hroster.discovery, hroster.gate, hroster.apart⟩, hmember⟩

/-- The event service is the first to be stopped. -/
def ending (n : Stack) : Stack := { n with host := n.host.stop, running := false, stopped := true }

theorem stop_eq (hrunning : n.running = true) : n.stop =
    let n := (n.ending.withRoster n.ending.roster.stop).2.1
    n.setMessaging n.messaging.stop := by
  unfold stop
  rw [if_pos hrunning]
  rfl

theorem Stands.ending (h : n.Stands f) : n.ending.Stands { f with cluster := false, events := false } := by
  obtain ⟨m, hroster, hmember⟩ := h.roster
  exact ⟨rfl, h.messaging, Host.running_stop n.host, m, Host.stands_stop hroster, hmember⟩

theorem Stands.stop (h : n.Stands (.all true)) : n.stop.Stands (.all false) := by
  have hending := h.ending
  obtain ⟨m, hroster, -⟩ := hending.roster
  have hafter := hending.withRoster n.ending.roster.stop.1 hroster.stop
  rw [stop_eq h.cluster]
  exact ⟨hafter.cluster, running_stop_messaging _, hafter.events, hafter.roster⟩

theorem stands_ofProvider {config : Config} {generated : MemberId} {clock : UInt64}
    {provider : Provider ServiceKey} (h : ofProvider config generated clock provider = .ok n) :
    n.Stands (.all false) ∧ n.stopped = false := by
  unfold ofProvider at h
  split at h
  · simp at h
  · obtain rfl := Except.ok.inj h
    exact ⟨⟨rfl, rfl, rfl, _, Roster.stands_ofLocal _ _, Member.asleep_build _ _ _⟩, rfl⟩

end Stack

/-! ## What a whole life comes to -/

inductive Phase where
  | fresh
  | up
  | spent
  deriving DecidableEq

/-- What an act comes to, and the phase that it leads to. -/
def Phase.next : Phase → Act → Done × Phase
  | .fresh, .starts _ (.error f) _ => (.error (.messaging f), .spent)
  | .fresh, .starts _ (.ok _) (.error f) => (.error f, .spent)
  | .fresh, .starts _ (.ok _) (.ok _) => (.ok (), .up)
  | .up, .starts _ _ _ => (.ok (), .up)
  | .spent, .starts _ _ _ => (.error .stopped, .spent)
  | _, .stops _ => (.ok (), .spent)
  | p, .occurs _ => (.ok (), p)

def Phase.after (p : Phase) (acts : List Act) : Phase := acts.foldl (fun p a => (p.next a).2) p

/-- This act is the last of which anything may come. -/
def Phase.ends (p : Phase) (a : Act) : Bool := a.isStop || !(p.next a).1.isOk

namespace Phase

variable {p : Phase} {a : Act}

theorem after_append (p : Phase) (acts more : List Act) : p.after (acts ++ more) = (p.after acts).after more :=
  List.foldl_append

theorem next_spent (a : Act) : (spent.next a).2 = .spent := by
  cases a <;> rfl

theorem after_spent (acts : List Act) : spent.after acts = .spent := by
  induction acts with
  | nil => rfl
  | cons a acts ih =>
    unfold after at ih ⊢
    rw [List.foldl_cons, next_spent, ih]

theorem next_of_ends (h : p.ends a = true) : (p.next a).2 = .spent := by
  cases a with
  | stops refusal => cases p <;> rfl
  | occurs e => cases p <;> simp [ends, Act.isStop, next, Except.isOk, Except.toBool] at h
  | starts now bind join =>
    cases p with
    | fresh =>
      cases bind with
      | error f => rfl
      | ok socket =>
        cases join with
        | error f => rfl
        | ok u => simp [ends, Act.isStop, next, Except.isOk, Except.toBool] at h
    | up => simp [ends, Act.isStop, next, Except.isOk, Except.toBool] at h
    | spent => rfl

theorem after_idle {acts : List Act} (h : ∀ a ∈ acts, a.isCall = false) : p.after acts = p := by
  induction acts generalizing p with
  | nil => rfl
  | cons a acts ih =>
    obtain ⟨e, rfl⟩ : ∃ e, a = .occurs e := by
      have ha := h a List.mem_cons_self
      cases a <;> simp [Act.isCall] at ha ⊢
    have hrest : p.after acts = p := ih fun b hb => h b (List.mem_cons_of_mem _ hb)
    cases p <;> exact hrest

end Phase

namespace Stack

variable {n : Stack} {p : Phase}

structure InPhase (n : Stack) (p : Phase) : Prop where
  stands : n.Stands (.all (p = .up))
  stopped : n.stopped = decide (p = .spent)

theorem InPhase.start_fresh (h : n.InPhase .fresh) (now : Nat) (bind : Except Messaging.Failure Socket)
    (join : Done) : (n.attempt now bind join).1 = (Phase.fresh.next (.starts now bind join)).1 ∧
      (n.attempt now bind join).2.1.InPhase (Phase.fresh.next (.starts now bind join)).2 := by
  have hlistening := h.stands.listening
  rw [attempt_fresh h.stopped h.stands.cluster]
  cases bind with
  | error f => exact ⟨rfl, hlistening.deaf f, rfl⟩
  | ok socket =>
    have hentering := hlistening.entering socket
    cases join with
    | error f =>
      obtain ⟨mail, hjoined⟩ := (n.listening.entering socket).joined_error now f
      dsimp only
      rw [hjoined]
      exact ⟨rfl, hentering.rejected f, rfl⟩
    | ok u =>
      obtain ⟨mail, hjoined⟩ := joined_ok hentering.gate now
      dsimp only
      rw [hjoined]
      exact ⟨rfl, hentering.entered now, h.stopped⟩

theorem InPhase.starts (h : n.InPhase p) (now : Nat) (bind : Except Messaging.Failure Socket) (join : Done) :
    (n.attempt now bind join).1 = (p.next (.starts now bind join)).1 ∧
      (n.attempt now bind join).2.1.InPhase (p.next (.starts now bind join)).2 := by
  cases p with
  | fresh => exact h.start_fresh now bind join
  | up =>
    rw [attempt_running h.stopped h.stands.cluster]
    exact ⟨rfl, h⟩
  | spent =>
    rw [attempt_stopped h.stopped]
    exact ⟨rfl, h⟩

theorem stopped_stop (n : Stack) : n.stop.stopped = true := by
  unfold stop
  split <;> rfl

theorem InPhase.stops (h : n.InPhase p) : n.stop.InPhase .spent := by
  refine ⟨?_, stopped_stop n⟩
  by_cases hup : p = .up
  · subst hup
    exact h.stands.stop
  · have hstands := h.stands
    rw [decide_eq_false hup] at hstands
    unfold stop
    rw [if_neg (by simp [hstands.cluster, Flags.all])]
    exact ⟨hstands.cluster, hstands.messaging, hstands.events, hstands.roster⟩

theorem InPhase.refuse (h : n.InPhase p) (refusal : Option String) : (n.refuse refusal).InPhase p :=
  ⟨h.stands.refuse refusal, h.stopped⟩

/-- Each act comes to what the phase says, and leads where the phase says. -/
theorem InPhase.act (h : n.InPhase p) (a : Act) :
    (n.act a).1 = (p.next a).1 ∧ (n.act a).2.1.InPhase (p.next a).2 := by
  cases a with
  | starts now bind join => exact h.starts now bind join
  | stops refusal => cases p <;> exact ⟨rfl, (h.refuse refusal).stops⟩
  | occurs e => cases p <;> exact ⟨rfl, h.stands.occurs e, h.stopped⟩

theorem InPhase.after (h : n.InPhase p) (acts : List Act) : (n.after acts).InPhase (p.after acts) := by
  induction acts generalizing n p with
  | nil => exact h
  | cons a acts ih => exact ih (h.act a).2

/-- A start has failed, or a stop was called. -/
def Ended (n : Stack) (acts : List Act) : Prop :=
  ∃ before a rest, acts = before ++ a :: rest ∧
    (a.isStop = true ∨ ((n.after before).act a).1.isOk = false)

theorem InPhase.spent_of_ended (h : n.InPhase p) {acts : List Act} (hended : n.Ended acts) :
    p.after acts = .spent := by
  obtain ⟨before, a, rest, rfl, hend⟩ := hended
  have hends : (p.after before).ends a = true := by
    unfold Phase.ends
    rw [← ((h.after before).act a).1]
    rcases hend with hstop | hfail
    · simp [hstop]
    · simp [hfail]
  rw [Phase.after_append]
  have hnext : ((p.after before).next a).2 = .spent := Phase.next_of_ends hends
  unfold Phase.after at hnext ⊢
  rw [List.foldl_cons, hnext]
  exact Phase.after_spent rest

/-- How a node is at rest after all that has happened to it. -/
structure AllOrNothing (n : Stack) (acts : List Act) : Prop where
  whole : (n.after acts).flags = .all (n.after acts).running
  /-- It can be started once, if it can listen and join. -/
  first : (∀ a ∈ acts, a.isCall = false) → ∀ now bind join,
    ((n.after acts).attempt now bind join).2.1.flags = .all (bind.isOk && join.isOk) ∧
      ((n.after acts).attempt now bind join).1.isOk = (bind.isOk && join.isOk)
  again : (n.after acts).running = true → ∀ now bind join,
    (n.after acts).attempt now bind join = (.ok (), n.after acts, [])
  ended : n.Ended acts → (n.after acts).flags = .all false ∧ ∀ now bind join,
    (n.after acts).attempt now bind join = (.error .stopped, n.after acts, [])

/-- All services of a node run or none does, whatever starts, stops, failures and events there were.
A start that finds it running does nothing, and after a stop or a failed start none ever runs again. -/
theorem lifecycle_is_all_or_nothing {config : Config} {generated : MemberId} {clock : UInt64}
    {provider : Provider ServiceKey} (h : ofProvider config generated clock provider = .ok n)
    (acts : List Act) : n.AllOrNothing acts := by
  obtain ⟨hstands, hstopped⟩ := stands_ofProvider h
  have hfresh : n.InPhase .fresh := ⟨hstands, hstopped⟩
  have hafter := hfresh.after acts
  refine ⟨?_, ?_, ?_, ?_⟩
  · rw [hafter.stands.flags, hafter.stands.cluster]
    rfl
  · intro hidle now bind join
    rw [Phase.after_idle hidle] at hafter
    obtain ⟨hresult, hnext⟩ := hafter.starts now bind join
    rw [hresult, hnext.stands.flags]
    cases bind with
    | error f => exact ⟨rfl, rfl⟩
    | ok socket => cases join <;> exact ⟨rfl, rfl⟩
  · intro hrunning now bind join
    have hup : Phase.fresh.after acts = .up := by
      have hcluster := hafter.stands.cluster
      rw [hrunning] at hcluster
      simpa [Flags.all] using hcluster.symm
    rw [hup] at hafter
    exact attempt_running hafter.stopped hrunning
  · intro hended
    rw [hfresh.spent_of_ended hended] at hafter
    exact ⟨hafter.stands.flags, fun now bind join => attempt_stopped hafter.stopped⟩

/-- A node that was refused when it left, and one that could not join. -/
theorem lifecycle_is_all_or_nothing_refused :
    let socket : Socket := ⟨.v4 ⟨127, 0, 0, 1⟩, 7000⟩
    ∃ n, ofProvider {} ⟨"a"⟩ 0 (.ofNodes []) = .ok n ∧
      (n.after [.starts 0 (.ok socket) (.ok ())]).flags = .all true ∧
      (n.after [.starts 0 (.ok socket) (.ok ()), .stops (some "busy")]).flags = .all false ∧
      (n.after [.starts 0 (.ok socket) (.error (.discovery "busy"))]).flags = .all false := by
  intro socket
  have hmade : ∃ n, ofProvider {} ⟨"a"⟩ 0 (.ofNodes []) = .ok n := ⟨_, rfl⟩
  obtain ⟨n, hn⟩ := hmade
  refine ⟨n, hn, ?_, ?_, ?_⟩
  · exact ((lifecycle_is_all_or_nothing hn []).first (by simp) 0 (.ok socket) (.ok ())).1
  · apply ((lifecycle_is_all_or_nothing hn _).ended _).1
    exact ⟨[.starts 0 (.ok socket) (.ok ())], .stops (some "busy"), [], rfl, .inl rfl⟩
  · exact ((lifecycle_is_all_or_nothing hn []).first (by simp) 0 (.ok socket) (.error (.discovery "busy"))).1

end Stack

end Cluster

end ClusterNet
