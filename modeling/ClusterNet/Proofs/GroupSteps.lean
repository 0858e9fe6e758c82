import ClusterNet.Proofs.GroupNews

/-!
# Joining and leaving, step by step

Discovery may change while a protocol joins or leaves, and an event may still be on its way to
someone who has left. So every step is an act of its own here, and acts come in any order. One
right after the other, they are what a roster does at once.
-/

namespace ClusterNet.Membership

variable {L : Type}

/-- An event on its way, with those who are still to be told. -/
structure Post (L : Type) where
  event : DiscoveryEvent
  /-- Listeners of discovery. They come first. -/
  inner : List (DiscoveryListener L)
  /-- Listeners of the provider. -/
  outer : List (ProviderListener L)

/-- How far a protocol is that joins. -/
inductive Joining where
  | no
  | knows (nodes : List Node)
  | enrolled
  | introduced
  deriving DecidableEq

structure Scene (L : Type) where
  roster : Roster L
  joining : Joining
  leaving : Bool
  posts : List (Post L)

inductive SceneAct where
  /-- The nodes of the provider change. -/
  | changes (e : DiscoveryEvent)
  /-- The next one is told of the event in this post. -/
  | tells (i : Nat)
  | joins
  | enrols
  | introduces
  | subscribes
  | leaves
  | disbands
  /-- Discovery starts to listen to the provider. -/
  | attaches
  | detaches

/-- Tells the next one. Discovery passes the event on to those who listen to it at that moment. -/
def Roster.deliver (g : Roster L) : Post L → Roster L × Option (Post L)
  | ⟨e, .guest l :: inner, outer⟩ => (g.tell (.discovery e) l, some ⟨e, inner, outer⟩)
  | ⟨e, .protocol :: inner, outer⟩ => (g.hear e, some ⟨e, inner, outer⟩)
  | ⟨e, [], .guest l :: outer⟩ => (g.tell (.discovery e) l, some ⟨e, [], outer⟩)
  | ⟨e, [], .service :: outer⟩ => (g, some ⟨e, g.discovery.listeners.snapshot, outer⟩)
  | ⟨_, [], []⟩ => (g, none)

namespace Scene

def ofRoster (g : Roster L) : Scene L := ⟨g, .no, false, []⟩

def setProtocol (s : Scene L) (p : Protocol L) : Scene L := { s with roster := { s.roster with protocol := p } }

/-- An act that is not possible now changes nothing. -/
def act (s : Scene L) : SceneAct → Scene L
  | .changes e =>
    { s with
      roster := s.roster.setProvider (·.after e)
      posts := s.posts ++ [⟨e, [], s.roster.discovery.provider.listeners.snapshot⟩] }
  | .tells i =>
    match s.posts[i]? with
    | none => s
    | some d =>
      let (g, d) := s.roster.deliver d
      { s with roster := g, posts := s.posts.take i ++ d.toList ++ s.posts.drop (i + 1) }
  | .joins =>
    if s.joining = .no ∧ s.roster.protocol.joined = false then
      { s.setProtocol { s.roster.protocol with joined := true } with
        joining := .knows s.roster.discovery.provider.nodes }
    else s
  | .enrols =>
    match s.joining with
    | .knows nodes => { s.setProtocol (s.roster.protocol.enrol nodes) with joining := .enrolled }
    | _ => s
  | .introduces =>
    if s.joining = .enrolled then { s with roster := s.roster.introduce, joining := .introduced } else s
  | .subscribes =>
    if s.joining = .introduced then { s with roster := s.roster.subscribe, joining := .no } else s
  | .leaves =>
    if s.leaving = false ∧ s.roster.protocol.joined = true then
      { s with roster := s.roster.unsubscribe, leaving := true }
    else s
  | .disbands =>
    if s.leaving = true then { s with roster := s.roster.disband, leaving := false } else s
  | .attaches =>
    if s.roster.discovery.running then s
    else { s with roster := s.roster.setDiscovery s.roster.discovery.beginStart }
  | .detaches =>
    if s.roster.discovery.running then
      { s with roster := s.roster.setDiscovery s.roster.discovery.beginStop.detach }
    else s

def run (s : Scene L) (acts : List SceneAct) : Scene L := acts.foldl act s

/-! ## Acts one right after the other -/

theorem enrol_joined (p : Protocol L) (nodes : List Node) :
    ({ p with joined := true } : Protocol L).enrol nodes = { p.enrol nodes with joined := true } := by
  have hfold : nodes.foldl (fun p n => (p.discover n).2) ({ p with joined := true } : Protocol L) =
      { nodes.foldl (fun p n => (p.discover n).2) p with joined := true } := by
    induction nodes generalizing p with
    | nil => rfl
    | cons n nodes ih => exact ih (p.discover n).2
  rw [Protocol.enrol, hfold]
  rfl

theorem run_join (g : Roster L) :
    (ofRoster g).run [.joins, .enrols, .introduces, .subscribes] = ofRoster g.joinProtocol := by
  unfold Roster.joinProtocol
  cases hjoined : g.protocol.joined with
  | true => simp [run, act, ofRoster, hjoined]
  | false => simp [run, act, ofRoster, hjoined, setProtocol, enrol_joined, Roster.enrol]

theorem run_leave (g : Roster L) :
    (ofRoster g).run [.leaves, .disbands] = ofRoster g.leaveProtocol := by
  unfold Roster.leaveProtocol
  cases hjoined : g.protocol.joined with
  | true => simp [run, act, ofRoster, hjoined]
  | false => simp [run, act, ofRoster, hjoined]

theorem run_tells (e : DiscoveryEvent) (outer : List (ProviderListener L))
    (inner : List (DiscoveryListener L)) (g : Roster L) : ∃ n,
    run ⟨g, .no, false, [⟨e, inner, outer⟩]⟩ (List.replicate n (.tells 0)) =
      ofRoster (outer.foldl (fun g l =>
          match l with
          | .guest l => g.tell (.discovery e) l
          | .service => g.spread e)
        (inner.foldl (fun g l =>
          match l with
          | .guest l => g.tell (.discovery e) l
          | .protocol => g.hear e) g)) := by
  induction outer generalizing inner g with
  | nil =>
    induction inner generalizing g with
    | nil => exact ⟨1, rfl⟩
    | cons l inner ih =>
      cases l with
      | guest l =>
        obtain ⟨n, hn⟩ := ih (g.tell (.discovery e) l)
        exact ⟨n + 1, hn⟩
      | protocol =>
        obtain ⟨n, hn⟩ := ih (g.hear e)
        exact ⟨n + 1, hn⟩
  | cons l outer ih =>
    induction inner generalizing g with
    | nil =>
      cases l with
      | guest l =>
        obtain ⟨n, hn⟩ := ih [] (g.tell (.discovery e) l)
        exact ⟨n + 1, hn⟩
      | service =>
        obtain ⟨n, hn⟩ := ih g.discovery.listeners.snapshot g
        exact ⟨n + 1, hn⟩
    | cons k inner ihinner =>
      cases k with
      | guest l' =>
        obtain ⟨n, hn⟩ := ihinner (g.tell (.discovery e) l')
        exact ⟨n + 1, hn⟩
      | protocol =>
        obtain ⟨n, hn⟩ := ihinner (g.hear e)
        exact ⟨n + 1, hn⟩

theorem listeners_after (p : Provider L) (e : DiscoveryEvent) : (p.after e).listeners = p.listeners := by
  unfold Provider.after
  split <;> rfl

theorem run_occur (g : Roster L) (e : DiscoveryEvent) : ∃ n,
    (ofRoster g).run (.changes e :: List.replicate n (.tells 0)) = ofRoster (g.occur e) := by
  obtain ⟨n, hn⟩ := run_tells e g.discovery.provider.listeners.snapshot [] (g.setProvider (·.after e))
  refine ⟨n, hn.trans ?_⟩
  rw [Roster.occur, Roster.post, Roster.setProvider, listeners_after]
  rfl

end Scene

end ClusterNet.Membership
