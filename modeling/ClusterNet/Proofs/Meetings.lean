import ClusterNet.Proofs.Greetings
import Mathlib.Logic.Relation

/-!
# Two sides that greet each other

The side that connects writes its greeting and waits for a version. The other side reads the greeting, and
writes a version or drops the stream. However the bytes are cut on their way, and whatever is written after
them, both agree in the end: they belong to one cluster, speak one version, and have left to the frames
what follows; or they do not, and nothing has been answered.
-/

namespace ClusterNet.Wire

open Handshake

/-- What the connecting side writes when its handshake has come that far. -/
def Handshake.follows (tail : Bytes) : Handshake → Bytes
  | .finished (.ok _) => tail
  | _ => []

/-- What the accepting side writes when its handshake has come that far. -/
def Handshake.answers (tail : Bytes) : Handshake → Bytes
  | .finished (.ok v) => Bytes.ofUInt16 v.number ++ tail
  | _ => []

def Handshake.isRefusal : Handshake → Bool
  | .finished (.error _) => true
  | _ => false

/-- A connection that is being opened, and what is written on it afterwards. -/
structure Meeting where
  client : Handshake
  server : Handshake
  /-- What the side that connects has yet to write. -/
  clientOut : Bytes
  serverOut : Bytes
  /-- All that the side that connects has written. -/
  clientSent : Bytes
  serverSent : Bytes
  /-- What is on its way to the accepting side. -/
  up : Bytes
  down : Bytes
  /-- The accepting side has let go of the stream. -/
  dropped : Bool

namespace Meeting

def opening (p : Int32) : Meeting := ⟨start, start, hello p, [], [], [], [], [], false⟩

variable {p q : Int32} {clientTail serverTail : Bytes} {m m' : Meeting}

/-- Something that can happen. Each read and each write is of some of the bytes that are there. What is
written to a stream that was dropped may be lost before the writer sees it. -/
inductive Step (q : Int32) (clientTail serverTail : Bytes) (m : Meeting) : Meeting → Prop where
  | clientWrites {b rest : Bytes} (out : m.clientOut = b ++ rest) (some : b ≠ []) :
      Step q clientTail serverTail m
        { m with clientOut := rest, clientSent := m.clientSent ++ b, up := m.up ++ b }
  | clientBreaks (out : m.clientOut ≠ []) (gone : m.dropped = true) :
      Step q clientTail serverTail m { m with clientOut := [], client := .finished (.error .brokenPipe) }
  | clientReads {got b rest left : Bytes} {h : Handshake} (waits : m.client = .collecting got)
      (out : m.clientOut = []) (there : m.down = b ++ rest) (some : b ≠ [])
      (takes : feed clientView m.client b = (h, left)) :
      Step q clientTail serverTail m
        { m with client := h, clientOut := h.follows clientTail, down := left ++ rest }
  | clientEnds {got : Bytes} (waits : m.client = .collecting got) (out : m.clientOut = [])
      (there : m.down = []) (gone : m.dropped = true) :
      Step q clientTail serverTail m { m with client := .finished (.error .ended) }
  | serverReads {got b rest left : Bytes} {h : Handshake} (waits : m.server = .collecting got)
      (there : m.up = b ++ rest) (some : b ≠ []) (takes : feed (serverView q) m.server b = (h, left)) :
      Step q clientTail serverTail m
        { m with server := h, serverOut := h.answers serverTail, dropped := h.isRefusal, up := left ++ rest }
  | serverWrites {b rest : Bytes} (out : m.serverOut = b ++ rest) (some : b ≠ []) :
      Step q clientTail serverTail m
        { m with serverOut := rest, serverSent := m.serverSent ++ b, down := m.down ++ b }

/-! ### Every run ends -/

/-- What is still to be done for a handshake that may lead to so many bytes. -/
def pending (n : Nat) : Handshake → Nat
  | .collecting _ => 2 * n + 1
  | .finished _ => 0

/-- A byte is written and then read, and bytes that are not to be written yet count as well. -/
def left (clientTail serverTail : Bytes) (m : Meeting) : Nat :=
  2 * m.clientOut.length + m.up.length + pending clientTail.length m.client +
    (2 * m.serverOut.length + m.down.length + pending (2 + serverTail.length) m.server)

theorem follows_le (tail : Bytes) (h : Handshake) :
    2 * (h.follows tail).length + pending tail.length h ≤ 2 * tail.length + 1 := by
  rcases h with got | (e | v)
  all_goals simp [Handshake.follows, pending]

theorem answers_le (tail : Bytes) (h : Handshake) :
    2 * (h.answers tail).length + pending (2 + tail.length) h ≤ 2 * (2 + tail.length) + 1 := by
  rcases h with got | (e | v)
  all_goals simp [Handshake.answers, pending]

theorem left_lt (h : Step q clientTail serverTail m m') :
    left clientTail serverTail m' < left clientTail serverTail m := by
  unfold left
  cases h with
  | clientWrites out some =>
    have hpos := List.length_pos_iff.mpr some
    rw [out]
    simp only [List.length_append]
    omega
  | clientBreaks out gone =>
    have hpos := List.length_pos_iff.mpr out
    simp only [List.length_nil, pending]
    omega
  | @clientReads got b rest left' h waits out there some takes =>
    have hless := length_feed_lt clientView got some
    have hle := follows_le clientTail h
    rw [waits] at takes
    rw [takes] at hless
    rw [waits, there]
    simp only [List.length_append, pending] at hle ⊢
    simp only at hless
    omega
  | clientEnds waits out there gone =>
    rw [waits]
    simp only [pending]
    omega
  | @serverReads got b rest left' h waits there some takes =>
    have hless := length_feed_lt (serverView q) got some
    have hle := answers_le serverTail h
    rw [waits] at takes
    rw [takes] at hless
    rw [waits, there]
    simp only [List.length_append, pending] at hle ⊢
    simp only at hless
    omega
  | serverWrites out some =>
    have hpos := List.length_pos_iff.mpr some
    rw [out]
    simp only [List.length_append]
    omega

theorem every_run_ends (q : Int32) (clientTail serverTail : Bytes) :
    WellFounded fun m' m => Step q clientTail serverTail m m' :=
  Subrelation.wf left_lt (InvImage.wf (left clientTail serverTail) Nat.lt_wfRel.wf)

/-! ### How far the sides are -/

/-- Where the side that connects stands. -/
inductive ClientStands (p : Int32) (clientTail : Bytes) (m : Meeting) : Prop where
  | greets {got : Bytes} (state : m.client = .collecting got) (plan : m.clientSent ++ m.clientOut = hello p)
      (taken : feed clientView start m.serverSent = feed clientView m.client m.down)
  | accepts {v : Version} (state : m.client = .finished (.ok v))
      (plan : m.clientSent ++ m.clientOut = hello p ++ clientTail)
      (taken : feed clientView start m.serverSent = (.finished (.ok v), m.down))
  | fails {e : HandshakeFault} (state : m.client = .finished (.error e)) (why : e = .ended ∨ e = .brokenPipe)
      (plan : ∃ rest, m.clientSent ++ rest = hello p) (out : m.clientOut = []) (gone : m.dropped = true)

/-- Where the accepting side stands. It drops the stream exactly if it refuses, and then says nothing. -/
inductive ServerStands (serverTail : Bytes) (m : Meeting) : Prop where
  | listens {got : Bytes} (state : m.server = .collecting got) (plan : m.serverSent = [] ∧ m.serverOut = [])
      (there : m.dropped = false)
  | accepts {v : Version} (state : m.server = .finished (.ok v))
      (plan : m.serverSent ++ m.serverOut = Bytes.ofUInt16 v.number ++ serverTail) (there : m.dropped = false)
  | refuses {e : HandshakeFault} (state : m.server = .finished (.error e))
      (plan : m.serverSent = [] ∧ m.serverOut = []) (gone : m.dropped = true)

/-- Each side has taken from the front of what the other has written, and what is left is on its way. -/
structure Stands (p q : Int32) (clientTail serverTail : Bytes) (m : Meeting) : Prop where
  client : ClientStands p clientTail m
  server : ServerStands serverTail m
  taken : feed (serverView q) start m.clientSent = feed (serverView q) m.server m.up

theorem stands_opening (p q : Int32) (clientTail serverTail : Bytes) :
    Stands p q clientTail serverTail (opening p) where
  client := .greets rfl rfl rfl
  server := .listens rfl ⟨rfl, rfl⟩ rfl
  taken := rfl

theorem taken_append {view : Bytes → Handshake} {h : Handshake} {sent way : Bytes}
    (htaken : feed view start sent = feed view h way) (b : Bytes) :
    feed view start (sent ++ b) = feed view h (way ++ b) := by
  rw [feed_append, htaken, ← feed_append]

theorem taken_read {view : Bytes → Handshake} {h h' : Handshake} {sent b rest left : Bytes}
    (htaken : feed view start sent = feed view h (b ++ rest)) (htakes : feed view h b = (h', left)) :
    feed view start sent = feed view h' (left ++ rest) := by
  rw [htaken, feed_append, htakes]

theorem ServerStands.of_said (h : ServerStands serverTail m) (hsaid : m.serverSent ≠ []) :
    ∃ v, m.server = .finished (.ok v) ∧
      m.serverSent ++ m.serverOut = Bytes.ofUInt16 v.number ++ serverTail := by
  cases h with
  | listens _ plan _ => exact absurd plan.1 hsaid
  | accepts state plan _ => exact ⟨_, state, plan⟩
  | refuses _ plan _ => exact absurd plan.1 hsaid

theorem ServerStands.selects (h : ServerStands serverTail m) {r : Except HandshakeFault Version} {way : Bytes}
    (hfeed : feed clientView start m.serverSent = (.finished r, way)) :
    ∃ v, r = .ok v ∧ m.server = .finished (.ok v) ∧ m.serverSent = Bytes.ofUInt16 v.number ++ way := by
  have hsaid : m.serverSent ≠ [] := by
    intro hnil
    rw [hnil] at hfeed
    cases hfeed
  obtain ⟨v, hserver, hplan⟩ := h.of_said hsaid
  have hall := feed_client v serverTail
  rw [← hplan, feed_append, hfeed, feed_finished] at hall
  obtain ⟨hr, hway⟩ := Prod.mk.inj hall
  refine ⟨v, finished.inj hr, hserver, ?_⟩
  rw [← hway, ← List.append_assoc] at hplan
  exact List.append_cancel_right hplan

theorem Stands.exists_rest (h : Stands p q clientTail serverTail m) :
    ∃ rest, m.clientSent ++ rest = hello p ++ clientTail := by
  cases h.client with
  | greets _ plan _ => exact ⟨m.clientOut ++ clientTail, by rw [← List.append_assoc, plan]⟩
  | accepts _ plan _ => exact ⟨m.clientOut, plan⟩
  | fails _ _ plan _ _ =>
    obtain ⟨rest, hrest⟩ := plan
    exact ⟨rest ++ clientTail, by rw [← List.append_assoc, hrest]⟩

theorem ServerStands.congr (h : ServerStands serverTail m) (hserver : m'.server = m.server)
    (hsent : m'.serverSent = m.serverSent) (hout : m'.serverOut = m.serverOut)
    (hdropped : m'.dropped = m.dropped) : ServerStands serverTail m' := by
  cases h with
  | listens state plan there =>
    exact .listens (hserver.trans state) (by rwa [hsent, hout]) (hdropped.trans there)
  | accepts state plan there =>
    exact .accepts (hserver.trans state) (by rwa [hsent, hout]) (hdropped.trans there)
  | refuses state plan gone =>
    exact .refuses (hserver.trans state) (by rwa [hsent, hout]) (hdropped.trans gone)

theorem ServerStands.there (h : ServerStands serverTail m) (hserver : m.server.isRefusal = false) :
    m.dropped = false := by
  cases h with
  | listens _ _ there => exact there
  | accepts _ _ there => exact there
  | refuses state _ _ =>
    rw [state] at hserver
    cases hserver

theorem ClientStands.clientWrites (h : ClientStands p clientTail m) {b rest : Bytes}
    (out : m.clientOut = b ++ rest) (some : b ≠ []) :
    ClientStands p clientTail
      { m with clientOut := rest, clientSent := m.clientSent ++ b, up := m.up ++ b } := by
  cases h with
  | greets state plan taken => exact .greets state (by rw [← plan, out, List.append_assoc]) taken
  | accepts state plan taken => exact .accepts state (by rw [← plan, out, List.append_assoc]) taken
  | fails _ _ _ none _ =>
    rw [none] at out
    exact absurd (List.append_eq_nil_iff.mp out.symm).1 some

theorem Stands.clientBreaks (h : Stands p q clientTail serverTail m) (out : m.clientOut ≠ [])
    (gone : m.dropped = true) :
    ClientStands p clientTail { m with clientOut := [], client := .finished (.error .brokenPipe) } := by
  cases h.client with
  | greets _ plan _ => exact .fails rfl (.inr rfl) ⟨m.clientOut, plan⟩ rfl gone
  | accepts _ _ taken =>
    -- who has accepted has read an answer, and who answers does not let go
    obtain ⟨v, -, hserver, -⟩ := h.server.selects taken
    rw [h.server.there (by rw [hserver]; rfl)] at gone
    cases gone
  | fails _ _ _ none _ => exact absurd none out

theorem Stands.clientReads (h : Stands p q clientTail serverTail m) {got b rest left : Bytes}
    {side : Handshake} (waits : m.client = .collecting got) (out : m.clientOut = [])
    (there : m.down = b ++ rest) (takes : feed clientView m.client b = (side, left)) :
    ClientStands p clientTail
      { m with client := side, clientOut := side.follows clientTail, down := left ++ rest } := by
  cases h.client with
  | greets state plan taken =>
    rw [out, List.append_nil] at plan
    rw [there] at taken
    have hread := taken_read taken takes
    cases side with
    | collecting got' => exact .greets rfl (by rw [← plan]; exact List.append_nil _) hread
    | finished r =>
      rw [feed_finished] at hread
      obtain ⟨v, rfl, -, -⟩ := h.server.selects hread
      exact .accepts rfl (by rw [← plan]; rfl) hread
  | accepts state _ _ =>
    rw [waits] at state
    cases state
  | fails state _ _ _ _ =>
    rw [waits] at state
    cases state

theorem ClientStands.clientEnds (h : ClientStands p clientTail m) {got : Bytes}
    (waits : m.client = .collecting got) (out : m.clientOut = []) (gone : m.dropped = true) :
    ClientStands p clientTail { m with client := .finished (.error .ended) } := by
  cases h with
  | greets _ plan _ => exact .fails rfl (.inl rfl) ⟨m.clientOut, plan⟩ out gone
  | accepts state _ _ =>
    rw [waits] at state
    cases state
  | fails state _ _ _ _ =>
    rw [waits] at state
    cases state

theorem ClientStands.congr (h : ClientStands p clientTail m) (there : m.dropped = false)
    (hclient : m'.client = m.client) (hsent : m'.clientSent = m.clientSent) (hout : m'.clientOut = m.clientOut)
    (htaken : ∀ side, feed clientView start m.serverSent = feed clientView side m.down →
      feed clientView start m'.serverSent = feed clientView side m'.down) :
    ClientStands p clientTail m' := by
  cases h with
  | greets state plan taken =>
    refine .greets (hclient.trans state) (by rwa [hsent, hout]) ?_
    rw [hclient]
    exact htaken _ taken
  | @accepts v state plan taken =>
    refine .accepts (hclient.trans state) (by rwa [hsent, hout]) ?_
    have hlater := htaken (.finished (.ok v)) (by rw [taken, feed_finished])
    rwa [feed_finished] at hlater
  | fails _ _ _ _ gone =>
    rw [there] at gone
    cases gone

theorem ServerStands.serverReads (h : ServerStands serverTail m) {got up : Bytes} {side : Handshake}
    (waits : m.server = .collecting got) :
    ServerStands serverTail
      { m with server := side, serverOut := side.answers serverTail, dropped := side.isRefusal, up := up } := by
  cases h with
  | listens _ plan _ =>
    rcases side with got' | (e | v)
    · exact .listens rfl ⟨plan.1, rfl⟩ rfl
    · exact .refuses rfl ⟨plan.1, rfl⟩ rfl
    · refine .accepts rfl ?_ rfl
      rw [plan.1]
      rfl
  | accepts state _ _ =>
    rw [waits] at state
    cases state
  | refuses state _ _ =>
    rw [waits] at state
    cases state

theorem ServerStands.serverWrites (h : ServerStands serverTail m) {b rest : Bytes}
    (out : m.serverOut = b ++ rest) (some : b ≠ []) :
    m.dropped = false ∧ ServerStands serverTail
      { m with serverOut := rest, serverSent := m.serverSent ++ b, down := m.down ++ b } := by
  have hsome : m.serverOut ≠ [] := by
    rw [out]
    exact fun hnil => some (List.append_eq_nil_iff.mp hnil).1
  cases h with
  | listens _ plan _ => exact absurd plan.2 hsome
  | accepts state plan there => exact ⟨there, .accepts state (by rw [← plan, out, List.append_assoc]) there⟩
  | refuses _ plan _ => exact absurd plan.2 hsome

theorem Stands.step (h : Stands p q clientTail serverTail m) (hstep : Step q clientTail serverTail m m') :
    Stands p q clientTail serverTail m' := by
  cases hstep with
  | clientWrites out some =>
    exact ⟨h.client.clientWrites out some, h.server.congr rfl rfl rfl rfl, taken_append h.taken _⟩
  | clientBreaks out gone => exact ⟨h.clientBreaks out gone, h.server.congr rfl rfl rfl rfl, h.taken⟩
  | clientReads waits out there some takes =>
    exact ⟨h.clientReads waits out there takes, h.server.congr rfl rfl rfl rfl, h.taken⟩
  | clientEnds waits out there gone =>
    exact ⟨h.client.clientEnds waits out gone, h.server.congr rfl rfl rfl rfl, h.taken⟩
  | serverReads waits there some takes =>
    have htaken := h.taken
    rw [there] at htaken
    exact ⟨h.client.congr (h.server.there (by rw [waits]; rfl)) rfl rfl rfl fun _ taken => taken,
      h.server.serverReads waits, taken_read htaken takes⟩
  | serverWrites out some =>
    obtain ⟨hthere, hserver⟩ := h.server.serverWrites out some
    exact ⟨h.client.congr hthere rfl rfl rfl fun _ taken => taken_append taken _, hserver, h.taken⟩

theorem Stands.run (h : Stands p q clientTail serverTail m)
    (hrun : Relation.ReflTransGen (Step q clientTail serverTail) m m') : Stands p q clientTail serverTail m' := by
  induction hrun with
  | refl => exact h
  | tail _ hstep ih => exact ih.step hstep

/-! ### What both sides come to -/

theorem Stands.of_server_ok (h : Stands p q clientTail serverTail m) {v : Version}
    (hserver : m.server = .finished (.ok v)) : p = q ∧ m.clientSent = hello p ++ m.up := by
  obtain ⟨rest, hrest⟩ := h.exists_rest
  have htaken := taken_append h.taken rest
  rw [hrest, hserver, feed_finished] at htaken
  by_cases hpq : p = q
  · obtain ⟨w, hw⟩ := feed_hello_same p
    rw [← hpq, hw] at htaken
    refine ⟨hpq, ?_⟩
    rw [(Prod.mk.inj htaken).2, ← List.append_assoc] at hrest
    exact List.append_cancel_right hrest
  · obtain ⟨left, hleft⟩ := feed_hello_other hpq clientTail
    rw [hleft] at htaken
    cases (Prod.mk.inj htaken).1

theorem Stands.of_server_error (h : Stands p q clientTail serverTail m) {e : HandshakeFault}
    (hserver : m.server = .finished (.error e)) : p ≠ q := by
  intro hpq
  obtain ⟨rest, hrest⟩ := h.exists_rest
  have htaken := taken_append h.taken rest
  obtain ⟨v, hv⟩ := feed_hello_same p
  rw [hrest, hserver, feed_finished, ← hpq, hv] at htaken
  cases (Prod.mk.inj htaken).1

theorem Stands.of_client_ok (h : Stands p q clientTail serverTail m) {v : Version}
    (hclient : m.client = .finished (.ok v)) :
    m.server = .finished (.ok v) ∧ m.serverSent = Bytes.ofUInt16 v.number ++ m.down := by
  cases h.client with
  | greets state _ _ =>
    rw [hclient] at state
    cases state
  | accepts state _ taken =>
    rw [hclient] at state
    obtain ⟨w, hw, hserver, hsent⟩ := h.server.selects taken
    rw [Except.ok.inj (finished.inj state), Except.ok.inj hw]
    exact ⟨hserver, hsent⟩
  | fails state _ _ _ _ =>
    rw [hclient] at state
    cases state

/-- What holds at any moment. A side that has accepted has taken the greeting of the other side, which is
of six or of two bytes, and nothing behind it, and strangers are not answered. -/
structure InStep (p q : Int32) (m : Meeting) : Prop where
  server : ∀ v, m.server = .finished (.ok v) →
    p = q ∧ m.clientSent = hello p ++ m.up ∧ m.clientSent.length = 6 + m.up.length
  client : ∀ v, m.client = .finished (.ok v) → m.server = .finished (.ok v) ∧
    m.serverSent = Bytes.ofUInt16 v.number ++ m.down ∧ m.serverSent.length = 2 + m.down.length
  silent : p ≠ q → m.serverSent = []

theorem Stands.inStep (h : Stands p q clientTail serverTail m) : InStep p q m where
  server v hserver := by
    obtain ⟨hpq, hsent⟩ := h.of_server_ok hserver
    exact ⟨hpq, hsent, by rw [hsent, List.length_append, length_hello]⟩
  client v hclient := by
    obtain ⟨hserver, hsent⟩ := h.of_client_ok hclient
    refine ⟨hserver, hsent, ?_⟩
    rw [hsent, List.length_append]
    rfl
  silent hpq := by
    by_contra hsaid
    obtain ⟨v, hserver, -⟩ := h.server.of_said hsaid
    exact hpq (h.of_server_ok hserver).1

/-- Nothing more can happen. -/
def Rests (q : Int32) (clientTail serverTail : Bytes) (m : Meeting) : Prop :=
  ∀ m', ¬ Step q clientTail serverTail m m'

theorem Rests.clientOut (h : Rests q clientTail serverTail m) : m.clientOut = [] := by
  by_contra hsome
  exact h _ (.clientWrites (List.append_nil _).symm hsome)

theorem Rests.serverOut (h : Rests q clientTail serverTail m) : m.serverOut = [] := by
  by_contra hsome
  exact h _ (.serverWrites (List.append_nil _).symm hsome)

theorem Rests.down (h : Rests q clientTail serverTail m) {got : Bytes} (waits : m.client = .collecting got) :
    m.down = [] := by
  by_contra hsome
  exact h _ (.clientReads waits h.clientOut (List.append_nil _).symm hsome rfl)

theorem Rests.there (h : Rests q clientTail serverTail m) {got : Bytes} (waits : m.client = .collecting got) :
    m.dropped = false := by
  by_contra hgone
  exact h _ (.clientEnds waits h.clientOut (h.down waits) ((Bool.eq_false_or_eq_true _).resolve_right hgone))

theorem Rests.up (h : Rests q clientTail serverTail m) {got : Bytes} (waits : m.server = .collecting got) :
    m.up = [] := by
  by_contra hsome
  exact h _ (.serverReads waits (List.append_nil _).symm hsome rfl)

/-- How a meeting ends. Both sides accept one version, and what follows the greetings is what is on its
way; or both refuse, and nothing was answered. The results are those of the two sides on all that the
other side has written. -/
inductive Settled (p q : Int32) (clientTail serverTail : Bytes) (m : Meeting) : Prop where
  | agreed {v : Version} (same : p = q) (client : m.client = .finished (.ok v))
      (server : m.server = .finished (.ok v))
      (up : m.clientSent = hello p ++ m.up ∧ m.up = clientTail)
      (down : m.serverSent = Bytes.ofUInt16 v.number ++ m.down ∧ m.down = serverTail)
      (asked : Handshake.client p true m.serverSent = (.ok v, hello p))
      (answered : Handshake.server q true m.clientSent = (.ok v, Bytes.ofUInt16 v.number))
  | refused {e e' : HandshakeFault} (differ : p ≠ q) (client : m.client = .finished (.error e))
      (server : m.server = .finished (.error e')) (silent : m.serverSent = [])
      (asked : ∃ writable, (Handshake.client p writable m.serverSent).1 = .error e)
      (answered : Handshake.server q true m.clientSent = (.error e', []))

/-- A side that greets and hears no more is still waiting, and so has not been answered. -/
theorem Stands.greeting_rests (h : Stands p q clientTail serverTail m) (hrest : Rests q clientTail serverTail m)
    {got : Bytes} (waits : m.client = .collecting got) : False := by
  cases h.client with
  | accepts state _ _ =>
    rw [waits] at state
    cases state
  | fails state _ _ _ _ =>
    rw [waits] at state
    cases state
  | greets state plan taken =>
    rw [hrest.clientOut, List.append_nil] at plan
    rw [waits, hrest.down waits, feed_nil] at taken
    cases h.server with
    | listens listens _ _ =>
      have hread := h.taken
      rw [listens, hrest.up listens, feed_nil, plan, ← List.append_nil (hello p)] at hread
      by_cases hpq : p = q
      · obtain ⟨v, hv⟩ := feed_hello_same p
        rw [← hpq, hv] at hread
        cases (Prod.mk.inj hread).1
      · obtain ⟨left, hleft⟩ := feed_hello_other hpq []
        rw [hleft] at hread
        cases (Prod.mk.inj hread).1
    | accepts _ said _ =>
      rw [hrest.serverOut, List.append_nil] at said
      rw [said, feed_client] at taken
      cases (Prod.mk.inj taken).1
    | refuses _ _ gone =>
      rw [hrest.there waits] at gone
      cases gone

theorem Stands.settled (h : Stands p q clientTail serverTail m) (hrest : Rests q clientTail serverTail m) :
    Settled p q clientTail serverTail m := by
  cases h.client with
  | greets state _ _ => exact (h.greeting_rests hrest state).elim
  | @accepts v state plan taken =>
    obtain ⟨hserver, hsent⟩ := h.of_client_ok state
    obtain ⟨hpq, hread⟩ := h.of_server_ok hserver
    rw [hrest.clientOut, List.append_nil] at plan
    have hfed := h.taken
    rw [hserver, feed_finished] at hfed
    have hup : m.up = clientTail := List.append_cancel_left (hread.symm.trans plan)
    have hdown : m.down = serverTail := by
      obtain ⟨w, hw, hsaid⟩ := h.server.of_said (by rw [hsent]; exact List.cons_ne_nil _ _)
      rw [hserver] at hw
      rw [hrest.serverOut, List.append_nil, hsent, Except.ok.inj (finished.inj hw)] at hsaid
      exact List.append_cancel_left hsaid
    refine .agreed hpq state hserver ⟨hread, hup⟩ ⟨hsent, hdown⟩ ?_ (server_of_ok hfed)
    rw [Handshake.client, if_pos rfl, taken]
    rfl
  | @fails e state why _ _ gone =>
    have hserver : ∃ e', m.server = .finished (.error e') ∧ m.serverSent = [] := by
      cases h.server with
      | listens _ _ there =>
        rw [there] at gone
        cases gone
      | accepts _ _ there =>
        rw [there] at gone
        cases gone
      | refuses state plan _ => exact ⟨_, state, plan.1⟩
    obtain ⟨e', hserver, hsilent⟩ := hserver
    have hfed := h.taken
    rw [hserver, feed_finished] at hfed
    refine .refused (h.of_server_error hserver) state hserver hsilent ?_ ?_
    · rw [hsilent]
      rcases why with rfl | rfl
      · exact ⟨true, rfl⟩
      · exact ⟨false, rfl⟩
    · simp only [Handshake.server, hfed, result]

end Meeting

open Meeting in
/-- However the bytes are cut, and whatever is written after the greetings, a meeting comes to an end;
there both sides have accepted one version, and stand right behind the greeting of the other side, or
both have failed and nothing was answered, according to whether they belong to one cluster. And whatever
bytes come, the accepting side accepts exactly if they begin with its preamble and a version that is not
zero, and answers with one version that is not newer; otherwise it fails and says nothing. -/
theorem handshakes_agree (p q : Int32) (clientTail serverTail : Bytes) :
    (∀ m, Relation.ReflTransGen (Step q clientTail serverTail) (opening p) m →
      InStep p q m ∧ (Rests q clientTail serverTail m → Settled p q clientTail serverTail m)) ∧
    (WellFounded fun m' m => Step q clientTail serverTail m m') ∧
    ∀ b : Bytes, Answers q b := by
  refine ⟨fun m hrun => ?_, every_run_ends q clientTail serverTail, Handshake.answers_any q⟩
  have hstands := (stands_opening p q clientTail serverTail).run hrun
  exact ⟨hstands.inStep, hstands.settled⟩

end ClusterNet.Wire
