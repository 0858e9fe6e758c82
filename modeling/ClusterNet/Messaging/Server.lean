import ClusterNet.Messaging.Channel
import ClusterNet.Messaging.Handler

/-!
# Servers

A server takes requests from a channel and hands each to the handler of its subject. What a
handler does goes on beside the server as a job. A request for a subject without a handler is
refused by the server itself, which takes no other request before the refusal is out.
-/

namespace ClusterNet.Messaging

open Wire

/-- What can be seen of handlers at work. -/
inductive Event where
  | invoked (label : String) (request : Request)
  | replied (status : Status) (result : Except Failure Unit)

inductive Stage where
  | working (due : Nat) (effort : Effort)
  /-- The reply was handed over. -/
  | answering (t : Ticket)
  /-- It was too long, and a shorter one was handed over. -/
  | explaining (t : Ticket)
  /-- One of several replies was handed over, and these come after it. -/
  | speaking (t : Ticket) (status : Status) (rest : List (Status × Bytes))
  /-- About to hand over the next of several replies. -/
  | turning (rs : List (Status × Bytes))
  | done
  deriving DecidableEq

structure Job where
  request : Request
  stage : Stage
  deriving DecidableEq

abbrev JobKey := Nat

inductive Serving where
  | ready
  /-- Waits until a refusal is out. -/
  | refusing (t : Ticket)
  | stopped
  deriving DecidableEq

structure Server where
  channel : Channel
  serving : Serving
  jobs : Table JobKey Job
  nextJob : JobKey
  /-- What happened, the last first. -/
  log : List Event

namespace Server

def ofChannel (channel : Channel) : Server := ⟨channel, .ready, .empty, 0, []⟩

def record (s : Server) (e : Event) : Server := { s with log := e :: s.log }

def addJob (s : Server) (request : Request) (stage : Stage) : Server :=
  { s with jobs := s.jobs.insert s.nextJob ⟨request, stage⟩, nextJob := s.nextJob + 1 }

/-- The server takes no more requests, and nobody else takes them. -/
def stop (s : Server) : Server := { s with serving := .stopped, channel := s.channel.neglect }

def reply (s : Server) (request : Request) (r : Status × Bytes) : Ticket × Server :=
  let (t, channel) := s.channel.submit (.reply ⟨request.id, r.1, r.2⟩)
  (t, { s with channel })

/-- Hands a request to its handler. A handler that breaks off on the spot takes the server
down with it. -/
def dispatch (s : Server) (handlers : Handlers) (now : Nat) (r : Request) : Server :=
  match handlers.get? r.subject with
  | none =>
    let (t, s) := s.reply r (refusal r)
    { s with serving := .refusing t }
  | some h =>
    let s := s.record (.invoked h.label r)
    match h.react r with
    | .works ms effort => s.addJob r (.working (now + ms) effort)
    | .replies rs => s.addJob r (.turning rs)
    | .keeps => s
    | .releases => s
    | .breaksOff => s.stop

/-- Takes the next request. Replies are ignored here. -/
def serve? (s : Server) (handlers : Handlers) (now : Nat) : Option Server :=
  match s.serving with
  | .stopped => none
  | .refusing t => (s.channel.outcome? t).map fun _ => { s with serving := .ready }
  | .ready =>
    match s.channel.receive? with
    | some (.request r, channel) => some ({ s with channel }.dispatch handlers now r)
    | some (.reply _, channel) => some { s with channel }
    | none => if s.channel.ended then some s.stop else none

def setStage (s : Server) (k : JobKey) (stage : Stage) : Server :=
  { s with jobs := s.jobs.modify k fun j => { j with stage } }

/-- Takes a step of a job. -/
def work? (s : Server) (k : JobKey) (now : Nat) : Option Server :=
  match s.jobs.get? k with
  | none => none
  | some j =>
    match j.stage with
    | .working due effort =>
      if due ≤ now then
        let (t, s) := s.reply j.request effort.reply
        some (s.setStage k (.answering t))
      else none
    | .answering t =>
      match s.channel.outcome? t with
      | none => none
      | some (.error (.codec (.tooLarge size limit))) =>
        let (t, s) := s.reply j.request (tooLong size limit)
        some (s.setStage k (.explaining t))
      | some _ => some (s.setStage k .done)
    | .explaining t => (s.channel.outcome? t).map fun _ => s.setStage k .done
    | .turning [] => some (s.setStage k .done)
    | .turning (r :: rest) =>
      let (t, s) := s.reply j.request r
      some (s.setStage k (.speaking t r.1 rest))
    | .speaking t status rest =>
      (s.channel.outcome? t).map fun o => (s.record (.replied status o)).setStage k (.turning rest)
    | .done => none

/-- When a job goes on, if it waits for the clock. -/
def due? (j : Job) : Option Nat :=
  match j.stage with
  | .working due _ => some due
  | _ => none

/-! ## The steps of a job -/

variable {s s' : Server} {k : JobKey} {now : Nat}

/-- What a step makes of a server, by the stage of the job that takes it. -/
inductive Works (s : Server) (k : JobKey) (now : Nat) (request : Request) : Stage → Server → Prop where
  | replies {due : Nat} {effort : Effort} (ended : due ≤ now) :
      Works s k now request (.working due effort)
        ((s.reply request effort.reply).2.setStage k (.answering (s.reply request effort.reply).1))
  | explains {t : Ticket} {size limit : Nat}
      (long : s.channel.outcome? t = some (.error (.codec (.tooLarge size limit)))) :
      Works s k now request (.answering t)
        ((s.reply request (tooLong size limit)).2.setStage k (.explaining (s.reply request (tooLong size limit)).1))
  | answered {t : Ticket} {o : Except Failure Unit} (told : s.channel.outcome? t = some o)
      (notLong : ∀ size limit, o ≠ .error (.codec (.tooLarge size limit))) :
      Works s k now request (.answering t) (s.setStage k .done)
  | explained {t : Ticket} {o : Except Failure Unit} (told : s.channel.outcome? t = some o) :
      Works s k now request (.explaining t) (s.setStage k .done)
  | speaks (r : Status × Bytes) (rest : List (Status × Bytes)) :
      Works s k now request (.turning (r :: rest))
        ((s.reply request r).2.setStage k (.speaking (s.reply request r).1 r.1 rest))
  | hears {t : Ticket} {status : Status} {rest : List (Status × Bytes)} {o : Except Failure Unit}
      (told : s.channel.outcome? t = some o) :
      Works s k now request (.speaking t status rest) ((s.record (.replied status o)).setStage k (.turning rest))
  | falls : Works s k now request (.turning []) (s.setStage k .done)

theorem works_of_work? (h : s.work? k now = some s') :
    ∃ request stage, s.jobs.get? k = some ⟨request, stage⟩ ∧ s.Works k now request stage s' := by
  unfold work? at h
  split at h
  · cases h
  rename_i j hj
  obtain ⟨request, stage⟩ := j
  refine ⟨request, stage, hj, ?_⟩
  cases stage with
  | working due effort =>
    dsimp only at h
    split at h
    · obtain rfl := Option.some.inj h
      exact .replies ‹_›
    · cases h
  | answering t =>
    dsimp only at h
    split at h
    · cases h
    · obtain rfl := Option.some.inj h
      exact .explains ‹_›
    · rename_i o hnot ho
      obtain rfl := Option.some.inj h
      exact .answered ho hnot
  | explaining t =>
    obtain ⟨o, ho, rfl⟩ := Option.map_eq_some_iff.mp h
    exact .explained ho
  | turning rs =>
    cases rs with
    | nil =>
      obtain rfl := Option.some.inj h
      exact .falls
    | cons r rest =>
      obtain rfl := Option.some.inj h
      exact .speaks r rest
  | speaking t status rest =>
    obtain ⟨o, ho, rfl⟩ := Option.map_eq_some_iff.mp h
    exact .hears ho
  | done => cases h

/-- A step of a job gives the job another stage, and hands over a reply at most. -/
theorem work?_eq (h : s.work? k now = some s') :
    ∃ channel log stage, s' = setStage { s with channel, log } k stage ∧
      (channel = s.channel ∨ ∃ r, channel = (s.channel.submit (.reply r)).2) := by
  obtain ⟨request, stage, -, hworks⟩ := works_of_work? h
  cases hworks with
  | replies | explains | speaks => exact ⟨_, _, _, rfl, .inr ⟨_, rfl⟩⟩
  | answered | explained | hears | falls => exact ⟨_, _, _, rfl, .inl rfl⟩

theorem work?_channel (h : s.work? k now = some s') :
    s'.serving = s.serving ∧ (s'.channel = s.channel ∨ ∃ r, s'.channel = (s.channel.submit (.reply r)).2) := by
  obtain ⟨channel, log, stage, rfl, hchannel⟩ := work?_eq h
  exact ⟨rfl, hchannel⟩

end Server

end ClusterNet.Messaging
