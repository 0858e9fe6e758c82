import ClusterNet.Consensus.Peer
import ClusterNet.Proofs.Changing
import ClusterNet.Proofs.Documents

/-!
# Verbs come to what their methods say

A caller that calls a verb gets what the method of this verb says to the same request, wherever the
peer is. On the way the request and the reply are documents, handed to a handler and back, but
nothing of that shows. What the peer asks its engine is noted by a second reading of `Verb.serve`, in
which every question is written down before it is answered.
-/

namespace ClusterNet.Consensus

open Json Messaging

variable {S : Type}

/-! ## Verbs -/

namespace Verb

variable {v : Verb} {f : v.Request → Answer v.Reply} {b : Bytes} {q : v.Request} {ms : Nat}

/-- Serving a verb where more may happen when the answer is asked for. -/
def serveWith {m : Type → Type} [Monad m] (v : Verb) (f : v.Request → m (Answer v.Reply)) (b : Bytes) :
    m (Nat × Effort) :=
  match (Form.ofBytes? b : Option v.Request) with
  | none => pure (0, .failed "malformed request")
  | some r => do
    match ← f r with
    | ⟨ms, some reply⟩ => pure (ms, .returned (Form.bytes reply))
    | ⟨ms, none⟩ => pure (ms, .brokeOff)

theorem serve_eq_serveWith (v : Verb) (f : v.Request → Answer v.Reply) (b : Bytes) :
    v.serve f b = serveWith (m := Id) v f b := by
  unfold serve serveWith
  cases (Form.ofBytes? b : Option v.Request) with
  | none => rfl
  | some r => rfl

end Verb

/-- A request that the method of a verb is asked. For files the method is that of the file service. -/
abbrev Question : Type := (v : Verb) × v.Request

/-- What the engine or the file service says to a question. -/
inductive Says (engine : Engine) (files : FileService S) (storage : S) :
    (v : Verb) → v.Request → Answer v.Reply → Prop where
  | preVote (q : VoteRequest) : Says engine files storage .preVote q (engine.preVote q)
  | requestVote (q : VoteRequest) : Says engine files storage .requestVote q (engine.requestVote q)
  | append (q : AppendRequest) : Says engine files storage .append q (engine.append q)
  | install (q : InstallRequest) : Says engine files storage .install q (engine.install q)
  | getFile (q : FileRequest) : Says engine files storage .getFile q (.atOnce (files.handle storage q))
  | timeoutNow (q : TimeoutNowRequest) : Says engine files storage .timeoutNow q (engine.timeoutNow q)
  | readIndex (q : ReadIndexRequest) : Says engine files storage .readIndex q (engine.readIndex q)

theorem Says.answer {engine : Engine} {files : FileService S} {storage : S} {v : Verb} {q : v.Request}
    {a : Answer v.Reply} (h : Says engine files storage v q a) : engine.answer files storage v q = a := by
  cases h <;> rfl

/-! ## What a peer does -/

namespace Peer

variable {engine : Engine} {files : FileService S} {storage : S} {p : Peer S} {v : Verb}

/-- A peer that has registered its verbs and is not closed. Applications register what they like
under other subjects. -/
inductive Running (engine : Engine) (files : FileService S) (storage : S) : Peer S → Prop where
  | starts : Running engine files storage (start engine files storage)
  | registers {p : Peer S} (before : Running engine files storage p) {subject : String} {h : Handler}
      (other : ∀ v : Verb, v.subject ≠ subject) (adapted : h.Adapted) :
      Running engine files storage { p with duties := p.duties.insert subject (.handler h) }
  | unregisters {p : Peer S} (before : Running engine files storage p) {subject : String}
      (other : ∀ v : Verb, v.subject ≠ subject) :
      Running engine files storage { p with duties := p.duties.erase subject }

/-- Every verb is served under its subject, and every other handler answers. -/
structure Serving (engine : Engine) (files : FileService S) (storage : S) (p : Peer S) : Prop where
  engine : p.engine = engine
  files : p.files = files
  storage : p.storage = storage
  unclosed : p.closed = false
  verbs : ∀ v : Verb, p.duties.get? v.subject = some (.verb v)
  others : ∀ {subject : String} {h : Handler}, p.duties.get? subject = some (.handler h) → h.Adapted

theorem get?_insertAll_verbs (vs : List Verb) (t : Table String Duty) (subject : String) :
    (t.insertAll (vs.map fun v => (v.subject, .verb v))).get? subject = t.get? subject ∨
      ∃ v, (t.insertAll (vs.map fun v => (v.subject, .verb v))).get? subject = some (.verb v) := by
  induction vs generalizing t with
  | nil => exact .inl rfl
  | cons v vs ih =>
    rcases ih (t.insert v.subject (.verb v)) with h | h
    · rw [Table.get?_insert] at h
      split at h
      · exact .inr ⟨v, h⟩
      · exact .inl h
    · exact .inr h

theorem serving_start (engine : Engine) (files : FileService S) (storage : S) :
    (start engine files storage).Serving engine files storage where
  engine := rfl
  files := rfl
  storage := rfl
  unclosed := rfl
  verbs v := by cases v <;> rfl
  others {subject h} hd := by
    rcases get?_insertAll_verbs Verb.all .empty subject with heq | ⟨v, heq⟩
    · cases heq.symm.trans hd
    · cases heq.symm.trans hd

theorem Running.serving (h : Running engine files storage p) : p.Serving engine files storage := by
  induction h with
  | starts => exact serving_start engine files storage
  | registers _ other adapted ih =>
    refine ⟨ih.engine, ih.files, ih.storage, ih.unclosed, fun v => ?_, fun {s g} hd => ?_⟩
    · exact (Table.get?_insert_of_ne _ (other v) _).trans (ih.verbs v)
    · rw [Table.get?_insert] at hd
      split at hd
      · cases hd
        exact adapted
      · exact ih.others hd
  | unregisters _ other ih =>
    refine ⟨ih.engine, ih.files, ih.storage, ih.unclosed, fun v => ?_, fun {s g} hd => ?_⟩
    · exact (Table.get?_erase_of_ne _ (other v)).trans (ih.verbs v)
    · rw [Table.get?_erase] at hd
      split at hd
      · cases hd
      · exact ih.others hd

/-- What a duty makes of requests. -/
def handlerOf (p : Peer S) : Duty → Handler
  | .verb v => p.handler v
  | .handler h => h

theorem get?_handlers (p : Peer S) (subject : String) :
    p.handlers.get? subject = (p.duties.get? subject).map p.handlerOf := by
  unfold handlers Table.get?
  induction p.duties.entries with
  | nil => rfl
  | cons e es ih =>
    rw [List.map_cons, Table.lookup, Table.lookup]
    split
    · cases e.2 <;> rfl
    · exact ih

theorem adapted_handlers (hothers : ∀ {subject h}, p.duties.get? subject = some (.handler h) → h.Adapted)
    {subject : String} {g : Handler} (hg : p.handlers.get? subject = some g) : g.Adapted := by
  rw [get?_handlers] at hg
  obtain ⟨d, hd, rfl⟩ := Option.map_eq_some_iff.mp hg
  cases d with
  | verb v => exact ⟨v.subject, fun _ b => v.serve (p.engine.answer p.files p.storage v) b, .inr rfl⟩
  | handler g => exact hothers hd

theorem Serving.handler (h : p.Serving engine files storage) (v : Verb) :
    p.handlers.get? v.subject = some (p.handler v) := by
  rw [get?_handlers, h.verbs]
  rfl

/-! ## Closing -/

/-- Notes a question and answers it. -/
def noted (p : Peer S) (v : Verb) (q : v.Request) : StateM (List Question) (Answer v.Reply) := do
  modify (· ++ [⟨v, q⟩])
  return p.engine.answer p.files p.storage v q

/-- Serves a verb, and notes the questions. -/
def noting (p : Peer S) (v : Verb) (b : Bytes) : (Nat × Effort) × List Question :=
  (v.serveWith (p.noted v) b).run []

/-- The questions to which a request leads. -/
def questions (p : Peer S) : Event → List Question
  | .invoked _ r =>
    match p.duties.get? r.subject with
    | some (.verb v) => (p.noting v r.payload).2
    | _ => []
  | .replied _ _ => []

/-- What a verb does with a payload is told to the caller, and its handler has seen that payload once. -/
theorem Serving.settled (h : p.Serving engine files storage) {r : Wire.Request} {n lag : Nat} {o : Option Outcome}
    {log : List Event} (hsubject : r.subject = v.subject) (hsettled : Settled p.handlers r n lag o log)
    (hshort : (v.serve (p.engine.answer p.files p.storage v) r.payload).1 + lag < n) :
    o = some ((v.serve (p.engine.answer p.files p.storage v) r.payload).2.verdict v.subject) ∧
      log.flatMap p.questions = (p.noting v r.payload).2 := by
  have hreacts : ∀ r' : Wire.Request, Request.Alike r r' → ∀ g, p.handlers.get? r'.subject = some g →
      g = p.handler v ∧ g.react r' = .works (v.serve (p.engine.answer p.files p.storage v) r.payload).1
        (v.serve (p.engine.answer p.files p.storage v) r.payload).2 := by
    intro r' halike g hg
    rw [halike.1, hsubject, h.handler] at hg
    obtain rfl := Option.some.inj hg
    refine ⟨rfl, ?_⟩
    rw [← halike.2]
    rfl
  have hlasts : ∀ r', Request.Alike r r' →
      Lasts p.handlers r' (v.serve (p.engine.answer p.files p.storage v) r.payload).1 := by
    intro r' halike g ms effort hg hworks
    obtain ⟨rfl, -⟩ := Reaction.works.inj (hworks.symm.trans (hreacts r' halike g hg).2)
    exact Nat.le_refl _
  obtain ⟨r', o', halike, rfl, hdeserves, rfl⟩ :=
    hsettled.deserved (fun _ _ hg => adapted_handlers h.others hg) hlasts hshort
  have hhandler : p.handlers.get? r'.subject = some (p.handler v) := by
    rw [halike.1, hsubject, h.handler]
  constructor
  · unfold Deserves at hdeserves
    rw [hhandler] at hdeserves
    obtain ⟨ms, effort, hworks, rfl⟩ := hdeserves
    obtain ⟨-, rfl⟩ := Reaction.works.inj (hworks.symm.trans (hreacts r' halike _ hhandler).2)
    rw [halike.1, hsubject]
  · rw [seen, hhandler]
    simp only [Option.map_some, Option.toList_some, List.flatMap_cons, List.flatMap_nil, List.append_nil,
      questions]
    rw [halike.1, halike.2, hsubject, h.verbs]

/-- The request of a message on its way. -/
def Carries (r : Wire.Request) (m : Outgoing) : Prop := r.subject = m.subject ∧ r.payload = m.payload

/-- A peer that hosts no group, and a question to it. -/
def hostless : Peer Unit := start .noGroup (.ofInitialId 1) ()

def question : TimeoutNowRequest := ⟨"g", "s", "p", 7⟩

def asking : Wire.Request := ⟨5, ⟨"::1", 80⟩, "timeoutNow", Form.bytes question⟩

/-- All that moves when the question is put over a stream, until nothing can. -/
def askingMoves : List LinkAct :=
  ([.client (.writes 400), .client (.writes 400), .client (.writes 400), .client (.proceeds 0),
    .server (.reads 400), .server (.reads 400), .server (.reads 400), .server (.reads 400), .server .serves,
    .server (.works 0), .server (.writes 400), .server (.writes 400), .server (.writes 400),
    .client (.reads 400), .client (.reads 400), .client (.reads 400), .client (.reads 400), .client .receives,
    .client (.proceeds 0), .server (.works 0)] : List Move).map (.moves 0)

/-- The two ends afterwards. -/
def asked : Exchange :=
  (({ Exchange.start 400 2 400 with handlers := hostless.handlers }).act (.begins 0 asking 9)).run askingMoves

end Peer

end ClusterNet.Consensus
