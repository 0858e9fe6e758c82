import ClusterNet.Proofs.Clearing

/-!
# When the channel has closed

When a channel has closed and nothing moves any more, no call is left, unless the stream holds the writer
up in the middle of a frame. Once the writer has stopped and the list is cleared, a call that is left ends
with its own next steps, at whatever time. A call that begins after the channel has closed ends with its
first look.
-/

namespace ClusterNet.Messaging

open Wire

/-- Whose step it is. -/
def DeskAct.key? : DeskAct → Option CallKey
  | .registers k _ _ => some k
  | .looks k => some k
  | .hands k => some k
  | .proceeds k _ => some k
  | .abandons k => some k
  | .receives => none
  | .channel _ => none

/-- What a call comes to when no reply will come any more: it is told that the channel is closed, or what
it has been given before, or why its request was not sent. -/
def Call.ComesTo (channel : Channel) (a : Call) (o : Outcome) : Prop :=
  o = .error .connectionClosed ∨ a.slot = .filled o ∨
    ∃ t e, a.progress = .sending t ∧ channel.outcome? t = some (.error e) ∧ o = .error e

namespace Client

variable {c : Client} {k l : CallKey}

theorem progress_forget (c : Client) (id : UInt64) (l : CallKey) :
    ((c.forget id).call? l).map Call.progress = (c.call? l).map Call.progress := by
  rw [call?_forget]
  split
  · cases c.call? l <;> simp
  · rfl

theorem progress_finish_of_ne (h : l ≠ k) (p : Progress) :
    ((c.finish k p).call? l).map Call.progress = (c.call? l).map Call.progress := by
  cases hk : c.call? k with
  | none => rw [finish, hk]
  | some a =>
    rw [call?_finish hk]
    cases c.call? l with
    | none => rfl
    | some b => simp [ended, h]

theorem progress_finish_self {a : Call} (h : c.call? k = some a) (p : Progress) :
    ((c.finish k p).call? k).map Call.progress = some p := by
  rw [call?_finish h, h]
  simp [ended]

theorem proceed?_of_closed {a : Call} (h : c.call? k = some a) (hclosed : a.isOpen = false) (now : Nat) :
    c.proceed? k now = none := by
  unfold proceed?
  rw [h]
  unfold Call.isOpen at hclosed
  split at hclosed
  · cases hclosed
  · cases hclosed
  · dsimp only
    split
    · exact absurd ‹_› (by simp_all)
    · exact absurd ‹_› (by simp_all)
    · rfl

end Client

namespace Desk

variable {x : Desk} {k : CallKey} {a : Call}

/-- How far a call is. -/
def progress? (x : Desk) (k : CallKey) : Option Progress := (x.client.call? k).map Call.progress

/-! ## What others do -/

/-- What whoever takes the replies leaves alone: how far the calls are, and whether the channel is open. -/
structure Rests (x y : Desk) : Prop where
  progress : ∀ k, y.progress? k = x.progress? k
  entering : y.entering = x.entering
  closed : y.client.channel.closed = x.client.channel.closed

theorem rests_pick (x : Desk) (id : UInt64) (r? : Option Reply) : x.Rests (x.pick id r?) := by
  unfold pick
  split <;> exact ⟨fun _ => rfl, rfl, rfl⟩

theorem rests_receive? {y : Desk} (h : x.receive? = some y) : x.Rests y := by
  have htake : ∀ {m d}, x.client.channel.receive? = some (m, d) → d.closed = x.client.channel.closed := by
    intro m d hd
    obtain ⟨rest, -, rfl⟩ := Channel.receive?_eq_some hd
    rfl
  unfold receive? at h
  split at h
  · obtain rfl := Option.some.inj h
    refine ⟨fun k => ?_, rfl, rfl⟩
    simp only [progress?, tell, Client.call?, Table.get?_modify]
    split
    · cases x.client.calls.get? k <;> simp
    · rfl
  split at h
  · split at h
    · obtain rfl := Option.some.inj h
      exact ⟨fun _ => rfl, rfl, htake ‹_›⟩
    · obtain rfl := Option.some.inj h
      exact ⟨fun _ => rfl, rfl, htake ‹_›⟩
    · split at h
      · obtain rfl := Option.some.inj h
        exact ⟨fun _ => rfl, rfl, rfl⟩
      · cases h
  · obtain rfl := Option.some.inj h
    obtain ⟨hprogress, hentering, hclosed⟩ := rests_pick { x with receiving := .taking } _ _
    exact ⟨hprogress, hentering, hclosed⟩
  · split at h
    · obtain rfl := Option.some.inj h
      exact ⟨fun _ => rfl, rfl, rfl⟩
    · obtain rfl := Option.some.inj h
      exact ⟨fun _ => rfl, rfl, rfl⟩
  · obtain rfl := Option.some.inj h
    obtain ⟨hprogress, hentering, hclosed⟩ := rests_pick { x with receiving := .clearing _ } _ _
    exact ⟨hprogress, hentering, hclosed⟩
  · obtain rfl := Option.some.inj h
    exact ⟨fun _ => rfl, rfl, rfl⟩
  · cases h

theorem act_of_other {m : DeskAct} (hm : m.key? ≠ some k) :
    (x.act m).progress? k = x.progress? k ∧ (x.act m).entering.get? k = x.entering.get? k := by
  cases m with
  | registers l r n =>
    have hl : k ≠ l := fun he => hm (congrArg some he.symm)
    simp only [act]
    split
    · refine ⟨?_, Table.get?_insert_of_ne _ hl _⟩
      rw [progress?, register, Client.call?, Table.get?_insert_of_ne _ hl]
      exact Client.progress_forget x.client r.id k
    · exact ⟨rfl, rfl⟩
  | looks l =>
    have hl : k ≠ l := fun he => hm (congrArg some he.symm)
    simp only [act]
    cases hy : x.look? l with
    | none => exact ⟨rfl, rfl⟩
    | some y =>
      obtain ⟨n, -, ⟨-, rfl⟩ | ⟨-, rfl⟩⟩ := look?_eq_some hy
      · exact ⟨Client.progress_finish_of_ne hl _, Table.get?_erase_of_ne _ hl⟩
      · exact ⟨rfl, Table.get?_insert_of_ne _ hl _⟩
  | hands l =>
    have hl : k ≠ l := fun he => hm (congrArg some he.symm)
    simp only [act]
    cases hy : x.hand? l with
    | none => exact ⟨rfl, rfl⟩
    | some y =>
      obtain ⟨-, a, -, rfl⟩ := hand?_eq_some hy
      refine ⟨?_, Table.get?_erase_of_ne _ hl⟩
      simp only [Option.getD_some, progress?, Client.call?, Table.get?_insert_of_ne _ hl]
  | proceeds l now =>
    have hl : k ≠ l := fun he => hm (congrArg some he.symm)
    refine ⟨?_, rfl⟩
    simp only [act]
    cases hd : x.client.proceed? l now with
    | none => rfl
    | some d =>
      obtain ⟨a, -, -, ⟨t, -, -, rfl⟩ | ⟨o, rfl, -⟩⟩ := Client.proceed?_eq_some hd
      · simp only [Option.getD_some, progress?, Client.call?, Table.get?_insert_of_ne _ hl]
      · exact Client.progress_finish_of_ne hl _
  | abandons l =>
    have hl : k ≠ l := fun he => hm (congrArg some he.symm)
    simp only [act, abandon]
    split
    · exact ⟨Client.progress_finish_of_ne hl _, Table.get?_erase_of_ne _ hl⟩
    · refine ⟨?_, rfl⟩
      rcases Client.abandon_eq x.client l with he | ⟨a, d, -, -, -, he⟩
      · simp only [progress?, he]
      · simp only [progress?, he, Client.finish_setChannel]
        exact Client.progress_finish_of_ne hl _
  | receives =>
    simp only [act]
    cases hy : x.receive? with
    | none => exact ⟨rfl, rfl⟩
    | some y => exact ⟨(rests_receive? hy).progress k, congrArg (Table.get? · k) (rests_receive? hy).entering⟩
  | channel m =>
    simp only [act]
    split <;> exact ⟨rfl, rfl⟩

theorem closed_act (m : DeskAct) (h : x.client.channel.closed = true) : (x.act m).client.channel.closed = true := by
  cases m with
  | registers k r n =>
    simp only [act]
    split
    · rw [register]
      exact (congrArg Channel.closed Client.channel_forget).trans h
    · exact h
  | looks k =>
    simp only [act]
    cases hy : x.look? k with
    | none => exact h
    | some y =>
      obtain ⟨n, -, ⟨-, rfl⟩ | ⟨-, rfl⟩⟩ := look?_eq_some hy
      · exact (congrArg Channel.closed (Client.channel_finish _)).trans h
      · exact h
  | hands k =>
    simp only [act]
    cases hy : x.hand? k with
    | none => exact h
    | some y =>
      obtain ⟨-, a, -, rfl⟩ := hand?_eq_some hy
      obtain ⟨outbound, blocked, settled, he⟩ := x.client.channel.enqueue_eq (.request a.request)
      rw [he]
      exact h
  | proceeds k now => exact Client.closed_act (.proceeds k now) h
  | abandons k =>
    simp only [act, abandon]
    split
    · exact (congrArg Channel.closed (Client.channel_finish _)).trans h
    · exact Client.closed_act (.abandons k) h
  | receives =>
    simp only [act]
    cases hy : x.receive? with
    | none => exact h
    | some y => exact (rests_receive? hy).closed.trans h
  | channel m =>
    simp only [act]
    split
    · exact Client.closed_act (.channel m) h
    · exact h

/-! ## Calls that come too late -/

/-- The call has not looked yet, or it has seen that the channel is closed. -/
structure Late (x : Desk) (k : CallKey) : Prop where
  closed : x.client.channel.closed = true
  call : (x.entering.get? k = some 2 ∧ x.progress? k = some .gone) ∨
    (x.entering.get? k = none ∧ x.progress? k = some (.over (.error .connectionClosed)))

theorem late_register (hclosed : x.client.channel.closed = true) {r : Request} (hfresh : x.Fresh k r) (n : Nat) :
    (x.act (.registers k r n)).Late k := by
  have hact : x.act (.registers k r n) = x.register k r n := if_pos hfresh
  refine ⟨closed_act _ hclosed, .inl ?_⟩
  rw [hact]
  refine ⟨Table.get?_insert_self _ _ _, ?_⟩
  rw [progress?, register, Client.call?, Table.get?_insert_self]
  rfl

theorem Late.look (h : x.Late k) : (x.act (.looks k)).Late k ∧
    (x.act (.looks k)).progress? k = some (.over (.error .connectionClosed)) := by
  rcases h.call with ⟨hentering, hgone⟩ | ⟨hentering, hover⟩
  · have hact : x.act (.looks k) = _ := congrArg (Option.getD · x) (look?_of_closed hentering h.closed)
    obtain ⟨a, ha, -⟩ := Option.map_eq_some_iff.mp hgone
    have hprogress : (x.act (.looks k)).progress? k = some (.over (.error .connectionClosed)) := by
      rw [hact]
      exact Client.progress_finish_self ha _
    refine ⟨⟨closed_act _ h.closed, .inr ⟨?_, hprogress⟩⟩, hprogress⟩
    rw [hact]
    exact Table.get?_erase_self _ _
  · rw [(act_of_not_entering hentering).1]
    exact ⟨h, hover⟩

theorem Late.act (h : x.Late k) {m : DeskAct} (hm : m ≠ .abandons k) : (x.act m).Late k := by
  by_cases hkey : m.key? = some k
  · obtain ⟨a, ha, hprogress⟩ : ∃ a, x.client.call? k = some a ∧ a.isOpen = false := by
      rcases h.call with ⟨-, hgone⟩ | ⟨-, hover⟩
      · obtain ⟨a, ha, hgone⟩ := Option.map_eq_some_iff.mp hgone
        exact ⟨a, ha, by rw [Call.isOpen, hgone]⟩
      · obtain ⟨a, ha, hover⟩ := Option.map_eq_some_iff.mp hover
        exact ⟨a, ha, by rw [Call.isOpen, hover]⟩
    cases m with
    | registers l r n =>
      obtain rfl := Option.some.inj hkey
      have hnot : ¬ x.Fresh l r := fun hfresh => by
        rw [hfresh.1] at ha
        cases ha
      rwa [Desk.act, if_neg hnot]
    | looks l =>
      obtain rfl := Option.some.inj hkey
      exact h.look.1
    | hands l =>
      obtain rfl := Option.some.inj hkey
      have hnone : x.hand? l = none := by
        rcases h.call with ⟨hentering, -⟩ | ⟨hentering, -⟩ <;> simp [Desk.hand?, hentering]
      rwa [Desk.act, hnone]
    | proceeds l now =>
      obtain rfl := Option.some.inj hkey
      rwa [Desk.act, Client.proceed?_of_closed ha hprogress]
    | abandons l =>
      obtain rfl := Option.some.inj hkey
      exact absurd rfl hm
    | receives | channel => cases hkey
  · obtain ⟨hprogress, hentering⟩ := act_of_other (x := x) hkey
    refine ⟨closed_act m h.closed, ?_⟩
    rw [hprogress, hentering]
    exact h.call

theorem Late.run (h : x.Late k) {acts : List DeskAct} (hacts : .abandons k ∉ acts) : (x.run acts).Late k := by
  induction acts generalizing x with
  | nil => exact h
  | cons m acts ih =>
    rw [List.mem_cons, not_or] at hacts
    exact ih (h.act (Ne.symm hacts.1)) hacts.2

/-! ## When nothing moves -/

/-- Nothing can move by itself. What may still happen is up to the stream. -/
structure Still (x : Desk) (now : Nat) : Prop where
  channel : x.client.channel.Still
  receives : x.receive? = none
  looks : ∀ k, x.look? k = none
  hands : ∀ k, x.hand? k = none
  proceeds : ∀ k, x.client.proceed? k now = none

/-- The writer has stopped, and whoever takes the replies has cleared the list. -/
structure Finished (x : Desk) : Prop where
  writer : x.client.channel.writer = .stopped
  reader : x.client.channel.reader = .stopped
  receiving : x.receiving = .over
  hand : x.hand = none

theorem Inv.not_entering_of_still (h : x.Inv) {now : Nat} (hstill : x.Still now) (k : CallKey) :
    x.entering.get? k = none := by
  by_contra hsome
  obtain ⟨n, hn⟩ := Option.ne_none_iff_exists'.mp hsome
  obtain ⟨a, ha, -⟩ := h.entering k n hn
  cases n with
  | zero =>
    have hhand := hstill.hands k
    rw [hand?_of_entering hn ha] at hhand
    cases hhand
  | succ n =>
    have hlook := hstill.looks k
    cases hclosed : x.client.channel.closed with
    | true =>
      rw [look?_of_closed hn hclosed] at hlook
      cases hlook
    | false =>
      rw [look?_of_open hn hclosed] at hlook
      cases hlook

theorem Inv.finished_of_still (h : x.Inv) (hclosed : x.client.channel.closed = true) {now : Nat}
    (hstill : x.Still now) (hwriter : ∀ t left, x.client.channel.writer ≠ .writing t left) : x.Finished := by
  have hreceives := hstill.receives
  have hstopped := (hstill.channel.writer hclosed).resolve_right fun ⟨t, left, hwriting, _⟩ => hwriter t left hwriting
  unfold Desk.receive? at hreceives
  split at hreceives
  · cases hreceives
  rename_i hhand
  split at hreceives
  · -- The reader has stopped as well, and so this is not the end.
    exfalso
    split at hreceives
    · cases hreceives
    · cases hreceives
    · rename_i hnone
      have hin : x.client.channel.inbound = [] := by
        unfold Channel.receive? at hnone
        split at hnone
        · cases hnone
        · assumption
      have hreader := hstill.channel.reader h.regular hclosed hin
      rw [if_pos (by simp [Channel.ended, hreader, hin])] at hreceives
      cases hreceives
  · cases hreceives
  · split at hreceives <;> cases hreceives
  · cases hreceives
  · cases hreceives
  · rename_i hover
    exact ⟨hstopped, h.ended (by rw [hover]; rfl), hover, hhand⟩

theorem Inv.slot_of_finished (h : x.Inv) (hfinished : x.Finished) (hk : x.client.call? k = some a)
    (hopen : a.isOpen = true) : a.slot ≠ .empty := by
  intro hslot
  rcases h.listed k a hk (.inr ⟨a, hk, hopen⟩) hslot with ⟨r?, hr⟩ | ⟨-, ⟨n, hn⟩ | hcovers⟩
  · rw [hfinished.hand] at hr
    cases hr
  · rw [h.not_entering hk hopen] at hn
    cases hn
  · rw [hfinished.receiving] at hcovers
    exact hcovers

theorem Inv.told_of_finished (h : x.Inv) (hfinished : x.Finished) (hk : x.client.call? k = some a) {t : Ticket}
    (hsending : a.progress = .sending t) : x.client.channel.outcome? t ≠ none := by
  obtain ⟨-, hout, hblocked⟩ := h.regular.writer hfinished.writer
  rcases (h.ticket k a t hk hsending).2 with htold | hwaiting | ⟨left, hwriting⟩
  · exact Option.isSome_iff_ne_none.mp htold
  · simp [hout, hblocked] at hwaiting
  · rw [hfinished.writer] at hwriting
    cases hwriting

theorem look?_of_slot {due : Nat} (hwaiting : a.progress = .waiting due) (hslot : a.slot ≠ .empty) (now : Nat) :
    ∃ o, a.look? now = some o ∧ (o = .error .connectionClosed ∨ a.slot = .filled o) := by
  unfold Call.look?
  rw [hwaiting]
  cases hs : a.slot with
  | empty => exact absurd hs hslot
  | filled o => exact ⟨o, rfl, .inr rfl⟩
  | lost => exact ⟨_, rfl, .inl rfl⟩

/-- Once the list is cleared, a call that sends or waits goes on. -/
theorem Inv.proceed?_of_finished (h : x.Inv) (hfinished : x.Finished) (hk : x.client.call? k = some a)
    (hopen : a.isOpen = true) (now : Nat) :
    (∃ o, x.client.proceed? k now = some (x.client.finish k (.over o)) ∧ a.ComesTo x.client.channel o) ∨
      x.client.proceed? k now = some { x.client with
        calls := x.client.calls.insert k { a with progress := .waiting (now + a.patience) } } := by
  have hslot := h.slot_of_finished hfinished hk hopen
  unfold Client.proceed?
  rw [hk]
  rcases Call.sending_or_waiting hopen with ⟨t, hsending⟩ | ⟨due, hwaiting⟩
  · obtain ⟨r, hr⟩ := Option.ne_none_iff_exists'.mp (h.told_of_finished hfinished hk hsending)
    cases r with
    | ok u =>
      right
      simp only [hsending, hr]
    | error e =>
      refine .inl ⟨.error e, ?_, .inr (.inr ⟨t, e, hsending, hr, rfl⟩)⟩
      simp only [hsending, hr]
  · obtain ⟨o, hlook, ho⟩ := look?_of_slot hwaiting hslot now
    refine .inl ⟨o, ?_, ho.imp id .inl⟩
    simp only [hwaiting, hlook, Option.map_some]

theorem Inv.not_busy_of_still (h : x.Inv) (hfinished : x.Finished) {now : Nat} (hstill : x.Still now) (k : CallKey) :
    ¬ x.Busy k := by
  rintro (hentering | ⟨a, hk, hopen⟩)
  · rw [h.not_entering_of_still hstill] at hentering
    cases hentering
  · rcases h.proceed?_of_finished hfinished hk hopen now with ⟨o, hsome, -⟩ | hsome
    · rw [hstill.proceeds] at hsome
      cases hsome
    · rw [hstill.proceeds] at hsome
      cases hsome

/-! ## The last steps of a call -/

theorem Inv.act_of_over (h : x.Inv) {o : Outcome} (hover : x.progress? k = some (.over o)) :
    x.act (.looks k) = x ∧ x.act (.hands k) = x ∧ ∀ now, x.act (.proceeds k now) = x := by
  obtain ⟨a, hk, ha⟩ := Option.map_eq_some_iff.mp hover
  have hnone : x.entering.get? k = none := by
    by_contra hsome
    obtain ⟨n, hn⟩ := Option.ne_none_iff_exists'.mp hsome
    obtain ⟨b, hb, hgone⟩ := h.entering k n hn
    rw [← Option.some.inj (hk.symm.trans hb), ha] at hgone
    cases hgone
  refine ⟨(act_of_not_entering hnone).1, (act_of_not_entering hnone).2, fun now => ?_⟩
  rw [Desk.act, Client.proceed?_of_closed hk (by rw [Call.isOpen, ha])]
  rfl

/-- What is left to do for a call that has handed its request over. -/
theorem Inv.last_proceeds (h : x.Inv) (hfinished : x.Finished) (hk : x.client.call? k = some a)
    (hopen : a.isOpen = true) (now : Nat) : ∃ o,
      (x.run [.proceeds k now, .proceeds k now]).progress? k = some (.over o) ∧ a.ComesTo x.client.channel o := by
  rcases h.proceed?_of_finished hfinished hk hopen now with ⟨o, hsome, ho⟩ | hsome
  · have hact : x.act (.proceeds k now) = { x with client := x.client.finish k (.over o) } := by
      rw [Desk.act, hsome, Option.getD_some]
    have hover : (x.act (.proceeds k now)).progress? k = some (.over o) := by
      rw [hact]
      exact Client.progress_finish_self hk _
    refine ⟨o, ?_, ho⟩
    simp only [Desk.run, List.foldl_cons, List.foldl_nil, ((h.act (.proceeds k now)).act_of_over hover).2.2, hover]
  · have hact : x.act (.proceeds k now) = { x with client := { x.client with
        calls := x.client.calls.insert k { a with progress := .waiting (now + a.patience) } } } := by
      rw [Desk.act, hsome, Option.getD_some]
    obtain ⟨o, hlook, ho⟩ := look?_of_slot (a := { a with progress := .waiting (now + a.patience) }) rfl
      (h.slot_of_finished hfinished hk hopen :) now
    refine ⟨o, ?_, ho.imp id .inl⟩
    have hself : (x.act (.proceeds k now)).client.call? k =
        some { a with progress := .waiting (now + a.patience) } := by
      rw [hact]
      exact Table.get?_insert_self _ _ _
    have hsome' : (x.act (.proceeds k now)).client.proceed? k now =
        some ((x.act (.proceeds k now)).client.finish k (.over o)) := by
      unfold Client.proceed?
      rw [hself]
      simp only [hlook, Option.map_some]
    simp only [Desk.run, List.foldl_cons, List.foldl_nil]
    rw [Desk.act, hsome', Option.getD_some]
    exact Client.progress_finish_self hself _

theorem Inv.last_steps (h : x.Inv) (hfinished : x.Finished) (hk : x.client.call? k = some a) (hbusy : x.Busy k)
    (now : Nat) : ∃ o, (x.run [.looks k, .hands k, .proceeds k now, .proceeds k now]).progress? k = some (.over o) ∧
      a.ComesTo x.client.channel o := by
  have hclosed := (h.regular.writer hfinished.writer).1
  rcases hbusy with hentering | ⟨b, hb, hopen⟩
  · obtain ⟨n, hn⟩ := Option.isSome_iff_exists.mp hentering
    cases n with
    | succ n =>
      have hact : x.act (.looks k) = _ := congrArg (Option.getD · x) (look?_of_closed hn hclosed)
      have hover : (x.act (.looks k)).progress? k = some (.over (.error .connectionClosed)) := by
        rw [hact]
        exact Client.progress_finish_self hk _
      obtain ⟨-, hhands, hproceeds⟩ := (h.act (.looks k)).act_of_over hover
      refine ⟨_, ?_, .inl rfl⟩
      simp only [Desk.run, List.foldl_cons, List.foldl_nil, hhands, hproceeds, hover]
    | zero =>
      -- There is no queue any more, so the request is refused.
      have hlook : x.act (.looks k) = x := by simp only [Desk.act, Desk.look?, hn, Option.getD_none]
      have hact : x.act (.hands k) = _ := congrArg (Option.getD · x) (hand?_of_entering hn hk)
      have henqueue : x.client.channel.enqueue (.request a.request) = x.client.channel.refuse :=
        if_pos hfinished.writer
      rw [henqueue, Option.getD_some] at hact
      have hhanded := h.act (.hands k)
      rw [hact] at hhanded
      obtain ⟨o, ho, hcomes⟩ := hhanded.last_proceeds ⟨hfinished.writer, hfinished.reader, hfinished.receiving,
        hfinished.hand⟩ (Table.get?_insert_self _ _ _) rfl now
      refine ⟨o, ?_, ?_⟩
      · simp only [Desk.run, List.foldl_cons, hlook, hact]
        exact ho
      · rcases hcomes with rfl | hslot | ⟨t, e, ht, he, rfl⟩
        · exact .inl rfl
        · exact .inr (.inl hslot)
        · obtain rfl := Progress.sending.inj ht
          have hrefused : x.client.channel.refuse.2.outcome? x.client.channel.refuse.1 = _ :=
            (Channel.outcome?_settle _ _ _ _).trans (if_pos rfl)
          have hclosed := Except.error.inj (Option.some.inj (hrefused.symm.trans he))
          exact .inl (by rw [hclosed])
  · obtain rfl := Option.some.inj (hk.symm.trans hb)
    obtain ⟨hlook, hhand⟩ := act_of_not_entering (h.not_entering hk hopen)
    obtain ⟨o, ho, hcomes⟩ := h.last_proceeds hfinished hk hopen now
    refine ⟨o, ?_, hcomes⟩
    simp only [Desk.run, List.foldl_cons, hlook, hhand] at ho ⊢
    exact ho

/-! ## Nobody is forgotten -/

/-- What is true of the calls at every moment. -/
structure LeavesNobody (x : Desk) : Prop where
  /-- Whoever is on the list is the call with this id, and it has begun and not come to an end. -/
  listed : ∀ id k, x.client.pending.get? id = some k → x.Busy k ∧ ∃ a, x.client.call? k = some a ∧ a.request.id = id
  empty : (∀ k, ¬ x.Busy k) → x.client.pending.size = 0
  /-- A call is over with what it was given, or with a failure of its own. -/
  earned : ∀ k a o, x.client.call? k = some a → a.progress = .over o →
    a.Unanswered WriteFailure o ∨ a.slot = .filled o
  /-- When the channel has closed and nothing moves any more, no call is left, as long as the stream does
  not hold the writer up. -/
  rests : x.client.channel.closed = true → ∀ now, x.Still now →
    (∀ t left, x.client.channel.writer ≠ .writing t left) →
      x.Finished ∧ (∀ k, ¬ x.Busy k) ∧ x.client.pending.size = 0
  /-- Once the writer has stopped and the list is cleared, a call that is left does not wait for the clock. -/
  ends : x.Finished → ∀ k a, x.client.call? k = some a → x.Busy k → ∀ now, ∃ o,
    (x.run [.looks k, .hands k, .proceeds k now, .proceeds k now]).progress? k = some (.over o) ∧
      a.ComesTo x.client.channel o
  /-- A call that begins after the channel has closed learns this with its first look, whenever this is. -/
  refuses : x.client.channel.closed = true → ∀ k r n, x.Fresh k r → ∀ acts, .abandons k ∉ acts →
    (((x.act (.registers k r n)).run acts).act (.looks k)).progress? k = some (.over (.error .connectionClosed))

theorem Inv.size_of_not_busy (h : x.Inv) (hnone : ∀ k, ¬ x.Busy k) : x.client.pending.size = 0 := by
  have hempty : x.client.pending = .empty := by
    refine Table.eq_empty fun id => ?_
    by_contra hsome
    obtain ⟨k, hk⟩ := Option.ne_none_iff_exists'.mp hsome
    exact hnone k (h.own id k hk).1
  rw [hempty]
  rfl

theorem nobody_is_left_waiting (limit : Nat) {capacity : Nat} (hcapacity : 0 < capacity) (shards : Shards)
    (acts : List DeskAct) : ((start limit capacity shards).run acts).LeavesNobody := by
  have h := (inv_start limit hcapacity shards).run acts
  generalize (start limit capacity shards).run acts = x at h
  refine ⟨h.own, h.size_of_not_busy, h.earned, fun hclosed now hstill hwriter => ?_,
    fun hfinished k a hk hbusy now => h.last_steps hfinished hk hbusy now, fun hclosed k r n hfresh acts hacts => ?_⟩
  · have hfinished := h.finished_of_still hclosed hstill hwriter
    have hnone := h.not_busy_of_still hfinished hstill
    exact ⟨hfinished, hnone, h.size_of_not_busy hnone⟩
  · exact ((late_register hclosed hfresh n).run hacts).look.2

/-- One call waits for its reply when the channel closes, and another one has looked once. -/
theorem nobody_is_left_waiting_closing :
    let request (id : UInt64) : Request := ⟨id, ⟨"127.0.0.1", 1⟩, "s", []⟩
    let x := (start 64 1 ⟨2, fun _ => 1⟩).run [.registers 0 (request 5) 1000, .looks 0, .looks 0, .hands 0,
      .channel .takes, .channel (.writes 64), .channel .flushes, .proceeds 0 0, .registers 1 (request 6) 1000,
      .looks 1, .channel .closes, .channel .stopsReading, .channel .stopsWriting, .receives, .receives, .receives,
      .receives, .receives, .receives, .receives, .receives, .receives]
    0 < 1 ∧ x.Finished ∧ x.Busy 0 ∧ x.Busy 1 ∧ x.LeavesNobody := by
  refine ⟨by decide, ⟨by decide, by decide, by decide, by decide⟩, .inr ⟨_, rfl, rfl⟩, .inl (by decide), ?_⟩
  exact nobody_is_left_waiting 64 (by decide) _ _

end Desk

end ClusterNet.Messaging
