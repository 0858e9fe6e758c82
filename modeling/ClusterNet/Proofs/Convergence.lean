import ClusterNet.Proofs.Swarms
import Mathlib.Data.List.Infix

/-!
# Members agree on who serves what

An announcement looks up the version first and the topics after that, shard by shard, so each
topic in it is as it was at some moment since the version was. Who has heard the last thing that
a member had to say knows what it serves now.
-/

namespace ClusterNet.PubSub

open ClusterNet.Membership Messaging Json

namespace Swarm

variable {w : Swarm} {i m : MemberId} {s s' : Site} {b : SwarmAct} {k : Nat}

/-! ## Announcements in the making -/

theorem Goes.shards (hgoes : Goes w m s b s') :
    s'.topicShards = s.topicShards ∧ s'.recordShards = s.recordShards := by
  cases hgoes with
  | steps k =>
    rcases s.step_cases k with ⟨op, rest, hk⟩ | heq
    · rw [Site.step_eq hk]
      exact ⟨rfl, rfl⟩
    · rw [heq]
      exact ⟨rfl, rfl⟩
  | stays | begins | regroups | hears => exact ⟨rfl, rfl⟩

theorem Goes.late (hgoes : Goes w m s b s') {ops : List Op} {x : Op} (hk : s'.threads[k]? = some ops)
    (hx : x ∈ ops) (hlate : x.isLate = true) : (∃ ops, s.threads[k]? = some ops ∧ x ∈ ops) ∨
      ∃ op rest, b = .steps m k ∧ s.threads[k]? = some (op :: rest) ∧ s.Leads op x := by
  have hnew {new : List Op} (hnew : ∀ y ∈ new, y.isLate = false) (hk : (s.threads ++ [new])[k]? = some ops) :
      ∃ ops, s.threads[k]? = some ops ∧ x ∈ ops := by
    rw [List.getElem?_append] at hk
    split at hk
    · exact ⟨ops, hk, hx⟩
    · obtain rfl := List.mem_singleton.mp (List.mem_of_getElem? hk)
      rw [hnew x hx] at hlate
      cases hlate
  cases hgoes with
  | stays => exact .inl ⟨ops, hk, hx⟩
  | begins c => exact .inl (hnew (fun _ hy => Site.late_ops hy) hk)
  | steps j =>
    rcases Site.threads_step hk with hk | ⟨op, rest, rfl, hop, rfl⟩
    · exact .inl ⟨ops, hk, hx⟩
    · rcases List.mem_append.mp hx with hx | hx
      · exact .inr ⟨op, rest, rfl, hop, Site.leads hx hlate⟩
      · exact .inl ⟨_, hop, List.mem_cons_of_mem op hx⟩
  | regroups g own =>
    refine .inl (hnew ?_ hk)
    intro y hy
    obtain ⟨d, -, rfl⟩ := List.mem_map.mp hy
    rfl
  | hears => exact .inl ⟨ops, hk, hx⟩

/-- It is so of a topic just if it was served at some moment of a window. -/
def Seen (w : Swarm) (m : MemberId) (before window : List SwarmAct) (t : String) (p : Prop) : Prop :=
  ∃ part rest s, window = part ++ rest ∧ w.At (before ++ part) m s ∧
    (p ↔ t ∈ s.host.current.topics.names.items)

theorem Seen.concat {before window : List SwarmAct} {t : String} {p : Prop}
    (h : w.Seen m before window t p) (b : SwarmAct) : w.Seen m before (window ++ [b]) t p := by
  obtain ⟨part, rest, s, rfl, hs, hp⟩ := h
  exact ⟨part, rest ++ [b], s, List.append_assoc _ _ _, hs, hp⟩

/-- A walk over the topics. The version was looked up when the window began. -/
structure Reading (w : Swarm) (m : MemberId) (before window : List SwarmAct) (s₀ : Site) (sh : Shards String)
    (v : UInt64) (left : List Nat) (found : List String) : Prop where
  first : w.At before m s₀
  dated : s₀.host.current.version = v
  nodup : left.Nodup
  todo : ∀ t, sh.of t ∈ left → t ∉ found
  done : ∀ t, sh.of t ∉ left → w.Seen m before window t (t ∈ found)

theorem Reading.concat {before window : List SwarmAct} {s₀ : Site} {sh : Shards String} {v : UInt64}
    {left : List Nat} {found : List String} (h : w.Reading m before window s₀ sh v left found) (b : SwarmAct) :
    w.Reading m before (window ++ [b]) s₀ sh v left found :=
  ⟨h.first, h.dated, h.nodup, h.todo, fun t ht => (h.done t ht).concat b⟩

theorem reading_dates {acts : List SwarmAct} (hs : w.At acts m s) (b : SwarmAct) :
    w.Reading m acts [b] s s.topicShards s.host.current.version (List.range s.topicShards.count) [] where
  first := hs
  dated := rfl
  nodup := List.nodup_range
  todo _ _ := List.not_mem_nil
  done t ht := absurd (List.mem_range.mpr (s.topicShards.lt t)) ht

theorem Reading.next {before window : List SwarmAct} {s₀ : Site} {v : UInt64} {n : Nat}
    {left : List Nat} {found : List String}
    (h : w.Reading m before window s₀ s.topicShards v (n :: left) found) (hs : w.At (before ++ window) m s)
    (b : SwarmAct) :
    w.Reading m before (window ++ [b]) s₀ s.topicShards v left (found ++ s.topicsIn n) := by
  obtain ⟨hn, hleft⟩ := List.nodup_cons.mp h.nodup
  refine ⟨h.first, h.dated, hleft, ?_, ?_⟩
  · intro t ht hfound
    rcases List.mem_append.mp hfound with hfound | hfound
    · exact h.todo t (List.mem_cons_of_mem n ht) hfound
    · obtain ⟨rfl, -⟩ := Site.mem_topicsIn.mp hfound
      exact hn ht
  · intro t ht
    by_cases hshard : s.topicShards.of t = n
    · refine ⟨window, [b], s, rfl, hs, ?_⟩
      rw [List.mem_append, Site.mem_topicsIn]
      constructor
      · rintro (hfound | ⟨-, hnames⟩)
        · exact absurd hfound (h.todo t (hshard ▸ List.mem_cons_self))
        · exact hnames
      · exact fun hnames => .inr ⟨hshard, hnames⟩
    · have hnot : s.topicShards.of t ∉ n :: left := by
        rw [List.mem_cons, not_or]
        exact ⟨hshard, ht⟩
      obtain ⟨part, rest, s₁, hwindow, hs₁, hiff⟩ := (h.done t hnot).concat b
      refine ⟨part, rest, s₁, hwindow, hs₁, ?_⟩
      rw [List.mem_append, Site.mem_topicsIn, ← hiff]
      constructor
      · rintro (hfound | ⟨heq, -⟩)
        · exact hfound
        · exact absurd heq hshard
      · exact .inl

theorem Fresh.reading (hw : w.Fresh) {acts : List SwarmAct} {ops : List Op} {targets : List Address}
    {v : UInt64} {left : List Nat} {found : List String} (hs : w.At acts m s) (hk : s.threads[k]? = some ops)
    (hx : .reads targets v left found ∈ ops) : ∃ before window s₀, acts = before ++ window ∧
      w.Reading m before window s₀ s.topicShards v left found := by
  induction acts using List.reverseRecOn generalizing s ops left found with
  | nil =>
    rw [hw.threads m s hs] at hk
    cases hk
  | append_singleton acts b ih =>
    obtain ⟨s₁, hs₁, hgoes⟩ := at_concat hs
    rw [hgoes.shards.1]
    rcases hgoes.late hk hx rfl with ⟨ops, hk, hx⟩ | ⟨op, rest, rfl, hk, hleads⟩
    · obtain ⟨before, window, s₀, rfl, hreading⟩ := ih hs₁ hk hx
      exact ⟨before, window ++ [b], s₀, List.append_assoc _ _ _, hreading.concat b⟩
    · cases hleads with
      | dates => exact ⟨acts, [.steps m k], s₁, rfl, reading_dates hs₁ _⟩
      | reads _ _ n _ before' =>
        obtain ⟨before, window, s₀, rfl, hreading⟩ := ih hs₁ hk List.mem_cons_self
        exact ⟨before, window ++ [.steps m k], s₀, List.append_assoc _ _ _, hreading.next hs₁ _⟩

/-- An announcement was built in a window of a run: its version is that of the beginning, and each
topic is in it just if it was served at some moment since. -/
structure Built (w : Swarm) (m : MemberId) (before window : List SwarmAct) (s₀ s₁ : Site) (v : UInt64)
    (topics : TextSet) : Prop where
  first : w.At before m s₀
  last : w.At (before ++ window) m s₁
  dated : s₀.host.current.version = v
  each : ∀ t, w.Seen m before window t (t ∈ topics.items)

/-- An announcement was built in some window of a run. -/
def Announced (w : Swarm) (acts : List SwarmAct) (m : MemberId) (v : UInt64) (topics : TextSet) : Prop :=
  ∃ before window after s₀ s₁, acts = before ++ window ++ after ∧ w.Built m before window s₀ s₁ v topics

theorem Announced.append {acts : List SwarmAct} {v : UInt64} {topics : TextSet}
    (h : w.Announced acts m v topics) (more : List SwarmAct) : w.Announced (acts ++ more) m v topics := by
  obtain ⟨before, window, after, s₀, s₁, rfl, hbuilt⟩ := h
  exact ⟨before, window, after ++ more, s₀, s₁, List.append_assoc _ _ _, hbuilt⟩

theorem Reading.built {before window : List SwarmAct} {s₀ : Site} {sh : Shards String} {v : UInt64}
    {found : List String} (h : w.Reading m before window s₀ sh v [] found)
    (hs : w.At (before ++ window) m s) : w.Built m before window s₀ s v (.ofList found) := by
  refine ⟨h.first, hs, h.dated, ?_⟩
  intro t
  obtain ⟨part, rest, s₁, hwindow, hs₁, hiff⟩ := h.done t List.not_mem_nil
  exact ⟨part, rest, s₁, hwindow, hs₁, TextSet.mem_ofList.trans hiff⟩

theorem Fresh.announced (hw : w.Fresh) {acts : List SwarmAct} {l : Sent} (hl : l ∈ (w.run acts).sent) :
    ∃ v topics, w.Announced acts l.sender v topics ∧ l.mail.subject = announcementSubject ∧
      l.mail.payload = Form.bytes (⟨l.sender, v, topics⟩ : Announcement) := by
  induction acts using List.reverseRecOn with
  | nil =>
    change l ∈ w.sent at hl
    rw [hw.sent] at hl
    cases hl
  | append_singleton acts b ih =>
    obtain ⟨new, hnew, hjust⟩ := sent_act (w.run acts) b
    rw [run_concat, hnew] at hl
    rcases List.mem_append.mp hl with hl | hl
    · obtain ⟨v, topics, hann, hboth⟩ := ih hl
      exact ⟨v, topics, hann.append [b], hboth⟩
    · obtain ⟨_, v, found, s, rest, hs, hk, -, hboth⟩ :=
        payload_of_justSent (hjust l hl) fun s hs => (hw.sound hs).localId
      obtain ⟨before, window, s₀, rfl, hreading⟩ := hw.reading hs hk List.mem_cons_self
      exact ⟨v, .ofList found, ⟨before, window, [b], s₀, s, rfl, hreading.built hs⟩, hboth⟩

/-! ## Records -/

theorem Fresh.copied (hw : w.Fresh) {acts : List SwarmAct} {r : Record} (hs : w.At acts i s)
    (hr : s.host.current.records.get? m = some r) : m ≠ i ∧ w.Announced acts m r.version r.topics := by
  induction acts using List.reverseRecOn generalizing s with
  | nil =>
    rw [hw.records i s hs] at hr
    cases hr
  | append_singleton acts b ih =>
    obtain ⟨s₁, hs₁, hgoes⟩ := at_concat hs
    have hbefore (hr₁ : s₁.host.current.records.get? m = some r) :
        m ≠ i ∧ w.Announced (acts ++ [b]) m r.version r.topics :=
      ⟨(ih hs₁ hr₁).1, (ih hs₁ hr₁).2.append [b]⟩
    cases hgoes with
    | stays | begins | regroups => exact hbefore hr
    | steps k =>
      rcases s₁.step_cases k with ⟨op, rest, hk⟩ | heq
      · rw [Site.step_eq hk] at hr
        exact hbefore ((Site.forgets_apply s₁.host op).source m r hr)
      · rw [heq] at hr
        exact hbefore hr
    | hears n id sender l hl =>
      obtain ⟨v, topics, hann, -, hpayload⟩ := hw.announced hl
      rcases Host.records_receive (h := s₁.host) (r := ⟨id, sender, l.mail.subject, l.mail.payload⟩) hpayload
        with heq | heq
      · rw [Site.hear, heq] at hr
        exact hbefore hr
      · rw [Site.hear, heq, Service.hear, (hw.sound hs₁).localId] at hr
        split at hr
        · exact hbefore hr
        · rename_i hne
          rcases Service.adopt_source hr with hr | ⟨rfl, rfl⟩
          · exact hbefore hr
          · exact ⟨hne, hann.append _⟩

/-- A host hears that a member has gone. -/
def Removes (w : Swarm) (i m : MemberId) (b : SwarmAct) : Prop :=
  ∃ k s op rest, b = .steps i k ∧ w.sites.get? i = some s ∧ s.threads[k]? = some (op :: rest) ∧
    op.Removes s.host m

/-- A host does not hear that a member has gone. -/
def Keeps (w : Swarm) (i m : MemberId) : List SwarmAct → Prop
  | [] => True
  | b :: acts => ¬ w.Removes i m b ∧ (w.act b).Keeps i m acts

theorem keeps_append {acts more : List SwarmAct} :
    w.Keeps i m (acts ++ more) ↔ w.Keeps i m acts ∧ (w.run acts).Keeps i m more := by
  induction acts generalizing w with
  | nil => exact (iff_of_eq (true_and _)).symm
  | cons b acts ih =>
    rw [List.cons_append, Keeps, Keeps, ih, and_assoc]
    rfl

theorem Fresh.records_goes (hw : w.Fresh) {acts : List SwarmAct} (hs : w.At acts i s)
    (hgoes : Goes (w.run acts) i s b s') (hb : ¬ (w.run acts).Removes i m b) {r : Record}
    (hr : s.host.current.records.get? m = some r) :
    ∃ r', s'.host.current.records.get? m = some r' ∧ r.version ≤ r'.version := by
  cases hgoes with
  | stays | begins | regroups => exact ⟨r, hr, UInt64.le_refl _⟩
  | steps k =>
    rcases s.step_cases k with ⟨op, rest, hk⟩ | heq
    · refine ⟨r, ?_, UInt64.le_refl _⟩
      rw [Site.step_eq hk]
      exact ((Site.forgets_apply s.host op).kept m fun hop => hb ⟨k, s, op, rest, rfl, hs, hk, hop⟩).trans hr
    · rw [heq]
      exact ⟨r, hr, UInt64.le_refl _⟩
  | hears n id sender l hl =>
    obtain ⟨v, topics, -, -, hpayload⟩ := hw.announced hl
    rcases Host.records_receive (h := s.host) (r := ⟨id, sender, l.mail.subject, l.mail.payload⟩) hpayload
      with heq | heq
    · rw [Site.hear, heq]
      exact ⟨r, hr, UInt64.le_refl _⟩
    · rw [Site.hear, heq, Service.hear]
      split
      · exact ⟨r, hr, UInt64.le_refl _⟩
      · exact Service.adopt_grows _ hr

/-- A record is never replaced by an earlier one, and is lost only with its member. -/
theorem Fresh.records_grow (hw : w.Fresh) (acts more : List SwarmAct) {r : Record} (hs : w.At acts i s)
    (hr : s.host.current.records.get? m = some r) (hmore : (w.run acts).Keeps i m more)
    (hs' : w.At (acts ++ more) i s') :
    ∃ r', s'.host.current.records.get? m = some r' ∧ r.version ≤ r'.version := by
  induction more using List.reverseRecOn generalizing s' with
  | nil =>
    rw [List.append_nil] at hs'
    obtain rfl := hs.eq hs'
    exact ⟨r, hr, UInt64.le_refl _⟩
  | append_singleton more b ih =>
    rw [← List.append_assoc] at hs'
    obtain ⟨s₁, hs₁, hgoes⟩ := at_concat hs'
    rw [keeps_append, ← run_append] at hmore
    obtain ⟨r₁, hr₁, hle⟩ := ih hmore.1 hs₁
    obtain ⟨r₂, hr₂, hle'⟩ := hw.records_goes hs₁ hgoes hmore.2.1 hr₁
    exact ⟨r₂, hr₂, UInt64.le_trans hle hle'⟩

/-- A record was built by its member. Where no change was under way and none came while it was
built, it says exactly what the member served at the version of the record. -/
structure Copied (w : Swarm) (acts : List SwarmAct) (m : MemberId) (r : Record) : Prop where
  built : ∃ before window after s₀ s₁, acts = before ++ window ++ after ∧
    w.Built m before window s₀ s₁ r.version r.topics ∧
    (s₀.debt = 0 → s₁.changes = s₀.changes → ∀ before' after' s, acts = before' ++ after' →
      w.At before' m s → s.host.current.version = r.version → s.debt = 0 →
      s.host.current.topics.names = r.topics)
  bounded : ∃ s, w.At acts m s ∧ r.version ≤ s.host.current.version

/-- What was built while there was no change is what is served whenever there were as many. -/
theorem Built.names_eq {acts before window after before' after' : List SwarmAct} {s₀ s₁ : Site} {v : UInt64}
    {topics : TextSet} (h : w.Built m before window s₀ s₁ v topics) (hw : w.Fresh) (hlast : w.Lasting acts)
    (hacts : acts = before ++ window ++ after) (hacts' : acts = before' ++ after')
    (hcalm : s₁.changes = s₀.changes) (hs : w.At before' m s) (hchanges : s.changes = s₀.changes) :
    s.host.current.topics.names = topics := by
  apply TextSet.ext
  refine s.host.current.topics.names.increasing.eq_of_mem_iff topics.increasing fun t => ?_
  obtain ⟨part, rest, s₂, rfl, hs₂, hiff⟩ := h.each t
  have hfirst : acts = before ++ part ++ (rest ++ after) := by
    rw [hacts, List.append_assoc, List.append_assoc, List.append_assoc]
  have hsecond : acts = before ++ part ++ rest ++ after := by
    rw [hfirst, List.append_assoc _ rest after]
  have hlow := (hw.aged hlast hfirst h.first hs₂).changes
  have hlast₁ : w.At (before ++ part ++ rest) m s₁ := by
    rw [List.append_assoc]
    exact h.last
  have hhigh := (hw.aged hlast hsecond hs₂ hlast₁).changes
  rw [hw.names_eq hlast hfirst hacts' hs₂ hs (by omega), hiff]

theorem changes_eq_of_debt (h : s.debt = 0) : s.changes = s.host.current.version.toNat := by
  rw [Site.changes, h, Nat.add_zero]

theorem Fresh.exact (hw : w.Fresh) {acts : List SwarmAct} (hlast : w.Lasting acts) {r : Record}
    (hs : w.At acts i s) (hr : s.host.current.records.get? m = some r) : w.Copied acts m r := by
  obtain ⟨before, window, after, s₀, s₁, hacts, hbuilt⟩ := (hw.copied hs hr).2
  refine ⟨⟨before, window, after, s₀, s₁, hacts, hbuilt, ?_⟩, ?_⟩
  · intro hdebt hcalm before' after' s' hacts' hs' hversion hdebt'
    refine hbuilt.names_eq hw hlast hacts hacts' hcalm hs' ?_
    rw [changes_eq_of_debt hdebt, changes_eq_of_debt hdebt', hversion, hbuilt.dated]
  · obtain ⟨s', hs'⟩ := hbuilt.first.exists_later (window ++ after)
    have hsplit : acts = before ++ (window ++ after) ++ [] := by
      rw [hacts, List.append_nil, List.append_assoc]
    have hgrows := (hw.aged hlast hsplit hbuilt.first hs').grows
    rw [hsplit, List.append_nil]
    refine ⟨s', hs', ?_⟩
    rw [UInt64.le_iff_toNat_le, ← hbuilt.dated]
    exact hgrows

/-! ## Convergence -/

/-- A thread is not in the middle of an announcement. -/
def Idle (s : Site) (k : Nat) : Prop :=
  ∀ ops targets v left found, s.threads[k]? = some ops → .reads targets v left found ∉ ops

/-- An announcement that a thread begins after some moment has no earlier version. -/
theorem Fresh.since_reading (hw : w.Fresh) {acts before more after : List SwarmAct} (hlast : w.Lasting acts)
    (hacts : acts = before ++ more ++ after) {s₀ : Site} (hs₀ : w.At before m s₀) (hidle : Idle s₀ k)
    {ops : List Op} {targets : List Address} {v : UInt64} {left : List Nat} {found : List String}
    (hs : w.At (before ++ more) m s) (hk : s.threads[k]? = some ops)
    (hx : .reads targets v left found ∈ ops) : s₀.host.current.version ≤ v := by
  induction more using List.reverseRecOn generalizing after s ops left found with
  | nil =>
    rw [List.append_nil] at hs
    obtain rfl := hs₀.eq hs
    exact absurd hx (hidle ops targets v left found hk)
  | append_singleton more b ih =>
    have hacts' : acts = before ++ more ++ ([b] ++ after) := by
      simp only [hacts, List.append_assoc]
    rw [← List.append_assoc] at hs
    obtain ⟨s₁, hs₁, hgoes⟩ := at_concat hs
    rcases hgoes.late hk hx rfl with ⟨ops, hk, hx⟩ | ⟨op, rest, rfl, hk, hleads⟩
    · exact ih hacts' hs₁ hk hx
    · cases hleads with
      | dates =>
        rw [UInt64.le_iff_toNat_le]
        exact (hw.aged hlast hacts' hs₀ hs₁).grows
      | reads => exact ih hacts' hs₁ hk List.mem_cons_self

theorem Fresh.since_sent (hw : w.Fresh) {acts before more after : List SwarmAct} (hlast : w.Lasting acts)
    (hacts : acts = before ++ more ++ after) {s₀ : Site} (hs₀ : w.At before m s₀) (hidle : Idle s₀ k)
    {n : Nat} {o : Outgoing} (hnew : (w.run before).sent.length ≤ n)
    (hn : (w.run (before ++ more)).sent[n]? = some ⟨m, k, o⟩) :
    ∃ v topics, s₀.host.current.version ≤ v ∧ o.subject = announcementSubject ∧
      o.payload = Form.bytes (⟨m, v, topics⟩ : Announcement) := by
  induction more using List.reverseRecOn generalizing after with
  | nil =>
    rw [List.append_nil] at hn
    obtain ⟨hlt, -⟩ := List.getElem?_eq_some_iff.mp hn
    omega
  | append_singleton more b ih =>
    have hacts' : acts = before ++ more ++ ([b] ++ after) := by
      simp only [hacts, List.append_assoc]
    obtain ⟨new, hsent, hjust⟩ := sent_act (w.run (before ++ more)) b
    rw [← List.append_assoc, run_concat, hsent, List.getElem?_append] at hn
    split at hn
    · exact ih hacts' hn
    · obtain ⟨targets, v, found, s, rest, hs, hk, -, hsubject, hpayload⟩ :=
        payload_of_justSent (hjust _ (List.mem_of_getElem? hn)) fun s hs => (hw.sound hs).localId
      exact ⟨v, .ofList found, hw.since_reading hlast hacts' hs₀ hidle hs hk List.mem_cons_self, hsubject,
        hpayload⟩

/-- A host has taken in an announcement that a member began to build after its last change, and has
not been told since that the member has gone. -/
inductive UpToDate (w : Swarm) (acts : List SwarmAct) (i m : MemberId) (sm : Site) : Prop where
  | mk (before built after : List SwarmAct) (k n : Nat) (id : UInt64) (sender : Address) (o : Outgoing)
      (s₀ si : Site)
      (run : acts = before ++ built ++ .delivers i n id sender :: after)
      (first : w.At before m s₀)
      (last : s₀.host.current.version = sm.host.current.version)
      (idle : Idle s₀ k)
      (new : (w.run before).sent.length ≤ n)
      (said : (w.run (before ++ built)).sent[n]? = some ⟨m, k, o⟩)
      (host : w.At (before ++ built) i si)
      (hears : si.host.Hears)
      (stays : (w.run (before ++ built ++ [.delivers i n id sender])).Keeps i m after) :
      UpToDate w acts i m sm

theorem at_delivers {acts : List SwarmAct} {n : Nat} {l : Sent} (id : UInt64) (sender : Address)
    (hs : w.At acts i s) (hn : (w.run acts).sent[n]? = some l) :
    w.At (acts ++ [.delivers i n id sender]) i (s.hear ⟨id, sender, l.mail.subject, l.mail.payload⟩) := by
  rw [At, run_concat, act, hn]
  dsimp only
  rw [Table.get?_modify, if_pos rfl, show (w.run acts).sites.get? i = some s from hs, Option.map_some]

theorem UpToDate.record {acts : List SwarmAct} {sm : Site} (hw : w.Fresh) (hlast : w.Lasting acts)
    (hne : m ≠ i) (hup : w.UpToDate acts i m sm) (hs : w.At acts i s) :
    ∃ r, s.host.current.records.get? m = some r ∧ sm.host.current.version ≤ r.version := by
  cases hup with
  | mk before built after k n id sender o s₀ si hrun hfirst hversion hidle hnew hsaid hhost hhears hstays =>
    obtain ⟨v, topics, hle, hsubject, hpayload⟩ :=
      hw.since_sent hlast hrun hfirst hidle hnew hsaid
    have hheard := at_delivers id sender hhost hsaid
    have hrecords : (si.hear ⟨id, sender, o.subject, o.payload⟩).host.current.records =
        (si.host.current.adopt ⟨m, v, topics⟩).records := by
      rw [Site.hear, Host.records_receive_of_hears hhears hsubject hpayload, Service.hear, if_neg]
      rw [(hw.sound hhost).localId]
      exact hne
    obtain ⟨r, hr, hver⟩ := Service.adopt_covers si.host.current ⟨m, v, topics⟩
    rw [← hrecords] at hr
    rw [hrun, List.append_cons] at hs
    obtain ⟨r', hr', hle'⟩ := hw.records_grow _ after hheard hr hstays hs
    refine ⟨r', hr', ?_⟩
    rw [← hversion]
    exact UInt64.le_trans hle (UInt64.le_trans hver hle')

theorem UpToDate.topics_eq {acts : List SwarmAct} {sm : Site} (hw : w.Fresh) (hlast : w.Lasting acts)
    (hne : m ≠ i) (hup : w.UpToDate acts i m sm) (hs : w.At acts i s) (hm : w.At acts m sm)
    (hdebt : sm.debt = 0) : ∃ r, s.host.current.records.get? m = some r ∧
      sm.host.current.topics.names = r.topics := by
  obtain ⟨r, hr, hle⟩ := hup.record hw hlast hne hs
  refine ⟨r, hr, ?_⟩
  have hcopied := hw.exact hlast hs hr
  obtain ⟨sm', hm', hbound⟩ := hcopied.bounded
  obtain rfl := hm.eq hm'
  obtain ⟨before, window, after, s₀, s₁, hacts, hbuilt, -⟩ := hcopied.built
  have hversion : s₀.host.current.version = sm.host.current.version :=
    hbuilt.dated.trans (UInt64.le_antisymm hbound hle)
  -- There has been no version since the one of the record, so there has been no change either.
  have hfirst : acts = before ++ (window ++ after) ++ [] := by
    rw [hacts, List.append_nil, List.append_assoc]
  have hsecond : acts = before ++ window ++ after ++ [] := by
    rw [hacts, List.append_nil]
  have hmend : w.At (before ++ (window ++ after)) m sm := by
    rw [← List.append_assoc, ← hacts]
    exact hm
  have hmend' : w.At (before ++ window ++ after) m sm := by
    rw [← hacts]
    exact hm
  have hall := (hw.aged hlast hfirst hbuilt.first hmend).changes
  have hwindow := (hw.aged hlast hacts hbuilt.first hbuilt.last).changes
  have hafter := (hw.aged hlast hsecond hbuilt.last hmend').changes
  have hend := changes_eq_of_debt hdebt
  have hstart : sm.host.current.version.toNat ≤ s₀.changes := by
    rw [← hversion, Site.changes]
    exact Nat.le_add_right _ _
  exact hbuilt.names_eq hw hlast hacts (List.append_nil acts).symm (by omega) hm (by omega)

theorem UpToDate.subscribers {acts : List SwarmAct} {sm : Site} (hw : w.Fresh) (hlast : w.Lasting acts)
    (hne : m ≠ i) (hup : w.UpToDate acts i m sm) (hs : w.At acts i s) (hm : w.At acts m sm)
    (hdebt : sm.debt = 0) (hactive : s.host.view.isActive m = true) (t : String) :
    m ∈ s.host.current.subscribers s.host.view t ↔ sm.host.current.topics.all t ≠ [] := by
  obtain ⟨r, hr, hnames⟩ := hup.topics_eq hw hlast hne hs hm hdebt
  have hlocal := (hw.sound hs).localId
  rw [Service.mem_subscribers_of_ne (hw.sound hs).distinct (by rwa [hlocal]),
    ← (hw.sound hm).occupied.contains_iff, ← Topics.mem_names, hnames]
  constructor
  · rintro ⟨r', hr', htopic, -⟩
    obtain rfl := Option.some.inj (hr.symm.trans hr')
    exact TextSet.contains_iff.mp htopic
  · intro htopic
    exact ⟨r, hr, TextSet.contains_iff.mpr htopic, hactive⟩

theorem Lasting.of_append {acts more : List SwarmAct} (h : w.Lasting (acts ++ more)) : w.Lasting acts := by
  intro m s hs
  have hboth := h m s hs
  rw [callsOf_append] at hboth
  omega

theorem UpToDate.append {acts more : List SwarmAct} {sm : Site} (hup : w.UpToDate acts i m sm)
    (hmore : (w.run acts).Keeps i m more) (hversion : s.host.current.version = sm.host.current.version) :
    w.UpToDate (acts ++ more) i m s := by
  cases hup with
  | mk before built after k n id sender o s₀ si hrun hfirst hlast hidle hnew hsaid hhost hhears hstays =>
    refine .mk before built (after ++ more) k n id sender o s₀ si ?_ hfirst (hlast.trans hversion.symm) hidle
      hnew hsaid hhost hhears ?_
    · rw [hrun, List.append_assoc, List.cons_append]
    · rw [keeps_append, ← run_append, List.append_assoc _ _ after, List.singleton_append, ← hrun]
      exact ⟨hstays, hmore⟩

/-- Who is up to date about a member stays so while the member makes no change and does not go. -/
theorem UpToDate.lists {before part rest : List SwarmAct} {sm : Site} (hw : w.Fresh)
    (hlast : w.Lasting (before ++ (part ++ rest))) (hne : m ≠ i) (hup : w.UpToDate before i m sm)
    (hm : w.At (before ++ (part ++ rest)) m sm) (hdebt : sm.debt = 0)
    (hkeeps : (w.run before).Keeps i m (part ++ rest)) (hs : w.At (before ++ part) i s)
    (hactive : s.host.view.isActive m = true) (t : String) :
    s.Lists t m (sm.host.current.topics.all t ≠ []) := by
  have hsound := hw.sound hs
  refine ⟨hsound.distinct, by rwa [hsound.localId], ?_, hactive⟩
  have hsplit : before ++ (part ++ rest) = before ++ part ++ rest := (List.append_assoc _ _ _).symm
  obtain ⟨sp, hp⟩ : ∃ sp, w.At (before ++ part) m sp := by
    rw [hsplit] at hm
    exact hm.exists_earlier
  -- From the beginning of what was heard up to now there is one version, so there is one set of topics.
  have hchanges : sp.host.current.version = sm.host.current.version ∧ sp.debt = 0 := by
    cases hup with
    | mk start built after k n id sender o s₀ si hrun hfirst hversion hidle hnew hsaid hhost hhears hstays =>
      let middle := built ++ .delivers i n id sender :: after ++ part
      have hmid : before ++ part = start ++ middle := by
        simp only [hrun, middle, List.append_assoc]
      have hall : before ++ (part ++ rest) = start ++ middle ++ rest := by
        rw [hsplit, hmid]
      have hp' := hp
      rw [hmid] at hp'
      have hm' := hm
      rw [hall] at hm'
      have hend : before ++ (part ++ rest) = start ++ middle ++ rest ++ [] := by
        rw [hall, List.append_nil]
      have hlow := hw.aged hlast hall hfirst hp'
      have hhigh := hw.aged hlast hend hp' hm'
      have hgrows := hlow.grows
      have hgrows' := hhigh.grows
      have hmost := hhigh.changes
      rw [changes_eq_of_debt hdebt, Site.changes] at hmost
      rw [hversion] at hgrows
      exact ⟨UInt64.toNat_inj.mp (by omega), by omega⟩
  obtain ⟨r, hr, hnames⟩ := (hup.append (keeps_append.mp hkeeps).1 hchanges.1).topics_eq hw
    (Lasting.of_append (hsplit ▸ hlast)) hne hs hp hchanges.2
  have hsame : sm.host.current.topics.names = sp.host.current.topics.names := by
    refine hw.names_eq hlast hsplit (List.append_nil _).symm hp hm ?_
    rw [changes_eq_of_debt hdebt, changes_eq_of_debt hchanges.2, hchanges.1]
  rw [← (hw.sound hm).occupied.contains_iff, ← Topics.mem_names, hsame, hnames]
  constructor
  · rintro ⟨r', hr', htopic⟩
    obtain rfl := Option.some.inj (hr.symm.trans hr')
    exact TextSet.contains_iff.mp htopic
  · intro htopic
    exact ⟨r, hr, TextSet.contains_iff.mpr htopic⟩

/-- A thread of a host was asked for the subscribers of a topic after some moment, and has answered.
Meanwhile the host has not heard that some member had gone, and the member has looked alive to it. -/
inductive Asked (w : Swarm) (before window : List SwarmAct) (i m : MemberId) (t : String) (ids : List MemberId) :
    Prop where
  | mk (j : Nat) (s₀ s : Site) (ops : List Op)
      (first : w.At before i s₀)
      (idle : ∀ ops, s₀.threads[j]? = some ops → ∀ x ∈ ops, ¬ x.Seeks t)
      (last : w.At (before ++ window) i s)
      (thread : s.threads[j]? = some ops)
      (answer : .answers t ids ∈ ops)
      (stays : (w.run before).Keeps i m window)
      (active : ∀ part rest s, window = part ++ rest → w.At (before ++ part) i s →
        s.host.view.isActive m = true) : Asked w before window i m t ids

theorem sees_run {before window : List SwarmAct} {s₀ : Site} {t : String} {p : Prop} {j : Nat} {ops : List Op}
    {x : Op} (hs₀ : w.At before i s₀)
    (hidle : ∀ ops, s₀.threads[j]? = some ops → ∀ x ∈ ops, ¬ x.Seeks t)
    (hlists : ∀ part rest s, window = part ++ rest → w.At (before ++ part) i s → s.Lists t m p)
    (hs : w.At (before ++ window) i s) (hk : s.threads[j]? = some ops) (hx : x ∈ ops) (hseeks : x.Seeks t) :
    Site.Sees s.recordShards t m p x := by
  induction window using List.reverseRecOn generalizing s ops x with
  | nil =>
    rw [List.append_nil] at hs
    obtain rfl := hs₀.eq hs
    exact absurd hseeks (hidle ops hk x hx)
  | append_singleton window b ih =>
    have hbefore : ∀ part rest s, window = part ++ rest → w.At (before ++ part) i s → s.Lists t m p := by
      intro part rest s hwindow
      exact hlists part (rest ++ [b]) s (by rw [hwindow, List.append_assoc])
    rw [← List.append_assoc] at hs
    obtain ⟨s₁, hs₁, hgoes⟩ := at_concat hs
    rw [hgoes.shards.2]
    rcases hgoes.late hk hx hseeks.isLate with ⟨ops, hk, hx⟩ | ⟨op, rest, rfl, hk, hleads⟩
    · exact ih hbefore hs₁ hk hx hseeks
    · have hlist := hlists window [_] s₁ rfl hs₁
      exact hlist.sees hleads hseeks fun hop => ih hbefore hs₁ hk List.mem_cons_self hop

theorem Asked.mem_iff {before window : List SwarmAct} {sm : Site} {t : String} {ids : List MemberId}
    (hasked : w.Asked before window i m t ids) (hw : w.Fresh) (hlast : w.Lasting (before ++ window)) (hne : m ≠ i)
    (hup : w.UpToDate before i m sm) (hm : w.At (before ++ window) m sm) (hdebt : sm.debt = 0) :
    m ∈ ids ↔ sm.host.current.topics.all t ≠ [] := by
  cases hasked with
  | mk j s₀ s ops hfirst hidle hend hthread hanswer hstays hactive =>
    have hsees := sees_run hfirst hidle (p := sm.host.current.topics.all t ≠ [])
      (fun part rest s' hwindow hs' => by
        subst hwindow
        exact hup.lists hw hlast hne hm hdebt hstays hs' (hactive part rest s' rfl hs') t)
      hend hthread hanswer rfl
    cases hsees with
    | answers _ hids => exact hids

/-- A host in a group with another one. -/
def station (name other : String) : Site where
  host := .ofRoster default
    (Roster.ofLocal (Member.bare ⟨name⟩ default) (.ofNodes [⟨⟨other⟩, default⟩])).start.2 0 0
  topicShards := ⟨2, fun t => if t = "t" then 0 else 1, fun t => by split <;> omega⟩
  recordShards := ⟨1, fun _ => 0, fun _ => Nat.one_pos⟩
  threads := []

/-- A thread goes on some times. -/
def goesOn (i : MemberId) (k n : Nat) : List SwarmAct := List.replicate n (.steps i k)

def starting : List SwarmAct :=
  .begins ⟨"a"⟩ (.starts 0) :: goesOn ⟨"a"⟩ 0 10 ++ .begins ⟨"b"⟩ (.starts 0) :: goesOn ⟨"b"⟩ 0 10

def subscribing (topic : String) : SwarmAct :=
  .begins ⟨"a"⟩ (.subscribes topic ⟨"x", fun b => ⟨some "", 0, .returned b⟩⟩)

/-- A member has subscribed. -/
def subscribed : List SwarmAct := starting ++ subscribing "t" :: goesOn ⟨"a"⟩ 1 3

/-- It tells another one. -/
def told : List SwarmAct := subscribed ++ goesOn ⟨"a"⟩ 1 6 ++ [.delivers ⟨"b"⟩ 2 0 default]

/-- That one is asked who serves the topic. -/
def asking : List SwarmAct := .begins ⟨"b"⟩ (.asks "t") :: goesOn ⟨"b"⟩ 1 4

theorem At.of_map {A : Type} {f : Site → A} {a : A} {acts : List SwarmAct} (hs : w.At acts i s)
    (h : ((w.run acts).sites.get? i).map f = some a) : f s = a := by
  rw [show (w.run acts).sites.get? i = some s from hs] at h
  exact Option.some.inj h

/-- No thread walks over a map, or has done so. -/
def early (s : Site) : Bool := s.threads.all fun ops => ops.all fun op => !op.isLate

end Swarm

end ClusterNet.PubSub
