import ClusterNet.Proofs.Announcements
import ClusterNet.PubSub.Threads

/-!
# What a thread does to the subscriptions of its host

A change of the subscriptions is followed by a change of the version, and in between the version
is owed. Versions and what is owed grow together with every change, and while they do not grow
the topics stay as they are. A thread that goes on alone does what the call does in one go.
-/

namespace ClusterNet.PubSub

open ClusterNet.Membership Messaging Json

/-! ## Sums over threads -/

section

variable {f : Op → Nat} {threads : List (List Op)} {k : Nat} {op : Op} {rest : List Op}

/-- A sum over all that is still to be done. -/
def tally (f : Op → Nat) (threads : List (List Op)) : Nat :=
  (threads.map fun ops => (ops.map f).sum).sum

theorem tally_set (hk : threads[k]? = some (op :: rest)) (next : List Op) :
    tally f (threads.set k (next ++ rest)) + f op = tally f threads + (next.map f).sum := by
  induction threads generalizing k with
  | nil => cases hk
  | cons ops threads ih =>
    unfold tally at ih ⊢
    cases k with
    | zero =>
      rw [List.getElem?_cons_zero] at hk
      obtain rfl := Option.some.inj hk
      simp only [List.set_cons_zero, List.map_cons, List.sum_cons, List.map_append, List.sum_append]
      omega
    | succ k =>
      rw [List.getElem?_cons_succ] at hk
      have := ih hk
      simp only [List.set_cons_succ, List.map_cons, List.sum_cons]
      omega

theorem tally_concat (f : Op → Nat) (threads : List (List Op)) (ops : List Op) :
    tally f (threads ++ [ops]) = tally f threads + (ops.map f).sum := by
  simp [tally]

end

namespace Op

/-- Whether a new version is owed. -/
def owed : Op → Nat
  | .bumps => 1
  | _ => 0

/-- How many versions it can come to. -/
def cost : Op → Nat
  | .numbers _ _ => 1
  | .enlists _ _ => 1
  | .delists _ _ => 1
  | .bumps => 1
  | _ => 0

/-- Whether it is a walk over a map, or has the result of one. -/
def isLate : Op → Bool
  | .reads _ _ _ _ => true
  | .finds _ _ _ _ => true
  | .answers _ _ => true
  | _ => false

/-- It looks for the subscribers of a topic. -/
def Seeks (t : String) : Op → Prop
  | .finds u _ _ _ => u = t
  | .answers u _ => u = t
  | _ => False

theorem Seeks.isLate {t : String} {op : Op} (h : op.Seeks t) : op.isLate = true := by
  cases op with
  | finds | answers => rfl
  | wakes | hearkens | attaches | schedules | numbers | enlists | delists | bumps | gathers | addresses
  | dates | reads | heeds | asks => cases h

/-- The event service hears that a member has gone. -/
def Removes (h : Host) (m : MemberId) : Op → Prop
  | .heeds d => d.listener = h.current.key ∧ ∃ x : Member, d.news = .member .removed x ∧ x.id = m
  | _ => False

end Op

/-- How many versions a call can come to. -/
def Call.cost (c : Call) : Nat := (c.ops.map Op.cost).sum

theorem Call.owed (c : Call) : (c.ops.map Op.owed).sum = 0 := by
  cases c with
  | starts | subscribes | closes | repeats | asks => rfl

theorem sum_heeds {f : Op → Nat} (hf : ∀ d, f (.heeds d) = 0) (ds : List (Delivery ServiceKey)) :
    ((ds.map Op.heeds).map f).sum = 0 := by
  induction ds with
  | nil => rfl
  | cons d ds ih =>
    rw [List.map_cons, List.map_cons, List.sum_cons, hf, ih]

namespace Site

variable {s s' s'' : Site} {k : Nat} {op : Op} {rest : List Op} {m : MemberId}

theorem step_eq (hk : s.threads[k]? = some (op :: rest)) :
    s.step k = (s.put k (op.apply s.host) (s.next op ++ rest), s.mail op) := by
  rw [step, hk]

theorem step_cases (s : Site) (k : Nat) :
    (∃ op rest, s.threads[k]? = some (op :: rest)) ∨ s.step k = (s, []) := by
  unfold step
  cases hk : s.threads[k]? with
  | none => exact .inr rfl
  | some ops =>
    cases ops with
    | nil => exact .inr rfl
    | cons op rest => exact .inl ⟨op, rest, rfl⟩

/-- How often a new version is owed. -/
def debt (s : Site) : Nat := tally Op.owed s.threads

/-- How many changes there were, from some number on. -/
def changes (s : Site) : Nat := s.host.current.version.toNat + s.debt

/-- The version that there will be at most when all threads are through. -/
def budget (s : Site) : Nat := s.host.current.version.toNat + tally Op.cost s.threads

/-! ## Operations -/

/-- What an operation comes to for the subscriptions and their version. -/
inductive Turns (s : Site) : Op → Prop where
  | changes (op : Op) (version : (op.apply s.host).current.version = s.host.current.version)
      (next : s.next op = [.bumps]) (owed : op.owed = 0) (cost : op.cost = 1) : Turns s op
  | bumps : Turns s .bumps
  | passes (op : Op) (version : (op.apply s.host).current.version = s.host.current.version)
      (names : (op.apply s.host).current.topics.names = s.host.current.topics.names)
      (owed : op.owed = 0) (none : ((s.next op).map Op.owed).sum = 0)
      (cost : ((s.next op).map Op.cost).sum ≤ op.cost) : Turns s op

theorem turns_delists (hocc : s.host.current.topics.Occupied) (topic : String) (id : SubscriptionId) :
    Turns s (.delists topic id) := by
  have hfound : (s.host.current.delist topic id s.host.routes).1 =
      (s.host.current.topics.remove topic id).1 := rfl
  cases hany : (s.host.current.topics.remove topic id).1 with
  | true =>
    refine .changes _ rfl ?_ rfl rfl
    rw [next, hfound, hany]
    rfl
  | false =>
    have hnext : s.next (.delists topic id) = [] := by
      rw [next, hfound, hany]
      rfl
    refine .passes _ rfl ?_ rfl ?_ ?_
    · rw [Topics.fst_remove] at hany
      exact congrArg TextSet.ofList (Topics.keys_remove hocc hany)
    · rw [hnext]
      rfl
    · rw [hnext]
      exact Nat.zero_le _

theorem turns (hocc : s.host.current.topics.Occupied) (op : Op) : Turns s op := by
  have hif (p : Prop) [Decidable p] (x : Op) (ho : x.owed = 0) (hc : x.cost = 0) :
      ((if p then [x] else []).map Op.owed).sum = 0 ∧ ((if p then [x] else []).map Op.cost).sum = 0 := by
    split
    · simp [ho, hc]
    · simp
  cases op with
  | enlists topic x => exact .changes _ rfl rfl rfl rfl
  | delists topic id => exact turns_delists hocc topic id
  | bumps => exact .bumps
  | heeds d =>
    have hframe := Host.frame_notice s.host d
    have hnext : ((s.host.greet d).map Op.owed).sum = 0 ∧ ((s.host.greet d).map Op.cost).sum = 0 := by
      unfold Host.greet
      split
      · exact hif _ (.addresses _) rfl rfl
      · exact ⟨rfl, rfl⟩
    exact .passes _ hframe.version hframe.names rfl hnext.1 (Nat.le_of_eq hnext.2)
  | wakes now =>
    by_cases hrunning : s.host.current.running = true
    · exact .passes _ rfl rfl rfl (by simp [next, hrunning]) (by simp [next, hrunning])
    · exact .passes _ rfl rfl rfl (by simp [next, hrunning, Op.owed]) (by simp [next, hrunning, Op.cost])
  | addresses targets =>
    have hnext := hif (s.host.current.running && !targets.isEmpty) (.dates targets) rfl rfl
    exact .passes _ rfl rfl rfl hnext.1 (Nat.le_of_eq hnext.2)
  | reads targets version left found =>
    cases left with
    | nil | cons => exact .passes _ rfl rfl rfl rfl (Nat.le_refl _)
  | finds topic left candidates found =>
    cases left with
    | nil | cons =>
      cases candidates with
      | nil | cons => exact .passes _ rfl rfl rfl rfl (Nat.le_refl _)
  | hearkens | attaches | schedules | numbers | gathers | dates | asks | answers =>
    exact .passes _ rfl rfl rfl rfl (Nat.le_refl _)

/-! ## Ageing -/

/-- The version grows with the changes, and while there are no changes the topics stay. -/
structure Aged (n : Nat) (s s' : Site) : Prop where
  grows : s.host.current.version.toNat ≤ s'.host.current.version.toNat
  changes : s.changes ≤ s'.changes
  same : s'.changes = s.changes → s'.host.current.topics.names = s.host.current.topics.names
  budget : s'.budget ≤ s.budget + n

theorem Aged.refl (s : Site) : Aged 0 s s :=
  ⟨Nat.le_refl _, Nat.le_refl _, fun _ => rfl, Nat.le_refl _⟩

theorem Aged.trans {n k : Nat} (a : Aged n s s') (b : Aged k s' s'') : Aged (n + k) s s'' where
  grows := Nat.le_trans a.grows b.grows
  changes := Nat.le_trans a.changes b.changes
  same heq := by
    have hlow := a.changes
    have hhigh := b.changes
    rw [b.same (by omega), a.same (by omega)]
  budget := by
    have := a.budget
    have := b.budget
    omega

theorem Aged.weaken {n : Nat} (a : Aged 0 s s') : Aged n s s' :=
  ⟨a.grows, a.changes, a.same, Nat.le_trans a.budget (Nat.le_add_right _ n)⟩

theorem aged_step (hocc : s.host.current.topics.Occupied) (hlt : s.budget < 2 ^ 64) (k : Nat) :
    Aged 0 s (s.step k).1 := by
  rcases s.step_cases k with ⟨op, rest, hk⟩ | heq
  · have howed := tally_set (f := Op.owed) hk (s.next op)
    have hcost := tally_set (f := Op.cost) hk (s.next op)
    unfold budget at hlt
    rw [step_eq hk, put]
    cases turns hocc op with
    | changes _ version next owed cost =>
      have hone : ([Op.bumps].map Op.owed).sum = 1 := rfl
      have hmost : ([Op.bumps].map Op.cost).sum = 1 := rfl
      rw [next, owed, hone] at howed
      rw [next, cost, hmost] at hcost
      refine ⟨?_, ?_, ?_, ?_⟩
      · rw [version]
      · simp only [Site.changes, debt, version, next]
        omega
      · intro heq
        simp only [Site.changes, debt, version, next] at heq
        omega
      · simp only [budget, version, next]
        omega
    | bumps =>
      have howed' : tally Op.owed (s.threads.set k (s.next .bumps ++ rest)) + 1 = tally Op.owed s.threads := howed
      have hcost' : tally Op.cost (s.threads.set k (s.next .bumps ++ rest)) + 1 = tally Op.cost s.threads := hcost
      have hsucc : (s.host.current.version + 1).toNat = s.host.current.version.toNat + 1 := by
        rw [UInt64.toNat_add]
        apply Nat.mod_eq_of_lt
        change s.host.current.version.toNat + 1 < 2 ^ 64
        omega
      have hversion : (Op.bumps.apply s.host).current.version.toNat = s.host.current.version.toNat + 1 := hsucc
      refine ⟨?_, ?_, fun _ => rfl, ?_⟩
      · rw [hversion]
        exact Nat.le_succ _
      · simp only [Site.changes, debt, hversion]
        omega
      · simp only [budget, hversion]
        omega
    | passes _ version names owed none cost =>
      simp only [owed, none] at howed
      refine ⟨?_, ?_, fun _ => names, ?_⟩
      · rw [version]
      · simp only [Site.changes, debt, version]
        omega
      · simp only [budget, version]
        omega
  · rw [heq]
    exact Aged.refl s

theorem aged_begin (s : Site) (c : Call) : Aged c.cost s (s.begin c) := by
  refine ⟨Nat.le_refl _, ?_, fun _ => rfl, ?_⟩
  · simp only [Site.changes, debt, begin, tally_concat]
    omega
  · simp only [budget, begin, tally_concat, Call.cost]
    omega

theorem aged_regroup (s : Site) (g : Roster ServiceKey) : Aged 0 s (s.regroup g) := by
  refine ⟨Nat.le_refl _, ?_, fun _ => rfl, ?_⟩
  · simp only [Site.changes, debt, regroup, tally_concat]
    omega
  · simp only [budget, regroup, tally_concat, sum_heeds (f := Op.cost) fun _ => rfl]
    omega

theorem aged_hear (s : Site) (r : Wire.Request) : Aged 0 s (s.hear r) := by
  have hframe := Host.frame_receive s.host r
  refine ⟨?_, ?_, fun _ => hframe.names, ?_⟩
  · simp only [hear, hframe.version, Nat.le_refl]
  · simp only [Site.changes, debt, hear, hframe.version, Nat.le_refl]
  · simp only [budget, hear, hframe.version, Nat.le_add_right]

/-! ## What stays -/

theorem occupied_apply {h : Host} (hocc : h.current.topics.Occupied) (op : Op) :
    (op.apply h).current.topics.Occupied := by
  cases op with
  | enlists topic x => exact hocc.add topic x
  | delists topic id => exact hocc.remove topic id
  | heeds d => exact hocc.congr (Host.frame_notice h d).all (Host.frame_notice h d).topics
  | wakes | hearkens | attaches | schedules | numbers | bumps | gathers | addresses | dates | reads
  | asks | finds | answers => exact hocc

theorem localId_apply (h : Host) (op : Op) : (op.apply h).view.localId = h.view.localId := by
  cases op with
  | heeds d => exact Host.localId_notice h d
  | wakes | hearkens | attaches | schedules | numbers | enlists | delists | bumps | gathers | addresses
  | dates | reads | asks | finds | answers => rfl

theorem forgets_apply (h : Host) (op : Op) : Host.Forgets (op.Removes h) h (op.apply h) := by
  cases op with
  | heeds d =>
    by_cases hkey : d.listener = h.current.key
    · have hforgets := Host.forgets_notice h d
      exact ⟨hforgets.source, fun m hm => hforgets.kept m fun hx => hm ⟨hkey, hx⟩, hforgets.distinct⟩
    · apply Host.forgets_of_eq
      rw [Op.apply, Host.notice, if_neg hkey]
  | wakes | hearkens | attaches | schedules | numbers | enlists | delists | bumps | gathers | addresses
  | dates | reads | asks | finds | answers => exact Host.forgets_of_eq rfl

/-! ## What comes next -/

/-- Walks over a map and their results come only after other operations. -/
inductive Leads (s : Site) : Op → Op → Prop where
  | dates (targets : List Address) : Leads s (.dates targets)
      (.reads targets s.host.current.version (List.range s.topicShards.count) [])
  | reads (targets : List Address) (v : UInt64) (n : Nat) (left : List Nat) (found : List String) :
      Leads s (.reads targets v (n :: left) found) (.reads targets v left (found ++ s.topicsIn n))
  | asks (topic : String) : Leads s (.asks topic) (.finds topic (List.range s.recordShards.count) []
      (if s.host.current.topics.contains topic then [s.host.view.localId] else []))
  | tries (topic : String) (left : List Nat) (id : MemberId) (candidates found : List MemberId) :
      Leads s (.finds topic left (id :: candidates) found)
        (.finds topic left candidates (if s.host.view.isActive id then found ++ [id] else found))
  | finds (topic : String) (n : Nat) (left : List Nat) (found : List MemberId) :
      Leads s (.finds topic (n :: left) [] found) (.finds topic left (s.membersIn topic n) found)
  | ends (topic : String) (found : List MemberId) : Leads s (.finds topic [] [] found)
      (.answers topic ((TextSet.ofList (found.map (·.text))).items.map .mk))
  | answers (topic : String) (ids : List MemberId) : Leads s (.answers topic ids) (.answers topic ids)

theorem leads {x : Op} (hx : x ∈ s.next op) (hlate : x.isLate = true) : s.Leads op x := by
  have hearly {p : Prop} [Decidable p] {y : Op} {ops : List Op} (hy : ∀ x ∈ ops, x.isLate = false)
      (hx : x ∈ if p then ops else []) : s.Leads y x := by
    split at hx
    · rw [hy x hx] at hlate
      cases hlate
    · cases hx
  cases op with
  | dates targets =>
    obtain rfl := List.mem_singleton.mp hx
    exact .dates targets
  | reads targets v left found =>
    cases left with
    | nil => cases hx
    | cons n left =>
      obtain rfl := List.mem_singleton.mp hx
      exact .reads targets v n left found
  | asks topic =>
    obtain rfl := List.mem_singleton.mp hx
    exact .asks topic
  | finds topic left candidates found =>
    cases candidates with
    | cons id candidates =>
      cases left with
      | nil | cons =>
        obtain rfl := List.mem_singleton.mp hx
        exact .tries topic _ id candidates found
    | nil =>
      cases left with
      | nil =>
        obtain rfl := List.mem_singleton.mp hx
        exact .ends topic found
      | cons n left =>
        obtain rfl := List.mem_singleton.mp hx
        exact .finds topic n left found
  | answers topic ids =>
    obtain rfl := List.mem_singleton.mp hx
    exact .answers topic ids
  | wakes now =>
    rw [next] at hx
    split at hx
    · cases hx
    · rw [show x.isLate = false by simp at hx; rcases hx with rfl | rfl | rfl | rfl <;> rfl] at hlate
      cases hlate
  | delists topic id => exact hearly (by simp [Op.isLate]) hx
  | addresses targets => exact hearly (by simp [Op.isLate]) hx
  | heeds d =>
    change x ∈ s.host.greet d at hx
    unfold Host.greet at hx
    split at hx
    · exact hearly (by simp [Op.isLate]) hx
    · cases hx
  | hearkens | attaches | schedules => cases hx
  | numbers | enlists | bumps | gathers =>
    obtain rfl := List.mem_singleton.mp hx
    cases hlate

theorem late_ops {c : Call} {x : Op} (hx : x ∈ c.ops) : x.isLate = false := by
  cases c with
  | starts | subscribes | closes | repeats | asks =>
    obtain rfl := List.mem_singleton.mp hx
    rfl

theorem threads_step {j : Nat} {ops : List Op} (hk : (s.step j).1.threads[k]? = some ops) :
    s.threads[k]? = some ops ∨
      ∃ op rest, j = k ∧ s.threads[k]? = some (op :: rest) ∧ ops = s.next op ++ rest := by
  rcases s.step_cases j with ⟨op, rest, hj⟩ | heq
  · rw [step_eq hj, put] at hk
    dsimp only at hk
    by_cases hjk : j = k
    · subst hjk
      obtain ⟨hlt, -⟩ := List.getElem?_eq_some_iff.mp hj
      rw [List.getElem?_set_self hlt] at hk
      exact .inr ⟨op, rest, rfl, hj, (Option.some.inj hk).symm⟩
    · rw [List.getElem?_set_ne hjk] at hk
      exact .inl hk
  · rw [heq] at hk
    exact .inl hk

theorem mem_mail {o : Outgoing} (ho : o ∈ s.mail op) : ∃ targets v found, op = .reads targets v [] found ∧
    o.subject = announcementSubject ∧
    o.payload = Form.bytes (⟨s.host.view.localId, v, .ofList found⟩ : Announcement) := by
  unfold mail at ho
  split at ho
  · rename_i targets v found
    obtain ⟨a, -, rfl⟩ := List.mem_map.mp ho
    refine ⟨targets, v, found, rfl, ?_, ?_⟩
    · rfl
    · dsimp only
  · cases ho

theorem mem_topicsIn {t : String} {n : Nat} :
    t ∈ s.topicsIn n ↔ s.topicShards.of t = n ∧ t ∈ s.host.current.topics.names.items := by
  rw [topicsIn, List.mem_filter, beq_iff_eq, Topics.mem_names, Table.contains_iff_mem_keys, and_comm]

theorem mem_membersIn {topic : String} {n : Nat} (hs : s.host.current.records.Distinct) :
    m ∈ s.membersIn topic n ↔ s.recordShards.of m = n ∧
      ∃ r, s.host.current.records.get? m = some r ∧ r.topics.contains topic = true := by
  rw [membersIn, List.mem_map]
  constructor
  · rintro ⟨e, he, rfl⟩
    obtain ⟨hentry, hboth⟩ := List.mem_filter.mp he
    rw [Bool.and_eq_true, beq_iff_eq] at hboth
    exact ⟨hboth.1, e.2, Table.lookup_of_mem hs hentry, hboth.2⟩
  · rintro ⟨hshard, r, hr, htopic⟩
    refine ⟨(m, r), List.mem_filter.mpr ⟨Table.mem_of_lookup hr, ?_⟩, rfl⟩
    rw [Bool.and_eq_true, beq_iff_eq]
    exact ⟨hshard, htopic⟩

/-! ## Looking for subscribers -/

/-- A member looks alive, and is known to serve a topic just if something holds. -/
structure Lists (s : Site) (t : String) (m : MemberId) (p : Prop) : Prop where
  distinct : s.host.current.records.Distinct
  other : m ≠ s.host.view.localId
  record : (∃ r, s.host.current.records.get? m = some r ∧ r.topics.contains t = true) ↔ p
  active : s.host.view.isActive m = true

/-- As far as a walk over the records has come, it finds a member just if something holds. -/
inductive Sees (sh : Shards MemberId) (t : String) (m : MemberId) (p : Prop) : Op → Prop where
  | finds (left : List Nat) (candidates found : List MemberId) (nodup : left.Nodup)
      (todo : sh.of m ∈ left → m ∉ candidates ∧ m ∉ found)
      (done : sh.of m ∉ left → ((m ∈ candidates ∨ m ∈ found) ↔ p)) :
      Sees sh t m p (.finds t left candidates found)
  | answers (ids : List MemberId) (iff : m ∈ ids ↔ p) : Sees sh t m p (.answers t ids)

section

variable {t : String} {p : Prop}

theorem Lists.sees_asks (h : s.Lists t m p) : Sees s.recordShards t m p (.finds t (List.range s.recordShards.count) []
    (if s.host.current.topics.contains t then [s.host.view.localId] else [])) := by
  refine .finds _ _ _ List.nodup_range ?_ ?_
  · intro _
    refine ⟨List.not_mem_nil, ?_⟩
    split
    · rw [List.mem_singleton]
      exact h.other
    · exact List.not_mem_nil
  · intro hnot
    exact absurd (List.mem_range.mpr (s.recordShards.lt m)) hnot

theorem Lists.sees_tries (h : s.Lists t m p) {left : List Nat} {id : MemberId} {candidates found : List MemberId}
    (hop : Sees s.recordShards t m p (.finds t left (id :: candidates) found)) : Sees s.recordShards t m p
      (.finds t left candidates (if s.host.view.isActive id then found ++ [id] else found)) := by
  obtain ⟨_, _, _, nodup, todo, done⟩ := hop
  have hid : (m ∈ candidates ∨ m ∈ (if s.host.view.isActive id then found ++ [id] else found)) ↔
      m ∈ id :: candidates ∨ m ∈ found := by
    by_cases hm : m = id
    · subst hm
      simp [h.active]
    · split
      · simp [hm]
      · simp [hm]
  refine .finds _ _ _ nodup ?_ ?_
  · intro hin
    have hboth := not_or.mpr (todo hin)
    rw [← hid, not_or] at hboth
    exact hboth
  · intro hnot
    rw [hid]
    exact done hnot

/-- A shard is read when no candidates are left. It is the one that decides if the member belongs there. -/
theorem Lists.sees_finds (h : s.Lists t m p) {n : Nat} {left : List Nat} {found : List MemberId}
    (hop : Sees s.recordShards t m p (.finds t (n :: left) [] found)) :
    Sees s.recordShards t m p (.finds t left (s.membersIn t n) found) := by
  obtain ⟨_, _, _, nodup, todo, done⟩ := hop
  obtain ⟨hn, hleft⟩ := List.nodup_cons.mp nodup
  have hmem : m ∈ s.membersIn t n ↔ s.recordShards.of m = n ∧ p := by
    rw [mem_membersIn h.distinct, h.record]
  refine .finds _ _ _ hleft ?_ ?_
  · intro hin
    refine ⟨?_, (todo (List.mem_cons_of_mem n hin)).2⟩
    intro hm
    rw [(hmem.mp hm).1] at hin
    exact hn hin
  · intro hnot
    rw [hmem]
    by_cases hshard : s.recordShards.of m = n
    · have hnone := (todo (hshard ▸ List.mem_cons_self)).2
      simp [hshard, hnone]
    · have hdone := done (by rw [List.mem_cons, not_or]; exact ⟨hshard, hnot⟩)
      simpa [hshard] using hdone

theorem Sees.ends {sh : Shards MemberId} {found : List MemberId} (hop : Sees sh t m p (.finds t [] [] found)) :
    Sees sh t m p (.answers t ((TextSet.ofList (found.map (·.text))).items.map .mk)) := by
  obtain ⟨_, _, _, -, -, done⟩ := hop
  refine .answers _ ?_
  rw [Service.mem_ids]
  simpa using done List.not_mem_nil

theorem Lists.sees {x : Op} (h : s.Lists t m p) (hleads : s.Leads op x) (hx : x.Seeks t)
    (hop : op.Seeks t → Sees s.recordShards t m p op) : Sees s.recordShards t m p x := by
  cases hleads with
  | dates | reads => cases hx
  | asks u =>
    obtain rfl : u = t := hx
    exact h.sees_asks
  | tries u left id candidates found =>
    obtain rfl : u = t := hx
    exact h.sees_tries (hop rfl)
  | finds u n left found =>
    obtain rfl : u = t := hx
    exact h.sees_finds (hop rfl)
  | ends u found =>
    obtain rfl : u = t := hx
    exact (hop rfl).ends
  | answers u ids => exact hop hx

end

/-! ## Alone -/

/-- A thread goes on for a while, and no other one does. -/
inductive Alone (k : Nat) : Site → Site → List Outgoing → Prop where
  | rests (s : Site) : Alone k s s []
  | steps {s s' : Site} {mail : List Outgoing} (more : Alone k (s.step k).1 s' mail) :
      Alone k s s' ((s.step k).2 ++ mail)

theorem Alone.trans {mail more : List Outgoing} (a : Alone k s s' mail) (b : Alone k s' s'' more) :
    Alone k s s'' (mail ++ more) := by
  induction a with
  | rests s => exact b
  | steps _ ih =>
    rw [List.append_assoc]
    exact .steps (ih b)

variable {mail : List Outgoing} {h : Host} {ops : List Op}

theorem put_put (s : Site) (k : Nat) (h h' : Host) (ops ops' : List Op) :
    (s.put k h ops).put k h' ops' = s.put k h' ops' := by
  simp only [put, List.set_set]

theorem threads_put (hk : s.threads[k]? = some ops) (h : Host) (new : List Op) :
    (s.put k h new).threads[k]? = some new := by
  obtain ⟨hlt, -⟩ := List.getElem?_eq_some_iff.mp hk
  exact List.getElem?_set_self hlt

theorem Alone.cons (hk : s.threads[k]? = some (op :: rest))
    (more : Alone k (s.put k (op.apply s.host) (s.next op ++ rest)) s' mail) :
    Alone k s s' (s.mail op ++ mail) := by
  have heq := step_eq hk
  have hsteps : Alone k s s' ((s.step k).2 ++ mail) := .steps (by rwa [heq])
  rwa [heq] at hsteps

theorem alone_reads (targets : List Address) (v : UInt64) (left : List Nat) (found : List String)
    (hk : s.threads[k]? = some (.reads targets v left found :: rest)) :
    Alone k s (s.put k s.host rest) (targets.map fun a => ⟨a, announcementSubject,
      Form.bytes (⟨s.host.view.localId, v, .ofList (found ++ left.flatMap s.topicsIn)⟩ : Announcement)⟩) := by
  induction left generalizing s found with
  | nil =>
    have hlast := Alone.cons hk (.rests _)
    rw [List.append_nil] at hlast
    rw [List.flatMap_nil, List.append_nil]
    exact hlast
  | cons n left ih =>
    have hmore := ih (found ++ s.topicsIn n) (threads_put hk s.host _)
    rw [put_put, List.append_assoc] at hmore
    rw [List.flatMap_cons]
    exact Alone.cons hk hmore

theorem ofList_topicsIn (s : Site) :
    TextSet.ofList ((List.range s.topicShards.count).flatMap s.topicsIn) = s.host.current.topics.names := by
  apply TextSet.ofList_congr
  intro t
  rw [List.mem_flatMap, ← Table.contains_iff_mem_keys, ← Topics.mem_names]
  constructor
  · rintro ⟨n, -, ht⟩
    exact (mem_topicsIn.mp ht).2
  · intro ht
    exact ⟨s.topicShards.of t, List.mem_range.mpr (s.topicShards.lt t), mem_topicsIn.mpr ⟨rfl, ht⟩⟩

theorem alone_dates (targets : List Address) (hk : s.threads[k]? = some (.dates targets :: rest)) :
    Alone k s (s.put k s.host rest) (targets.map fun a => ⟨a, announcementSubject,
      Form.bytes (s.host.current.announcement s.host.view.localId)⟩) := by
  have hmore := alone_reads targets s.host.current.version (List.range s.topicShards.count) []
    (threads_put hk s.host (.reads targets _ _ [] :: rest))
  rw [put_put] at hmore
  have hall := Alone.cons hk hmore
  rw [Service.announcement, ← ofList_topicsIn]
  exact hall

theorem alone_addresses (targets : List Address) (hk : s.threads[k]? = some (.addresses targets :: rest)) :
    Alone k s (s.put k s.host rest) (s.host.current.announceTo s.host.view.localId targets) := by
  by_cases hgo : (s.host.current.running && !targets.isEmpty) = true
  · have hnext : s.next (.addresses targets) = [.dates targets] := if_pos hgo
    have hmore := alone_dates targets (threads_put hk s.host (.dates targets :: rest))
    rw [put_put] at hmore
    rw [Bool.and_eq_true] at hgo
    rw [Service.announceTo, if_pos hgo.1]
    exact Alone.cons hk (by rw [hnext]; exact hmore)
  · have hnext : s.next (.addresses targets) = [] := if_neg hgo
    have hnone : s.host.current.announceTo s.host.view.localId targets = [] := by
      unfold Service.announceTo
      split
      · rename_i hrunning
        have hempty : targets = [] := by simpa [hrunning] using hgo
        rw [hempty, List.map_nil]
      · rfl
    rw [hnone]
    exact Alone.cons hk (by rw [hnext]; exact .rests _)

theorem alone_gathers (hk : s.threads[k]? = some (.gathers :: rest)) :
    Alone k s (s.put k s.host rest) (s.host.current.announceAll s.host.view) := by
  have hmore := alone_addresses s.host.view.others (threads_put hk s.host (.addresses _ :: rest))
  rw [put_put] at hmore
  exact Alone.cons hk hmore

theorem alone_bumps (hk : s.threads[k]? = some (.bumps :: rest)) :
    Alone k s (s.put k { s.host with current := (s.host.current.changed s.host.view).1 } rest)
      (s.host.current.changed s.host.view).2 := by
  have hmore := alone_gathers (threads_put hk (Op.bumps.apply s.host) (.gathers :: rest))
  rw [put_put] at hmore
  exact Alone.cons hk hmore

theorem alone_tries (topic : String) (left : List Nat) (candidates found : List MemberId)
    (hk : s.threads[k]? = some (.finds topic left candidates found :: rest)) :
    Alone k s (s.put k s.host
      (.finds topic left [] (found ++ candidates.filter s.host.view.isActive) :: rest)) [] := by
  induction candidates generalizing s found with
  | nil =>
    have hsame : s.put k s.host (.finds topic left [] found :: rest) = s := by
      obtain ⟨hlt, heq⟩ := List.getElem?_eq_some_iff.mp hk
      rw [put, ← heq, List.set_getElem_self hlt]
    rw [List.filter_nil, List.append_nil, hsame]
    exact .rests s
  | cons id candidates ih =>
    have hnext : s.next (.finds topic left (id :: candidates) found) = [.finds topic left candidates
        (found ++ if s.host.view.isActive id then [id] else [])] := by
      cases left with
      | nil | cons =>
        rw [next]
        split
        · rfl
        · rw [List.append_nil]
    have hmore := ih (found ++ if s.host.view.isActive id then [id] else []) (threads_put hk s.host _)
    rw [put_put, List.append_assoc] at hmore
    have hfilter : (id :: candidates).filter s.host.view.isActive =
        (if s.host.view.isActive id then [id] else []) ++ candidates.filter s.host.view.isActive := by
      rw [List.filter_cons]
      split
      · rfl
      · rfl
    rw [hfilter]
    exact Alone.cons hk (by rw [hnext]; exact hmore)

theorem alone_finds (topic : String) (left : List Nat) (found : List MemberId)
    (hk : s.threads[k]? = some (.finds topic left [] found :: rest)) :
    Alone k s (s.put k s.host (.answers topic ((TextSet.ofList ((found ++
      (left.flatMap (s.membersIn topic)).filter s.host.view.isActive).map (·.text))).items.map .mk) :: rest)) [] := by
  induction left generalizing s found with
  | nil =>
    have hlast := Alone.cons hk (.rests _)
    rw [List.flatMap_nil, List.filter_nil, List.append_nil]
    exact hlast
  | cons n left ih =>
    have htries := alone_tries topic left (s.membersIn topic n) found
      (threads_put hk s.host (.finds topic left _ found :: rest))
    rw [put_put] at htries
    have hmore := ih (found ++ (s.membersIn topic n).filter s.host.view.isActive)
      (threads_put hk s.host (.finds topic left [] _ :: rest))
    rw [put_put, List.append_assoc] at hmore
    rw [List.flatMap_cons, List.filter_append]
    exact Alone.cons hk (htries.trans hmore)

theorem mem_walk (topic : String) (m : MemberId) (hs : s.host.current.records.Distinct) :
    m ∈ s.host.current.subscribers s.host.view topic ↔
      m ∈ (if s.host.current.topics.contains topic then [s.host.view.localId] else []) ++
        ((List.range s.recordShards.count).flatMap (s.membersIn topic)).filter s.host.view.isActive := by
  rw [Service.mem_subscribers hs, List.mem_append, Service.mem_own, List.mem_filter, List.mem_flatMap]
  refine or_congr_right ?_
  constructor
  · rintro ⟨r, hr, htopic, hactive⟩
    exact ⟨⟨s.recordShards.of m, List.mem_range.mpr (s.recordShards.lt m),
      (mem_membersIn hs).mpr ⟨rfl, r, hr, htopic⟩⟩, hactive⟩
  · rintro ⟨⟨n, -, hm⟩, hactive⟩
    obtain ⟨-, r, hr, htopic⟩ := (mem_membersIn hs).mp hm
    exact ⟨r, hr, htopic, hactive⟩

theorem alone_asks (topic : String) (hs : s.host.current.records.Distinct)
    (hk : s.threads[k]? = some (.asks topic :: rest)) : Alone k s
      (s.put k s.host (.answers topic (s.host.current.subscribers s.host.view topic) :: rest)) [] := by
  have hmore := alone_finds topic (List.range s.recordShards.count)
    (if s.host.current.topics.contains topic then [s.host.view.localId] else [])
    (threads_put hk s.host (.finds topic _ [] _ :: rest))
  rw [put_put] at hmore
  rw [Service.subscribers_eq fun m => mem_walk topic m hs]
  exact Alone.cons hk hmore

/-! ## Calls in one go -/

theorem alone_wakes (now : Nat) (hk : s.threads[k]? = some [.wakes now]) :
    Alone k s (s.put k (s.host.start now).1 []) (s.host.start now).2 := by
  unfold Host.start
  by_cases hrunning : s.host.current.running = true
  · have hnext : s.next (.wakes now) = [] := if_pos hrunning
    have hwake : s.host.wake = s.host := by
      unfold Host.wake
      rw [← hrunning]
    have hall := Alone.cons hk (.rests _)
    rw [hnext, Op.apply, hwake] at hall
    rw [if_pos hrunning]
    exact hall
  · have hnext : s.next (.wakes now) = [.hearkens, .attaches, .schedules now, .gathers] := if_neg hrunning
    let h := s.host.wake
    have hgathers := alone_gathers (threads_put hk (h.hearken.attach.schedule now) [.gathers])
    have hschedules := Alone.cons (threads_put hk h.hearken.attach [.schedules now, .gathers])
      (by rw [put_put]; exact hgathers)
    have hattaches := Alone.cons (threads_put hk h.hearken [.attaches, .schedules now, .gathers])
      (by rw [put_put]; exact hschedules)
    have hhearkens := Alone.cons (threads_put hk h [.hearkens, .attaches, .schedules now, .gathers])
      (by rw [put_put]; exact hattaches)
    have hall := Alone.cons hk (by rw [hnext]; exact hhearkens)
    rw [put_put] at hall
    rw [if_neg hrunning]
    exact hall

theorem alone_numbers (topic : String) (x : Subscriber) (hk : s.threads[k]? = some [.numbers topic x]) :
    Alone k s (s.put k (s.host.subscribe topic x).2.1 []) (s.host.subscribe topic x).2.2 := by
  let h := (Op.numbers topic x).apply s.host
  let y : Subscription := ⟨s.host.current.number.1, x⟩
  have hbumps := alone_bumps (threads_put hk ((Op.enlists topic y).apply h) [.bumps])
  have henlists := Alone.cons (threads_put hk h [.enlists topic y]) (by rw [put_put]; exact hbumps)
  have hall := Alone.cons hk henlists
  rw [put_put] at hall
  exact hall

theorem alone_delists (topic : String) (id : SubscriptionId) (hk : s.threads[k]? = some [.delists topic id]) :
    Alone k s (s.put k (s.host.close ⟨s.host.current.key, topic, id⟩).2.1 [])
      (s.host.close ⟨s.host.current.key, topic, id⟩).2.2 := by
  unfold Host.close
  rw [if_pos rfl]
  unfold Service.close
  dsimp only
  cases hfound : (s.host.current.delist topic id s.host.routes).1 with
  | true =>
    have hnext : s.next (.delists topic id) = [.bumps] := if_pos hfound
    have hbumps := alone_bumps (threads_put hk ((Op.delists topic id).apply s.host) [.bumps])
    have hall := Alone.cons hk (by rw [hnext]; exact hbumps)
    rw [put_put] at hall
    exact hall
  | false =>
    have hnext : s.next (.delists topic id) = [] := by
      rw [next, hfound]
      rfl
    exact Alone.cons hk (by rw [hnext]; exact .rests _)

theorem alone_heeds (d : Delivery ServiceKey) (hk : s.threads[k]? = some (.heeds d :: rest)) :
    Alone k s (s.put k (s.host.notice d).1 rest) (s.host.notice d).2 := by
  have hquiet (hgreet : s.host.greet d = []) (hmail : (s.host.notice d).2 = []) :
      Alone k s (s.put k (s.host.notice d).1 rest) (s.host.notice d).2 := by
    have hall := Alone.cons hk (.rests _)
    rw [show s.next (.heeds d) = [] from hgreet] at hall
    rw [hmail]
    exact hall
  by_cases hkey : d.listener = s.host.current.key
  · cases hnews : d.news with
    | discovery e => exact hquiet (by simp [Host.greet, hnews]) (by simp [Host.notice, hnews])
    | member change m =>
      cases change with
      | added =>
        by_cases hlocal : m.id = s.host.view.localId
        · refine hquiet ?_ ?_
          · simp [Host.greet, hnews, hlocal]
          · simp [Host.notice, hnews, Service.welcome, hlocal]
        · have hgreet : s.next (.heeds d) = [.addresses [m.address]] := by
            change s.host.greet d = _
            simp [Host.greet, hnews, hkey, hlocal]
          have hnotice : s.host.notice d =
              (s.host, s.host.current.announceTo s.host.view.localId [m.address]) := by
            simp [Host.notice, hnews, hkey, Service.welcome, hlocal]
          have hmore := alone_addresses [m.address] (threads_put hk s.host (.addresses [m.address] :: rest))
          have hall := Alone.cons hk (by rw [hgreet, Op.apply, hnotice]; exact hmore)
          rw [put_put] at hall
          rw [hnotice]
          exact hall
      | removed => exact hquiet (by simp [Host.greet, hnews]) (by simp [Host.notice, hnews, hkey])
      | metadata | reachability => exact hquiet (by simp [Host.greet, hnews]) (by simp [Host.notice, hnews])
  · refine hquiet ?_ ?_
    · unfold Host.greet
      split
      · rw [if_neg fun hboth => hkey hboth.1]
      · rfl
    · rw [Host.notice, if_neg hkey]

theorem alone_notices (ds : List (Delivery ServiceKey)) (hk : s.threads[k]? = some (ds.map .heeds)) :
    Alone k s (s.put k (s.host.notices ds).1 []) (s.host.notices ds).2 := by
  induction ds generalizing s with
  | nil =>
    have hsame : s.put k s.host [] = s := by
      obtain ⟨hlt, heq⟩ := List.getElem?_eq_some_iff.mp hk
      rw [put, ← List.map_nil (f := Op.heeds), ← heq, List.set_getElem_self hlt]
    rw [show s.host.notices [] = (s.host, []) from rfl, hsame]
    exact .rests s
  | cons d ds ih =>
    have hmore := ih (threads_put hk (s.host.notice d).1 (ds.map .heeds))
    rw [put_put] at hmore
    have hnotices : s.host.notices (d :: ds) = (((s.host.notice d).1.notices ds).1,
        (s.host.notice d).2 ++ ((s.host.notice d).1.notices ds).2) := Host.notices_cons s.host d ds
    rw [hnotices]
    exact (alone_heeds d hk).trans hmore

/-- What is heard of the group bit by bit comes to the same as in one go. -/
theorem alone_regroup (s : Site) (g : Roster ServiceKey) : Alone s.threads.length (s.regroup g)
    ((s.regroup g).put s.threads.length (s.host.follow g).1 []) (s.host.follow g).2 :=
  alone_notices g.log.reverse List.getElem?_concat_length

end Site

/-- What a call does in one go. -/
def Call.atOnce (h : Host) : Call → Host × List Outgoing
  | .starts now => h.start now
  | .subscribes topic x => (h.subscribe topic x).2
  | .closes topic id => (h.close ⟨h.current.key, topic, id⟩).2
  | .repeats => (h, h.current.announceAll h.view)
  | .asks _ => (h, [])

/-- What is left of a call when it is through. -/
def Call.result (h : Host) : Call → List Op
  | .asks topic => [.answers topic (h.current.subscribers h.view topic)]
  | _ => []

/-- A call that is let alone does what it does in one go. -/
theorem Site.alone_call {s : Site} (hs : s.host.current.records.Distinct) (c : Call) :
    Alone s.threads.length (s.begin c)
      ((s.begin c).put s.threads.length (c.atOnce s.host).1 (c.result s.host)) (c.atOnce s.host).2 := by
  have hk : (s.begin c).threads[s.threads.length]? = some c.ops := List.getElem?_concat_length
  cases c with
  | starts now => exact alone_wakes now hk
  | subscribes topic x => exact alone_numbers topic x hk
  | closes topic id => exact alone_delists topic id hk
  | repeats => exact alone_gathers hk
  | asks topic => exact alone_asks topic hs hk

end ClusterNet.PubSub
