import ClusterNet.Proofs.Isolation

/-!
# The books of a host

Whoever subscribes gets a handle, and whoever closes one is told whether that had an effect. A
journal keeps both, in order. What a host knows of its own subscriptions can be read off its
journal, as long as no topic is named like a subject of another one.
-/

namespace ClusterNet.PubSub

open ClusterNet.Membership Messaging

/-! ## Journals -/

inductive Entry where
  | opened (handle : Handle)
  /-- The answer to a close. -/
  | closed (handle : Handle) (found : Bool)
  deriving DecidableEq

namespace Entry

def opened? : Entry → Option Handle
  | .opened handle => some handle
  | .closed _ _ => none

/-- Whether the subscriptions have changed. -/
def isChange : Entry → Bool
  | .opened _ => true
  | .closed _ found => found

end Entry

/-- The handles that were given out, in order. -/
def openings (log : List Entry) : List Handle := log.filterMap (·.opened?)

/-- How often the subscriptions have changed. -/
def changes (log : List Entry) : Nat := log.countP (·.isChange)

/-- The handles after one more entry. -/
def handlesAfter (handles : List Handle) : Entry → List Handle
  | .opened handle => handles ++ [handle]
  | .closed handle _ => handles.filter (· ≠ handle)

/-- The handles that nobody has closed since they were given out, in order. -/
def stillOpen (log : List Entry) : List Handle := log.foldl handlesAfter []

theorem stillOpen_concat (log : List Entry) (e : Entry) :
    stillOpen (log ++ [e]) = handlesAfter (stillOpen log) e := by
  rw [stillOpen, List.foldl_append]
  rfl

theorem openings_concat (log : List Entry) (e : Entry) :
    openings (log ++ [e]) = openings log ++ e.opened?.toList := by
  unfold openings
  rw [List.filterMap_append]
  cases e with
  | opened handle => rfl
  | closed handle found => rfl

theorem changes_concat (log : List Entry) (e : Entry) :
    changes (log ++ [e]) = changes log + if e.isChange then 1 else 0 := by
  unfold changes
  rw [List.countP_append, List.countP_singleton]

/-- A handle was given out, and nobody has closed it since. -/
def IsOpen (x : Handle) (log : List Entry) : Prop :=
  ∃ before since, log = before ++ .opened x :: since ∧ ∀ found, .closed x found ∉ since

theorem isOpen_concat {x : Handle} {log : List Entry} {e : Entry} :
    IsOpen x (log ++ [e]) ↔ e = .opened x ∨ (IsOpen x log ∧ ∀ found, e ≠ .closed x found) := by
  constructor
  · rintro ⟨before, since, heq, hsince⟩
    rcases List.eq_nil_or_concat since with rfl | ⟨since, e', rfl⟩
    · obtain ⟨-, rfl⟩ := List.append_singleton_inj.mp heq
      exact .inl rfl
    · rw [List.concat_eq_append, ← List.cons_append, ← List.append_assoc] at heq
      obtain ⟨rfl, rfl⟩ := List.append_singleton_inj.mp heq
      rw [List.concat_eq_append] at hsince
      refine .inr ⟨⟨before, since, rfl, ?_⟩, ?_⟩
      · intro found hmem
        exact hsince found (List.mem_append_left _ hmem)
      · rintro found rfl
        exact hsince found (List.mem_append_right _ List.mem_cons_self)
  · rintro (rfl | ⟨⟨before, since, rfl, hsince⟩, hne⟩)
    · exact ⟨log, [], rfl, fun _ => List.not_mem_nil⟩
    · refine ⟨before, since ++ [e], ?_, ?_⟩
      · rw [List.append_assoc, List.cons_append]
      · intro found hmem
        rcases List.mem_append.mp hmem with hmem | hmem
        · exact hsince found hmem
        · exact hne found (List.mem_singleton.mp hmem).symm

theorem mem_stillOpen {x : Handle} {log : List Entry} : x ∈ stillOpen log ↔ IsOpen x log := by
  induction log using List.reverseRecOn with
  | nil =>
    constructor
    · intro hx
      simp [stillOpen] at hx
    · rintro ⟨before, since, heq, -⟩
      simp at heq
  | append_singleton log e ih =>
    rw [stillOpen_concat, isOpen_concat, ← ih]
    cases e with
    | opened y =>
      simp only [handlesAfter, List.mem_append, List.mem_singleton]
      constructor
      · rintro (hx | rfl)
        · exact .inr ⟨hx, fun _ => by simp⟩
        · exact .inl rfl
      · rintro (heq | ⟨hx, -⟩)
        · cases heq
          exact .inr rfl
        · exact .inl hx
    | closed y found =>
      simp only [handlesAfter, List.mem_filter, decide_eq_true_iff]
      constructor
      · rintro ⟨hx, hne⟩
        refine .inr ⟨hx, ?_⟩
        rintro f heq
        cases heq
        exact hne rfl
      · rintro (heq | ⟨hx, hne⟩)
        · cases heq
        · refine ⟨hx, ?_⟩
          rintro rfl
          exact hne found rfl

/-- A close has an effect exactly when its handle was open. -/
def Answered (log : List Entry) : Prop :=
  ∀ before x found since, log = before ++ .closed x found :: since → (found = true ↔ IsOpen x before)

theorem Answered.concat {log : List Entry} {e : Entry} (h : Answered log)
    (he : ∀ x found, e = .closed x found → (found = true ↔ IsOpen x log)) : Answered (log ++ [e]) := by
  intro before x found since heq
  rcases List.eq_nil_or_concat since with rfl | ⟨since, e', rfl⟩
  · obtain ⟨rfl, rfl⟩ := List.append_singleton_inj.mp heq
    exact he x found rfl
  · rw [List.concat_eq_append, ← List.cons_append, ← List.append_assoc] at heq
    obtain ⟨hlog, -⟩ := List.append_singleton_inj.mp heq
    exact h before x found since hlog

/-- A host with its journal. -/
structure Journal where
  host : Host
  log : List Entry

namespace Journal

/-- What an act adds to the journal of a host. -/
def booking? (h : Host) : HostAct → Option Entry
  | .subscribes topic s => some (.opened (h.subscribe topic s).1)
  | .closes handle => some (.closed handle (h.close handle).1)
  | _ => none

def act (j : Journal) (a : HostAct) : Journal :=
  ⟨(j.host.act a).1, j.log ++ (booking? j.host a).toList⟩

def run (h : Host) (acts : List HostAct) : Journal := acts.foldl act ⟨h, []⟩

theorem run_concat (h : Host) (acts : List HostAct) (a : HostAct) :
    run h (acts ++ [a]) = (run h acts).act a := by
  rw [run, List.foldl_append]
  rfl

end Journal

/-! ## Handles -/

namespace Host

variable {h h' : Host}

theorem mem_handles {x : Handle} :
    x ∈ h.handles x.topic ↔
      x.service = h.current.key ∧ ∃ s ∈ h.current.topics.all x.topic, s.id = x.id := by
  obtain ⟨service, topic, id⟩ := x
  unfold handles
  rw [List.mem_map]
  constructor
  · rintro ⟨s, hs, heq⟩
    cases heq
    exact ⟨rfl, s, hs, rfl⟩
  · rintro ⟨hkey, s, hs, hid⟩
    dsimp only at hkey hid
    subst hkey hid
    exact ⟨s, hs, rfl⟩

theorem topic_of_mem_handles {t : String} {x : Handle} (hx : x ∈ h.handles t) : x.topic = t := by
  obtain ⟨s, -, rfl⟩ := List.mem_map.mp hx
  rfl

theorem handles_eq_nil {t : String} : h.handles t = [] ↔ h.current.topics.all t = [] := by
  unfold handles
  exact List.map_eq_nil_iff

theorem fst_close_iff {x : Handle} : (h.close x).1 = true ↔ x ∈ h.handles x.topic := by
  rw [fst_close, Bool.and_eq_true, decide_eq_true_iff, mem_handles, List.any_eq_true]
  simp only [beq_iff_eq]

theorem Frame.handles (a : Frame h h') (t : String) : h'.handles t = h.handles t := by
  unfold Host.handles
  rw [a.all, a.key]

theorem Opened.handles {topic : String} {s : Subscriber} (a : Opened h h' topic s) (t : String) :
    h'.handles t =
      if t = topic then h.handles t ++ [⟨h.current.key, topic, h.current.nextId⟩] else h.handles t := by
  unfold Host.handles
  rw [a.all, a.key]
  split
  · rename_i ht
    rw [ht, List.map_append, List.map_singleton]
  · rfl

theorem Shut.handles {x : Handle} (a : Shut h h' x) (t : String) :
    h'.handles t = (h.handles t).filter (· ≠ x) := by
  obtain ⟨service, topic, id⟩ := x
  have hservice := a.service
  dsimp only at hservice
  subst hservice
  unfold Host.handles
  rw [a.all, a.key, List.filter_map]
  split
  · rename_i ht
    subst ht
    congr 1
    apply List.filter_congr
    intro s _
    rw [Bool.eq_iff_iff]
    simp
  · rename_i ht
    congr 1
    symm
    rw [List.filter_eq_self]
    intro s _
    simp [ht]

end Host

/-! ## Clean topics -/

/-- No topic is named like a subject of another one or like that of announcements. -/
structure Clean (T : Set String) : Prop where
  apart : ∀ t ∈ T, ∀ u ∈ T, noticeSubject t ≠ u
  unannounced : announcementSubject ∉ T

/-- Only such topics come into use. -/
def HostAct.Within (T : Set String) : HostAct → Prop
  | .subscribes topic _ => topic ∈ T
  | _ => True

namespace Host

/-- A host without subscriptions, on which the subjects of some topics are free. -/
structure Untouched (h : Host) (T : Set String) : Prop where
  topics : h.current.topics = .empty
  free : ∀ t ∈ T, ∀ subject, IsSubjectOf subject t → h.routes.get? subject = none

end Host

theorem Clean.not_isSubjectOf {T : Set String} (hT : Clean T) {t u subject : String} (ht : t ∈ T)
    (hu : u ∈ T) (hne : u ≠ t) (hs : IsSubjectOf subject t) : ¬ IsSubjectOf subject u :=
  Apart.not_isSubjectOf ⟨hT.apart u hu t ht, Ne.symm (hT.apart t ht u hu)⟩ hne hs

theorem Clean.ne_announcementSubject {T : Set String} (hT : Clean T) {t subject : String}
    (ht : t ∈ T) (hs : IsSubjectOf subject t) : subject ≠ announcementSubject := by
  rcases hs with rfl | rfl
  · rintro rfl
    exact hT.unannounced ht
  · exact noticeSubject_ne_announcementSubject t

namespace Host

variable {T : Set String} {h h' : Host}

/-- The routes of a host are those of the topics that it serves. -/
structure Routed (T : Set String) (h : Host) : Prop where
  within : ∀ t, h.current.topics.all t ≠ [] → t ∈ T
  served : ∀ t, h.current.topics.all t ≠ [] → h.routes.Serve h.current.key t
  free : ∀ t ∈ T, h.current.topics.all t = [] →
    ∀ subject, IsSubjectOf subject t → h.routes.get? subject = none

theorem Routed.opens (hr : Routed T h) (hT : Clean T) {topic : String} {s : Subscriber}
    (htopic : topic ∈ T) (a : Opened h h' topic s) : Routed T h' := by
  have hwithin : ∀ t, h'.current.topics.all t ≠ [] → t ∈ T := by
    intro t ht
    by_cases heq : t = topic
    · rwa [heq]
    · rw [a.all, if_neg heq] at ht
      exact hr.within t ht
  refine ⟨hwithin, ?_, ?_⟩
  · intro t ht
    rw [a.key]
    by_cases heq : t = topic
    · subst heq
      rw [a.routes]
      split
      · exact Routes.serve_addTopic h.routes h.current.key t
      · rename_i hbefore
        exact hr.served t hbefore
    · have htT := hwithin t ht
      rw [a.all, if_neg heq] at ht
      apply (hr.served t ht).congr
      intro subject hs
      exact a.get?_routes (hT.not_isSubjectOf htT htopic (Ne.symm heq) hs)
  · intro t ht hnil subject hs
    rw [a.all] at hnil
    split at hnil
    · simp at hnil
    · rename_i heq
      rw [a.get?_routes (hT.not_isSubjectOf ht htopic (Ne.symm heq) hs)]
      exact hr.free t ht hnil subject hs

theorem Routed.shuts (hr : Routed T h) (hT : Clean T) {x : Handle} (a : Shut h h' x) :
    Routed T h' := by
  have hx := hr.within x.topic a.was_open
  refine ⟨fun t ht => hr.within t (a.open_before ht), ?_, ?_⟩
  · intro t ht
    have hbefore := hr.served t (a.open_before ht)
    rw [a.key]
    by_cases heq : t = x.topic
    · rw [a.routes, ← heq, if_neg ht]
      exact hbefore
    · apply hbefore.congr
      intro subject hs
      exact a.get?_routes (hT.not_isSubjectOf (hr.within t (a.open_before ht)) hx (Ne.symm heq) hs)
  · intro t ht hnil subject hs
    by_cases heq : t = x.topic
    · rw [a.routes, ← heq, if_pos hnil, Routes.get?_removeTopic]
      rcases hs with rfl | rfl
      · rw [if_neg (Ne.symm (noticeSubject_ne_self _)), if_pos rfl]
      · rw [if_pos rfl]
    · rw [a.get?_routes (hT.not_isSubjectOf ht hx (Ne.symm heq) hs)]
      rw [a.all, if_neg heq] at hnil
      exact hr.free t ht hnil subject hs

theorem Routed.frame (hr : Routed T h) (hT : Clean T) (a : Frame h h') : Routed T h' := by
  have hwithin : ∀ t, h'.current.topics.all t ≠ [] → t ∈ T := by
    intro t ht
    rw [a.all] at ht
    exact hr.within t ht
  refine ⟨hwithin, ?_, ?_⟩
  · intro t ht
    have htT := hwithin t ht
    rw [a.all] at ht
    rw [a.key]
    apply (hr.served t ht).congr
    intro subject hs
    exact a.routes subject (hT.ne_announcementSubject htT hs)
  · intro t ht hnil subject hs
    rw [a.all] at hnil
    rw [a.routes subject (hT.ne_announcementSubject ht hs)]
    exact hr.free t ht hnil subject hs

end Host

/-! ## The books -/

namespace Journal

variable {T : Set String} {h : Host} {j : Journal}

/-- The journal of a host agrees with what the host knows. -/
structure Kept (T : Set String) (h : Host) (j : Journal) : Prop where
  occupied : j.host.current.topics.Occupied
  routed : Host.Routed T j.host
  key : ∀ x ∈ stillOpen j.log, x.service = j.host.current.key
  handles : ∀ t, j.host.handles t = (stillOpen j.log).filter (·.topic = t)
  ids : (openings j.log).Pairwise (·.id < ·.id)
  fresh : ∀ x ∈ openings j.log, x.id < j.host.current.nextId
  answered : Answered j.log
  version : j.host.current.version = h.current.version + UInt64.ofNat (changes j.log)

theorem Kept.mem_handles (hk : Kept T h j) {x : Handle} :
    x ∈ j.host.handles x.topic ↔ IsOpen x j.log := by
  rw [hk.handles, List.mem_filter, mem_stillOpen]
  simp

theorem Kept.of_frame (hk : Kept T h j) (hT : Clean T) {h' : Host}
    (hocc : h'.current.topics.Occupied) (a : Host.Frame j.host h') : Kept T h ⟨h', j.log⟩ where
  occupied := hocc
  routed := hk.routed.frame hT a
  key x hx := by rw [hk.key x hx, a.key]
  handles t := by rw [a.handles, hk.handles]
  ids := hk.ids
  fresh x hx := by
    rw [a.nextId]
    exact hk.fresh x hx
  answered := hk.answered
  version := by rw [a.version, hk.version]

theorem version_succ (v : UInt64) (n : Nat) : v + UInt64.ofNat n + 1 = v + UInt64.ofNat (n + 1) := by
  rw [UInt64.ofNat_add, UInt64.add_assoc]
  rfl

theorem succ_ne (v : UInt64) : v + 1 ≠ v := by
  intro h
  have hnat := congrArg UInt64.toNat h
  have hlt := v.toNat_lt
  rw [UInt64.toNat_add] at hnat
  simp only [UInt64.reduceToNat] at hnat
  omega

theorem Kept.opens (hk : Kept T h j) (hT : Clean T) {h' : Host} (hocc : h'.current.topics.Occupied)
    {topic : String} {s : Subscriber} (htopic : topic ∈ T) (a : Host.Opened j.host h' topic s) :
    Kept T h ⟨h', j.log ++ [.opened ⟨j.host.current.key, topic, j.host.current.nextId⟩]⟩ := by
  refine ⟨hocc, hk.routed.opens hT htopic a, ?_, ?_, ?_, ?_, ?_, ?_⟩
  · intro x hx
    rw [stillOpen_concat] at hx
    rw [a.key]
    rcases List.mem_append.mp hx with hx | hx
    · exact hk.key x hx
    · rw [List.mem_singleton.mp hx]
  · intro t
    rw [a.handles, stillOpen_concat, handlesAfter, List.filter_append, ← hk.handles, List.filter_singleton]
    by_cases ht : t = topic
    · rw [if_pos ht, ht]
      simp
    · rw [if_neg ht]
      simp [Ne.symm ht]
  · rw [openings_concat, List.pairwise_append]
    refine ⟨hk.ids, List.pairwise_singleton _ _, ?_⟩
    intro x hx y hy
    rw [List.mem_singleton.mp hy]
    exact hk.fresh x hx
  · intro x hx
    rw [openings_concat] at hx
    rw [a.nextId]
    rcases List.mem_append.mp hx with hx | hx
    · exact Nat.lt_succ_of_lt (hk.fresh x hx)
    · rw [List.mem_singleton.mp hx]
      exact Nat.lt_succ_self _
  · apply hk.answered.concat
    intro x found heq
    cases heq
  · rw [a.version, hk.version, changes_concat, version_succ]
    rfl

theorem Kept.closes (hk : Kept T h j) {h' : Host} (hocc : h'.current.topics.Occupied) {x : Handle} {found : Bool} (hfound : found = true ↔ x ∈ j.host.handles x.topic)
    (hrouted : Host.Routed T h') (hkey : h'.current.key = j.host.current.key)
    (hhandles : ∀ t, h'.handles t = (j.host.handles t).filter (· ≠ x))
    (hnext : h'.current.nextId = j.host.current.nextId)
    (hversion : h'.current.version = j.host.current.version + if found then 1 else 0) :
    Kept T h ⟨h', j.log ++ [.closed x found]⟩ := by
  refine ⟨hocc, hrouted, ?_, ?_, ?_, ?_, ?_, ?_⟩
  · intro y hy
    rw [stillOpen_concat] at hy
    rw [hkey]
    exact hk.key y (List.mem_filter.mp hy).1
  · intro t
    rw [hhandles, hk.handles, stillOpen_concat, handlesAfter, List.filter_filter, List.filter_filter]
    apply List.filter_congr
    intro y _
    exact Bool.and_comm _ _
  · rw [openings_concat]
    simpa [Entry.opened?] using hk.ids
  · intro y hy
    rw [openings_concat] at hy
    rw [hnext]
    exact hk.fresh y (by simpa [Entry.opened?] using hy)
  · apply hk.answered.concat
    intro y f heq
    cases heq
    rw [hfound, hk.mem_handles]
  · rw [hversion, hk.version, changes_concat]
    cases found with
    | true => exact version_succ _ _
    | false => simp [Entry.isChange]

theorem Kept.act (hk : Kept T h j) (hT : Clean T) {a : HostAct} (ha : a.Within T) :
    Kept T h (j.act a) := by
  have hocc := Host.occupied_act hk.occupied a
  unfold Journal.act
  cases Host.moves_act hk.occupied a with
  | opens topic s opened => exact hk.opens hT hocc ha opened
  | shuts x found shut =>
    refine hk.closes hocc Host.fst_close_iff (hk.routed.shuts hT shut) shut.key shut.handles shut.nextId ?_
    rw [shut.version, found]
    rfl
  | misses x found frame other =>
    have hnot : x ∉ j.host.handles x.topic := by
      rw [← Host.fst_close_iff, found]
      exact Bool.false_ne_true
    -- The journal drops the handle nevertheless, which changes nothing since it is not open.
    refine hk.closes hocc Host.fst_close_iff (hk.routed.frame hT frame) frame.key ?_ frame.nextId ?_
    · intro t
      rw [frame.handles]
      symm
      rw [List.filter_eq_self]
      intro y hy
      rw [decide_eq_true_iff]
      rintro rfl
      rw [Host.topic_of_mem_handles hy] at hnot
      exact hnot hy
    · rw [frame.version, found]
      simp
  | passes a quiet frame =>
    have hbooking : booking? j.host a = none := by
      cases a with
      | subscribes topic s => simp [HostAct.isCall] at quiet
      | closes x => simp [HostAct.isCall] at quiet
      | starts | stops | picks | receives | follows | repeats => rfl
    rw [hbooking, Option.toList_none, List.append_nil]
    exact hk.of_frame hT hocc frame

theorem kept_start (h0 : h.Untouched T) : Kept T h ⟨h, []⟩ := by
  have hall : ∀ t, h.current.topics.all t = [] := by
    intro t
    rw [h0.topics]
    rfl
  refine ⟨?_, ?_, ?_, ?_, List.Pairwise.nil, ?_, ?_, ?_⟩
  · rw [h0.topics]
    exact Topics.occupied_empty
  · exact ⟨fun t ht => absurd (hall t) ht, fun t ht => absurd (hall t) ht, fun t ht _ => h0.free t ht⟩
  · intro x hx
    simp [stillOpen] at hx
  · intro t
    exact Host.handles_eq_nil.mpr (hall t)
  · intro x hx
    simp [openings] at hx
  · intro before x found since heq
    simp at heq
  · simp [changes]

theorem Kept.run (hT : Clean T) (h0 : h.Untouched T) {acts : List HostAct}
    (hacts : ∀ a ∈ acts, a.Within T) : Kept T h (run h acts) := by
  induction acts using List.reverseRecOn with
  | nil => exact kept_start h0
  | append_singleton acts a ih =>
    rw [run_concat]
    have hrun := ih fun b hb => hacts b (List.mem_append_left _ hb)
    exact hrun.act hT (hacts a (List.mem_append_right _ List.mem_cons_self))

/-- What can be read off the journal of a host. -/
structure Books (T : Set String) (h : Host) (j : Journal) : Prop where
  /-- The subscriptions that a host lists are the open ones. -/
  handles : ∀ t, j.host.handles t = (stillOpen j.log).filter (·.topic = t)
  /-- No id is given twice. -/
  ids : (openings j.log).Pairwise (·.id < ·.id)
  /-- A host serves, and announces, the topics with an open subscription. -/
  topics : ∀ t, t ∈ j.host.current.topics.names.items ↔ ∃ x, x.topic = t ∧ IsOpen x j.log
  announced : (j.host.current.announcement j.host.view.localId).topics = j.host.current.topics.names
  /-- Both subjects of these topics have routes, and those of other topics have none. -/
  routed : ∀ t ∈ T, ∀ subject, IsSubjectOf subject t →
    ((j.host.routes.get? subject).isSome ↔ ∃ x, x.topic = t ∧ IsOpen x j.log)
  /-- A close has an effect when it is the first one of an open subscription. -/
  answered : Answered j.log
  version : j.host.current.version = h.current.version + UInt64.ofNat (changes j.log)

theorem Kept.all_ne_nil (hk : Kept T h j) {t : String} :
    j.host.current.topics.all t ≠ [] ↔ ∃ x, x.topic = t ∧ IsOpen x j.log := by
  rw [ne_eq, ← Host.handles_eq_nil]
  constructor
  · intro hne
    obtain ⟨x, hx⟩ := List.exists_mem_of_ne_nil _ hne
    have ht := Host.topic_of_mem_handles hx
    rw [← ht] at hx
    exact ⟨x, ht, hk.mem_handles.mp hx⟩
  · rintro ⟨x, rfl, hx⟩
    exact List.ne_nil_of_mem (hk.mem_handles.mpr hx)

theorem Kept.books (hk : Kept T h j) : Books T h j := by
  refine ⟨hk.handles, hk.ids, ?_, rfl, ?_, hk.answered, hk.version⟩
  · intro t
    rw [Topics.mem_names, hk.occupied.contains_iff, hk.all_ne_nil]
  · intro t ht subject hs
    rw [← hk.all_ne_nil]
    constructor
    · intro hsome hnil
      rw [hk.routed.free t ht hnil subject hs] at hsome
      exact Bool.false_ne_true hsome
    · intro hopen
      have hserved := hk.routed.served t hopen
      rcases hs with rfl | rfl
      · rw [hserved.requests]
        rfl
      · rw [hserved.notices]
        rfl

/-- Whatever is done to a host, it keeps the books of its subscriptions, and the version of what it
announces changes with them and only then. -/
theorem subscriptions_are_booked (hT : Clean T) (h0 : h.Untouched T) {acts : List HostAct}
    (hacts : ∀ a ∈ acts, a.Within T) :
    Books T h (run h acts) ∧
    ∀ a : HostAct, a.Within T →
      (((run h acts).act a).host.current.version ≠ (run h acts).host.current.version ↔
        ∃ e, booking? (run h acts).host a = some e ∧ e.isChange = true) := by
  have hk := Kept.run hT h0 hacts
  refine ⟨hk.books, ?_⟩
  intro a ha
  have hnext := (hk.act hT ha).version
  rw [hnext, hk.version, act]
  cases booking? (run h acts).host a with
  | none => simp
  | some e =>
    rw [Option.toList_some, changes_concat]
    cases hchange : e.isChange with
    | true =>
      rw [if_pos rfl, ← version_succ]
      exact ⟨fun _ => ⟨e, rfl, hchange⟩, fun _ => succ_ne _⟩
    | false => simp [hchange]

/-- A topic goes out of use, some handles are closed twice, and the topic comes into use again. -/
def reopening : List HostAct :=
  [.starts 0, .subscribes "t" (Host.echo "x"), .subscribes "t" (Host.echo "y"), .closes ⟨0, "t", 1⟩,
    .closes ⟨0, "t", 1⟩, .closes ⟨0, "t", 2⟩, .subscribes "t" (Host.echo "z"), .closes ⟨0, "t", 2⟩]

theorem subscriptions_are_booked_reopening :
    Books {"t"} Host.lone (run Host.lone reopening) ∧
      (run Host.lone reopening).host.handles "t" = [⟨0, "t", 3⟩] ∧
      (run Host.lone reopening).host.current.version = 5 := by
  have hclean : Clean {"t"} := by
    constructor
    · rintro t rfl u rfl
      exact noticeSubject_ne_self "t"
    · intro h
      have heq : announcementSubject = "t" := h
      exact absurd heq (by decide)
  have huntouched : Host.lone.Untouched {"t"} := ⟨rfl, fun t _ subject _ => rfl⟩
  have hwithin : ∀ a ∈ reopening, a.Within {"t"} := by
    intro a ha
    simp only [reopening, List.mem_cons, List.not_mem_nil, or_false] at ha
    rcases ha with rfl | rfl | rfl | rfl | rfl | rfl | rfl | rfl
    all_goals trivial
  exact ⟨(subscriptions_are_booked hclean huntouched hwithin).1, by decide +kernel, by decide +kernel⟩

end Journal

end ClusterNet.PubSub
