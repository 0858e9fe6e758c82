import ClusterNet.Proofs.Concord
import ClusterNet.Proofs.Tidings

/-!
# One life of a service after another

A service that is new takes its version from a clock, and counts on from there with every change
of its subscriptions. So its rank after a while is the time at which it came to be and the number
of its changes, taken together. A service that comes to be later on the same node outranks it if
the clock has gone further than the changes went.
-/

namespace ClusterNet.PubSub

open ClusterNet.Membership Messaging Json

/-! ## Counting changes -/

namespace Host

variable {h : Host}

theorem version_act (hocc : h.current.topics.Occupied) (a : HostAct) :
    (h.act a).1.current.version =
      h.current.version + UInt64.ofNat (changes (Journal.booking? h a).toList) := by
  cases moves_act hocc a with
  | opens topic s opened => exact opened.version
  | shuts x found shut =>
    rw [shut.version, Journal.booking?, found]
    rfl
  | misses x found frame other =>
    rw [frame.version, Journal.booking?, found]
    exact (UInt64.add_zero _).symm
  | passes a quiet frame =>
    have hnone : Journal.booking? h a = none := by
      cases a with
      | subscribes topic s => cases quiet
      | closes x => cases quiet
      | starts | stops | picks | receives | follows | repeats => rfl
    rw [frame.version, hnone]
    exact (UInt64.add_zero _).symm

theorem occupied_run (hocc : h.current.topics.Occupied) (acts : List HostAct) :
    (h.run acts).current.topics.Occupied := by
  induction acts generalizing h with
  | nil => exact hocc
  | cons a acts ih => exact ih (occupied_act hocc a)

theorem log_concat (h : Host) (acts : List HostAct) (a : HostAct) :
    (Journal.run h (acts ++ [a])).log =
      (Journal.run h acts).log ++ (Journal.booking? (h.run acts) a).toList := by
  rw [Journal.run_concat, Journal.act, host_run]

theorem version_run (hocc : h.current.topics.Occupied) (acts : List HostAct) :
    (h.run acts).current.version = h.current.version + UInt64.ofNat (changes (Journal.run h acts).log) := by
  induction acts using List.reverseRecOn with
  | nil => exact (UInt64.add_zero _).symm
  | append_singleton acts a ih =>
    rw [run_concat, version_act (occupied_run hocc acts), ih, log_concat, changes, changes, changes,
      List.countP_append, UInt64.ofNat_add, UInt64.add_assoc]

theorem changes_mono (h : Host) {part acts : List HostAct} (hpart : part <+: acts) :
    changes (Journal.run h part).log ≤ changes (Journal.run h acts).log := by
  obtain ⟨rest, rfl⟩ := hpart
  induction rest using List.reverseRecOn with
  | nil => rw [List.append_nil]
  | append_singleton rest a ih =>
    rw [← List.append_assoc, log_concat, changes, changes, List.countP_append]
    exact Nat.le_add_right_of_le ih

end Host

/-! ## Lives -/

/-- A service from when it is new, with what its clock shows then. It does not run out of versions. -/
structure Life where
  host : Host
  key : ServiceKey
  clock : UInt64
  acts : List HostAct
  new : host.current = .ofClock key clock
  fits : clock.toNat + changes (Journal.run host acts).log < 2 ^ 64

namespace Life

variable {l : Life} {part : List HostAct}

/-- What there is to say after a part of a life. -/
def word (l : Life) (part : List HostAct) : Announcement := (l.host.run part).said

/-- The time at which a life began, and the changes up to some moment. -/
def rank (l : Life) (part : List HostAct) : Nat := l.clock.toNat + changes (Journal.run l.host part).log

theorem clock_le_rank (l : Life) (part : List HostAct) : l.clock.toNat ≤ l.rank part := Nat.le_add_right _ _

theorem rank_nil (l : Life) : l.rank [] = l.clock.toNat := rfl

theorem rank_mono (l : Life) {acts : List HostAct} (h : part <+: acts) : l.rank part ≤ l.rank acts :=
  Nat.add_le_add_left (l.host.changes_mono h) _

theorem version_word (h : part <+: l.acts) : (l.word part).version.toNat = l.rank part := by
  have hocc : l.host.current.topics.Occupied := by
    rw [l.new]
    exact Topics.occupied_empty
  have hversion : (l.word part).version = l.clock + UInt64.ofNat (changes (Journal.run l.host part).log) := by
    have hrun := Host.version_run hocc part
    rwa [l.new] at hrun
  have hfits : l.rank part < 2 ^ 64 := Nat.lt_of_le_of_lt (l.rank_mono h) l.fits
  unfold rank at hfits ⊢
  rw [hversion, UInt64.toNat_add, UInt64.toNat_ofNat', Nat.add_mod_mod, Nat.mod_eq_of_lt hfits]

theorem version_lt_iff {l' : Life} {part' : List HostAct} (h : part <+: l.acts) (h' : part' <+: l'.acts) :
    (l.word part).version < (l'.word part').version ↔ l.rank part < l'.rank part' := by
  rw [UInt64.lt_iff_toNat_lt, version_word h, version_word h']

theorem payload_of_sent {a : HostAct} {o : Outgoing} (ho : o ∈ ((l.host.run part).act a).2) :
    o.subject = announcementSubject ∧ o.payload = Form.bytes (l.word (part ++ [a])) := by
  have htells := Host.tells_act ho
  rw [word, Host.run_concat]
  exact ⟨htells.subject, htells.payload⟩

end Life

/-! ## Hearing of both -/

namespace Service

variable {s : Service} {id m : MemberId} {xs : List Announcement}

theorem knows_hear (hm : m ≠ id) (hs : s.records.get? m = none) (hxs : ∀ x ∈ xs, x.member = m) :
    Knows ((xs.foldl (·.hear id) s).records.get? m) xs := by
  induction xs using List.reverseRecOn with
  | nil =>
    rw [List.foldl_nil, hs]
    rfl
  | append_singleton xs x ih =>
    have hx : x.member = m := hxs x (List.mem_append_right _ List.mem_cons_self)
    have hbefore := ih fun y hy => hxs y (List.mem_append_left _ hy)
    rw [List.foldl_append, List.foldl_cons, List.foldl_nil, hear, if_neg (hx ▸ hm)]
    rw [← hx] at hbefore ⊢
    exact knows_adopt hbefore

/-- After some announcements of a member, one that outranks them all replaces what is known. Any other
one changes nothing. -/
theorem get?_hear_last (hm : m ≠ id) (hs : s.records.get? m = none) (hxs : ∀ x ∈ xs, x.member = m)
    {y : Announcement} (hy : y.member = m) :
    ((xs ++ [y]).foldl (·.hear id) s).records.get? m =
      if ∀ x ∈ xs, x.version < y.version then some ⟨y.version, y.topics⟩
      else (xs.foldl (·.hear id) s).records.get? m := by
  have hknows := knows_hear hm hs hxs
  rw [List.foldl_append, List.foldl_cons, List.foldl_nil]
  generalize xs.foldl (·.hear id) s = s' at hknows
  rw [hear, if_neg (hy ▸ hm), adopt, hy]
  cases hbefore : s'.records.get? m with
  | none =>
    rw [hbefore] at hknows
    have hnil : xs = [] := hknows
    rw [if_pos (by simp [hnil])]
    exact Table.get?_insert_self _ _ _
  | some r =>
    rw [hbefore] at hknows
    obtain ⟨a, ha, rfl⟩ := hknows
    dsimp only
    by_cases hlt : a.version < y.version
    · rw [if_pos hlt, if_pos fun x hx => UInt64.lt_of_le_of_lt (ha.le hx) hlt]
      exact Table.get?_insert_self _ _ _
    · rw [if_neg hlt, if_neg fun hall => hlt (hall a ha.mem)]
      exact hbefore

end Service

/-- A life of a service outranks another one with all that it says exactly if its clock shows more than
the other one's did, with all the changes of the other one added. What is sent is what there is to say.
Someone who knew nothing of a member and hears of one life, and then of the other, takes over what the
other one says exactly if it outranks what was heard by then. -/
theorem a_life_outranks_another_by_clock_and_changes (l l' : Life) :
    (∀ part a, ∀ o ∈ ((l.host.run part).act a).2,
      o.subject = announcementSubject ∧ o.payload = Form.bytes (l.word (part ++ [a]))) ∧
    (∀ part part', part <+: l.acts → part' <+: l'.acts →
      ((l.word part).version < (l'.word part').version ↔ l.rank part < l'.rank part')) ∧
    ((∀ part part', part <+: l.acts → part' <+: l'.acts →
        (l.word part).version < (l'.word part').version) ↔
      l.clock.toNat + changes (Journal.run l.host l.acts).log < l'.clock.toNat) ∧
    ∀ (s : Service) (id m : MemberId) (parts : List (List HostAct)) (part' : List HostAct),
      m ≠ id → s.records.get? m = none →
      (∀ part ∈ parts, part <+: l.acts ∧ (l.word part).member = m) →
      part' <+: l'.acts → (l'.word part').member = m →
        ((parts.map l.word ++ [l'.word part']).foldl (·.hear id) s).records.get? m =
          if ∀ part ∈ parts, l.rank part < l'.rank part' then
            some ⟨(l'.word part').version, (l'.word part').topics⟩
          else ((parts.map l.word).foldl (·.hear id) s).records.get? m := by
  refine ⟨fun part a o ho => Life.payload_of_sent ho, fun part part' => Life.version_lt_iff, ?_, ?_⟩
  · constructor
    · intro hall
      have hlast := hall l.acts [] (List.prefix_refl _) List.nil_prefix
      rwa [Life.version_lt_iff (List.prefix_refl _) List.nil_prefix, Life.rank_nil] at hlast
    · intro hlt part part' hpart hpart'
      rw [Life.version_lt_iff hpart hpart']
      calc l.rank part ≤ l.rank l.acts := l.rank_mono hpart
        _ < l'.clock.toNat := hlt
        _ ≤ l'.rank part' := l'.clock_le_rank part'
  · intro s id m parts part' hm hs hparts hpart' hm'
    have hmembers : ∀ x ∈ parts.map l.word, x.member = m := by
      intro x hx
      obtain ⟨part, hpart, rfl⟩ := List.mem_map.mp hx
      exact (hparts part hpart).2
    have hranks : (∀ x ∈ parts.map l.word, x.version < (l'.word part').version) ↔
        ∀ part ∈ parts, l.rank part < l'.rank part' := by
      rw [List.forall_mem_map]
      apply forall₂_congr
      intro part hpart
      exact Life.version_lt_iff (hparts part hpart).1 hpart'
    rw [Service.get?_hear_last hm hs hmembers hm', if_congr hranks rfl rfl]

/-! A service changes faster than the clock goes, and is replaced. -/

/-- Five changes within three milliseconds. -/
def hasty : Life where
  host := Host.lone.replace 1000 0
  key := 1
  clock := 1000
  acts := List.replicate 5 (.subscribes "a" (Host.echo "x"))
  new := rfl
  fits := by decide +kernel

/-- The service that takes its place. -/
def successor : Life where
  host := (hasty.host.run hasty.acts).replace 1003 0
  key := 2
  clock := 1003
  acts := [.subscribes "b" (Host.echo "y")]
  new := rfl
  fits := by decide +kernel

/-- Someone else, who knows nothing yet. -/
def stranger : Service := .ofClock 0 0

theorem a_life_outranks_another_by_clock_and_changes_hasty :
    ¬ (hasty.word hasty.acts).version < (successor.word successor.acts).version ∧
      (([hasty.acts].map hasty.word ++ [successor.word successor.acts]).foldl (·.hear ⟨"b"⟩)
        stranger).records.get? ⟨""⟩ =
          (([hasty.acts].map hasty.word).foldl (·.hear ⟨"b"⟩) stranger).records.get? ⟨""⟩ := by
  have hranks : ¬ hasty.rank hasty.acts < successor.rank successor.acts := by decide +kernel
  have h := a_life_outranks_another_by_clock_and_changes hasty successor
  constructor
  · rwa [h.2.1 hasty.acts successor.acts (List.prefix_refl _) (List.prefix_refl _)]
  · have hboth := h.2.2.2 stranger ⟨"b"⟩ ⟨""⟩ [hasty.acts] successor.acts (by decide) rfl
      (by simp only [List.mem_singleton, forall_eq]; exact ⟨List.prefix_refl _, by decide +kernel⟩)
      (List.prefix_refl _) (by decide +kernel)
    rwa [if_neg (by simpa using hranks)] at hboth

/-- The clock has gone further when the second service begins, and yet what it says counts less than
what the first one said. Who has heard the first one does not take over what the second one says. -/
theorem a_hasty_life_is_not_outranked :
    hasty.clock < successor.clock ∧
      (hasty.word hasty.acts).version = 1005 ∧ (successor.word successor.acts).version = 1004 ∧
      ((stranger.hear ⟨"b"⟩ (hasty.word hasty.acts)).hear ⟨"b"⟩
        (successor.word successor.acts)).records.get? ⟨""⟩ = some ⟨1005, .ofList ["a"]⟩ := by
  decide +kernel

end ClusterNet.PubSub
