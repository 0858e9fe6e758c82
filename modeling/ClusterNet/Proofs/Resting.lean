import ClusterNet.Proofs.Awaiting
import Mathlib.Algebra.Order.BigOperators.Group.List

/-!
# A network comes to rest

Every move of a network takes something off what there is to do at the moment: a letter, a turn of a
job, a call that waits, or a host that has to repeat itself. So a network comes to rest at every moment,
as long as hosts wait a while before they repeat themselves, and there is not more to do than the bench
has patience for.
-/

namespace ClusterNet

theorem Table.total_le_total {K V : Type} {t : Table K V} {f g : V → Nat} (h : ∀ e ∈ t.entries, f e.2 ≤ g e.2) :
    t.total f ≤ t.total g :=
  List.sum_le_sum h

/-! ## Networks -/

namespace Bench.Network

open Messaging PubSub

variable {n n' : Network Host} {name goal : String} {s site : Site Host} {now later : Nat} {h h' : Host}

/-- What a host does when it repeats itself: it sends to all others. -/
def fare (h : Host) : Nat := h.view.others.length + 1

/-- What a host still does at a moment. -/
def toll (now : Nat) (h : Host) : Nat :=
  match h.due with
  | some due => if due ≤ now then fare h else 0
  | none => 0

theorem toll_le_fare (now : Nat) (h : Host) : toll now h ≤ fare h := by
  unfold toll
  split
  · split
    · exact Nat.le_refl _
    · exact Nat.zero_le _
  · exact Nat.zero_le _

/-- How much there is to do on a network at a moment. -/
def todo (now : Nat) (n : Network Host) : Nat :=
  n.outbox.length + n.sites.total fun s => s.link.load + toll now s.resident

/-- How much there is ever to do at one moment, but for what is on its way already. -/
def load (n : Network Host) : Nat := n.sites.total fun s => s.link.load + fare s.resident

/-- Hosts wait a while before they repeat themselves, and none of them is late. -/
structure Punctual (now : Nat) (h : Host) : Prop where
  waits : 0 < h.period
  due : ∀ due, h.due = some due → now < due + h.period

structure Orderly (now : Nat) (n : Network Host) : Prop where
  tidy : n.Tidy
  links : ∀ name s, n.sites.get? name = some s → s.link.Orderly
  punctual : ∀ name s, n.sites.get? name = some s → Punctual now s.resident

theorem level_taken (hs : s.resident.Discreet) {r : Wire.Request} (hr : r.subject = announcementSubject)
    (now : Nat) : s.link.Level (taken now s r).link := by
  apply LocalLink.level_send
  intro handler hhandler
  rcases (receive_announcement hs hr).1 with hnone | hsome
  · rw [hnone] at hhandler
    cases hhandler
  · rw [hsome] at hhandler
    obtain rfl := Option.some.inj ((Table.get?_insert_self _ _ _).symm.trans hhandler)
    rfl

theorem length_announceAll (c : PubSub.Service) (v : View) : (c.announceAll v).length ≤ v.others.length := by
  unfold Service.announceAll Service.announceTo
  split
  · rw [List.length_map]
  · exact Nat.zero_le _

/-- A host that repeats itself has paid for what it sends, and will not do so again at once. -/
theorem repeat_eases {ps : List Outgoing} (hh : Punctual now h) (hrepeat : h.repeat? now = some (h', ps)) :
    Punctual now h' ∧ fare h' = fare h ∧ toll now h' + ps.length < toll now h := by
  unfold Host.repeat? at hrepeat
  split at hrepeat
  · rename_i due hdue
    split at hrepeat
    · rename_i hle
      cases hrepeat
      -- The next repetition is later than now, so that it adds nothing to what there is to do.
      have hlate := hh.due due hdue
      have hlength := length_announceAll h.current h.view
      refine ⟨⟨hh.waits, ?_⟩, rfl, ?_⟩
      · intro due' hdue'
        obtain rfl := Option.some.inj hdue'
        exact Nat.lt_add_right _ hlate
      · have hbefore : toll now h = fare h := by
          unfold toll
          rw [hdue]
          exact if_pos hle
        have hafter : toll now { h with due := some (due + h.period) } = 0 := by
          unfold toll
          exact if_neg (Nat.not_le_of_lt hlate)
        rw [hbefore, hafter]
        unfold fare
        omega
    · cases hrepeat
  · cases hrepeat

/-- A network is in order, and there is less to do than before. -/
structure Eases (now : Nat) (n n' : Network Host) : Prop where
  orderly : n'.Orderly now
  todo : todo now n' < todo now n
  load : n'.load ≤ n.load

theorem load_setSite (hs : n.sites.get? name = some s) (x : Site Host) :
    (n.setSite name x).load + (s.link.load + fare s.resident) = n.load + (x.link.load + fare x.resident) :=
  Table.total_insert hs (fun s => s.link.load + fare s.resident) x

theorem Orderly.eases_setSite (hn : n.Orderly now) (hs : n.sites.get? name = some s) (x : Site Host)
    (hlink : x.link.Orderly) (hpunctual : Punctual now x.resident) (htidy : n'.Tidy)
    (hsites : n'.sites = (n.setSite name x).sites)
    (htodo : n'.outbox.length + (x.link.load + toll now x.resident) <
      n.outbox.length + (s.link.load + toll now s.resident))
    (hload : x.link.load + fare x.resident ≤ s.link.load + fare s.resident) : Eases now n n' := by
  refine ⟨⟨htidy, ?_, ?_⟩, ?_, ?_⟩
  · rw [hsites]
    exact forall_setSite hn.links hlink name
  · rw [hsites]
    exact forall_setSite hn.punctual hpunctual name
  · have hafter := Table.total_insert hs (fun s => s.link.load + toll now s.resident) x
    unfold todo
    rw [hsites]
    unfold Network.setSite
    dsimp only at hafter ⊢
    omega
  · have hafter := load_setSite hs x
    unfold load at hafter ⊢
    rw [hsites]
    omega

theorem Orderly.eases_link (hn : n.Orderly now) (hs : n.sites.get? name = some s) {link : LocalLink}
    (h : s.link.Eases link) : Eases now n (n.setSite name { s with link := link }) := by
  have heases := h.load
  apply hn.eases_setSite hs { s with link := link } h.orderly (hn.punctual name s hs)
  · exact hn.tidy.setSite (s := { s with link := link }) (hn.tidy.discreet name s hs) name
  · rfl
  · change n.outbox.length + (link.load + toll now s.resident) < _
    omega
  · exact Nat.add_le_add_right (Nat.le_of_lt heases) _

theorem Orderly.move (hn : n.Orderly now) (h : Move now n n') : Eases now n n' := by
  have htidy := hn.tidy.move h
  cases h with
  | fails l rest traffic out =>
    refine ⟨⟨htidy, hn.links, hn.punctual⟩, ?_, Nat.le_refl _⟩
    unfold todo
    rw [out]
    exact Nat.add_lt_add_right (Nat.lt_succ_self _) _
  | delivers l rest traffic source goal site out there =>
    have hletter := (hn.tidy.letter out).1
    have hsite := hn.tidy.discreet goal site there
    have hlevel := level_taken hsite (r := requestOf source l.2) hletter now
    have hlink := hlevel.load
    obtain ⟨-, current, hreceive⟩ := receive_announcement hsite (r := requestOf source l.2) hletter
    have hresident : (taken now site (requestOf source l.2)).resident = { site.resident with current := current } := hreceive
    have hbefore := hn.punctual goal site there
    -- An announcement changes what the host knows, but neither when nor to whom it repeats itself.
    apply hn.eases_setSite there (taken now site (requestOf source l.2))
      (hlevel.orderly (hn.links goal site there)) ?_ htidy rfl ?_ ?_
    · rw [hresident]
      exact ⟨hbefore.waits, hbefore.due⟩
    · have htoll : toll now (taken now site (requestOf source l.2)).resident = toll now site.resident := by
        rw [hresident]
        rfl
      rw [out, htoll, List.length_cons]
      change rest.length + _ < _
      omega
    · have hfare : fare (taken now site (requestOf source l.2)).resident = fare site.resident := by
        rw [hresident]
        rfl
      omega
  | works name s j link there work =>
    exact hn.eases_link there (LocalLink.eases_work (hn.links name s there) work)
  | proceeds name s k link there idle proceed =>
    exact hn.eases_link there (LocalLink.eases_proceed (hn.links name s there) proceed)
  | repeats name s r ps there again =>
    obtain ⟨hpunctual, hfare, htoll⟩ := repeat_eases (hn.punctual name s there) again
    apply hn.eases_setSite there { s with resident := r } (hn.links name s there) hpunctual htidy rfl
    · unfold post
      rw [List.length_append, List.length_map]
      dsimp only [Network.setSite]
      omega
    · exact Nat.le_of_eq (congrArg _ hfare)

/-! ## Rest -/

theorem todo_le_load (now : Nat) (n : Network Host) : todo now n ≤ n.outbox.length + n.load :=
  Nat.add_le_add_left (Table.total_le_total fun e _ => Nat.add_le_add_left (toll_le_fare now e.2.resident) _) _

/-- As many moves as there is to do are enough. -/
theorem Orderly.run (hn : n.Orderly now) {moves : Nat} (htodo : todo now n ≤ moves) :
    (machine.run now moves n).move? now = none ∧ (machine.run now moves n).Orderly now ∧
      (machine.run now moves n).load ≤ n.load := by
  induction moves generalizing n with
  | zero =>
    refine ⟨?_, hn, Nat.le_refl _⟩
    cases hmove : n.move? now with
    | none => exact hmove
    | some n' =>
      have heases := (hn.move (move_of_move? hn.tidy.names hmove)).todo
      omega
  | succ moves ih =>
    rw [Machine.run]
    split
    · rename_i n' hmove
      have heases := hn.move (move_of_move? hn.tidy.names hmove)
      have hless := heases.todo
      obtain ⟨hrest, horderly, hload⟩ := ih heases.orderly (by omega)
      exact ⟨hrest, horderly, Nat.le_trans hload heases.load⟩
    · rename_i hrest
      exact ⟨hrest, hn, Nat.le_refl _⟩

theorem Orderly.waits (hn : n.Orderly now) (hrest : n.move? now = none)
    (hdues : ∀ due ∈ machine.dues n, now < due → later ≤ due) : n.Orderly later := by
  refine ⟨hn.tidy, hn.links, ?_⟩
  intro name s hs
  have hpunctual := hn.punctual name s hs
  refine ⟨hpunctual.waits, ?_⟩
  intro due hdue
  have hrepeat := ((rest_of_move? hrest).2 name s hs).2
  have hlt : now < due := by
    by_contra hnot
    unfold Host.repeat? at hrepeat
    rw [hdue] at hrepeat
    dsimp only at hrepeat
    rw [if_pos (Nat.le_of_not_lt hnot)] at hrepeat
    cases hrepeat
  have hmem : due ∈ machine.dues n := by
    apply mem_dues hs
    apply List.mem_append_right
    rw [hdue, Option.toList_some]
    exact List.mem_singleton_self due
  have hle := hdues due hmem hlt
  have hperiod := hpunctual.waits
  omega

theorem Orderly.rests {A : Type} (look : Network Host → Option A) (rounds : Nat) {t : Run Host}
    (hn : t.state.Orderly t.now) (hload : t.state.outbox.length + t.state.load ≤ Machine.patience) :
    machine.Rests look rounds t := by
  induction rounds generalizing t with
  | zero => trivial
  | succ rounds ih =>
    obtain ⟨hrest, horderly, hless⟩ := hn.run (Nat.le_trans (todo_le_load t.now t.state) hload)
    refine ⟨hrest, ?_⟩
    intro _ due hnext
    apply ih (horderly.waits hrest (Machine.next?_least hnext).2)
    have hout : (machine.settle t).state.outbox.length = 0 :=
      congrArg List.length (rest_of_move? hrest).1
    have hafter : (machine.settle t).state.load ≤ t.state.load := hless
    dsimp only
    omega

theorem load_called {r : Wire.Request} {work : Nat} {effort : Effort} (hopen : site.link.closed = false)
    (hreact : (site.resident.receive r).1 = some (.works work effort)) (now : Nat) (k : CallKey) (ms : Nat) :
    (called now site k r ms).link.load ≤ site.link.load + 2 ∧
      (site.link.Orderly → (called now site k r ms).link.Orderly) := by
  have hhandler : (Receiver.handlers r (some (.works work effort))).get? r.subject =
      some ⟨"", fun _ => .works work effort⟩ := Table.get?_insert_self _ _ _
  unfold called
  rw [hreact]
  exact LocalLink.load_begin hopen hhandler rfl now ms k

/-- While a message is worked on, the network comes to rest at every moment. -/
theorem Orderly.calm {t : Run Host} {p : Outgoing} {ms work : Nat} {effort : Effort} (hn : t.state.Orderly t.now)
    (hlaid : t.state.Laid) (hs : t.state.sites.get? name = some s) (hgoal : t.state.sites.get? goal = some site)
    (haddress : site.resident.address = p.goal)
    (hreact : (site.resident.receive (requestOf s.resident.address p)).1 = some (.works work effort))
    (hload : t.state.outbox.length + t.state.load + 2 ≤ Machine.patience) : Calm name p ms t := by
  intro ring state hbegin
  cases hon : s.online with
  | false => cases (begin_offline hs hon t.now ms).symm.trans hbegin
  | true =>
    by_cases hup : p.goal ∈ t.state.down
    · cases (begin_down hs hon hup t.now ms).symm.trans hbegin
    · obtain rfl := congrArg Prod.snd ((hlaid.begin_up hs hon hgoal haddress hup t.now ms).symm.trans hbegin)
      generalize requestOf s.resident.address p = r at hreact ⊢
      obtain ⟨current, former, heard, hreceive⟩ := Host.exists_receive site.resident r
      obtain ⟨hadds, horderly⟩ := load_called (hlaid.unlocked goal site hgoal) hreact t.now t.state.nextCall ms
      have hpunctual : Punctual t.now (called t.now site t.state.nextCall r ms).resident := by
        have hbefore := hn.punctual goal site hgoal
        change Punctual t.now (site.resident.receive r).2
        rw [hreceive]
        exact ⟨hbefore.waits, hbefore.due⟩
      have hfare : fare (called t.now site t.state.nextCall r ms).resident = fare site.resident := by
        change fare (site.resident.receive r).2 = _
        rw [hreceive]
        rfl
      have htidy := hn.tidy.setSite (s := called t.now site t.state.nextCall r ms)
        ((Host.frame_receive site.resident r).discreet (hn.tidy.discreet goal site hgoal)) goal
      have hmore := load_setSite hgoal (called t.now site t.state.nextCall r ms)
      refine Orderly.rests _ _ ⟨⟨htidy.names, htidy.letters, htidy.discreet⟩,
        forall_setSite hn.links (horderly (hn.links goal site hgoal)) goal,
        forall_setSite hn.punctual hpunctual goal⟩ ?_
      change t.state.outbox.length + (t.state.setSite goal (called t.now site t.state.nextCall r ms)).load ≤ _
      omega

end Bench.Network

end ClusterNet
