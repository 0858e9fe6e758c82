import ClusterNet.Proofs.FairTurns

/-!
# Ids in words

Listeners and subscriptions are numbered without an end. A counter of 64 bits comes round, and gives ids
that are still in use from then on. Until it does, nobody can tell the difference.
-/

namespace ClusterNet

theorem toUInt64_inj {i j : Nat} (hi : i < 2 ^ 64) (hj : j < 2 ^ 64) : i.toUInt64 = j.toUInt64 ↔ i = j := by
  refine ⟨fun h => ?_, congrArg Nat.toUInt64⟩
  have htoNat := congrArg UInt64.toNat h
  rwa [UInt64.toNat_ofNat_of_lt' hi, UInt64.toNat_ofNat_of_lt' hj] at htoNat

theorem toUInt64_bne {i j : Nat} (hi : i < 2 ^ 64) (hj : j < 2 ^ 64) : (i.toUInt64 != j.toUInt64) = (i != j) := by
  rw [Bool.eq_iff_iff, bne_iff_ne, bne_iff_ne]
  exact not_congr (toUInt64_inj hi hj)

namespace Listeners

variable {L : Type} {r : Listeners L} {id : ListenerId}

/-- A registry that counts in words. -/
structure Worded (L : Type) where
  entries : List (UInt64 × L)
  nextId : UInt64

namespace Worded

def snapshot (w : Worded L) : List L := w.entries.map (·.2)

def add (w : Worded L) (l : L) : UInt64 × Worded L := (w.nextId, ⟨w.entries ++ [(w.nextId, l)], w.nextId + 1⟩)

def remove (w : Worded L) (id : UInt64) : Bool × Worded L :=
  ((w.entries.map (·.1)).contains id, ⟨w.entries.filter fun e => e.1 != id, w.nextId⟩)

end Worded

def worded (r : Listeners L) : Worded L := ⟨r.entries.map fun e => (e.1.toUInt64, e.2), r.nextId.toUInt64⟩

/-- Every id is a word, and the next one has not been given. -/
structure InWords (r : Listeners L) : Prop where
  below : ∀ i ∈ r.ids, i < r.nextId
  next : r.nextId ≤ 2 ^ 64

theorem snapshot_worded (r : Listeners L) : r.worded.snapshot = r.snapshot := List.map_map

theorem worded_add (r : Listeners L) (l : L) :
    r.worded.add l = ((r.add l).1.toUInt64, (r.add l).2.worded) := by
  have hnext : (r.nextId + 1).toUInt64 = r.nextId.toUInt64 + 1 := UInt64.ofNat_add r.nextId 1
  simp [Worded.add, worded, add, hnext]

theorem InWords.worded_remove (h : r.InWords) (hid : id < 2 ^ 64) :
    r.worded.remove id.toUInt64 = ((r.remove id).1, (r.remove id).2.worded) := by
  have hword : ∀ e ∈ r.entries, e.1 < 2 ^ 64 := fun e he =>
    Nat.lt_of_lt_of_le (h.below e.1 (List.mem_map_of_mem he)) h.next
  refine Prod.ext ?_ (congrArg (Worded.mk · _) ?_)
  · rw [Bool.eq_iff_iff]
    simp only [Worded.remove, worded, Listeners.remove, ids, List.contains_iff_mem, List.mem_map, List.map_map]
    exact exists_congr fun e => and_congr_right fun he => toUInt64_inj (hword e he) hid
  · rw [worded, List.filter_map]
    exact congrArg (List.map _) (List.filter_congr fun e he => toUInt64_bne (hword e he) hid)

theorem InWords.add (h : r.InWords) (l : L) (hroom : r.nextId < 2 ^ 64) : (r.add l).2.InWords where
  below i hi := by
    rw [ids, Listeners.add, List.map_append, List.mem_append] at hi
    rcases hi with hold | hnew
    · exact Nat.lt_succ_of_lt (h.below i hold)
    · rw [List.mem_singleton.mp hnew]
      exact Nat.lt_succ_self _
  next := hroom

theorem InWords.remove (h : r.InWords) (id : ListenerId) : (r.remove id).2.InWords where
  below i hi := h.below i ((List.filter_sublist.map _).subset hi)
  next := h.next

inductive Use (L : Type) where
  | adds (l : L)
  | removes (id : ListenerId)

def Use.isAdd : Use L → Bool
  | .adds _ => true
  | .removes _ => false

def use (r : Listeners L) : Use L → Listeners L
  | .adds l => (r.add l).2
  | .removes id => (r.remove id).2

def Worded.use (w : Worded L) : Use L → Worded L
  | .adds l => (w.add l).2
  | .removes id => (w.remove id.toUInt64).2

theorem InWords.worded_run (h : r.InWords) {uses : List (Use L)} (hids : ∀ id, .removes id ∈ uses → id < 2 ^ 64)
    (hroom : r.nextId + uses.countP Use.isAdd ≤ 2 ^ 64) :
    uses.foldl Worded.use r.worded = (uses.foldl use r).worded ∧ (uses.foldl use r).InWords := by
  induction uses generalizing r with
  | nil => exact ⟨rfl, h⟩
  | cons u uses ih =>
    have hids' : ∀ id, .removes id ∈ uses → id < 2 ^ 64 := fun id hid => hids id (List.mem_cons_of_mem _ hid)
    rw [List.countP_cons] at hroom
    rw [List.foldl_cons, List.foldl_cons]
    cases u with
    | adds l =>
      have hstep : r.worded.use (.adds l) = (r.use (.adds l)).worded := congrArg Prod.snd (worded_add r l)
      have hroom' : r.nextId + 1 + uses.countP Use.isAdd ≤ 2 ^ 64 := by
        rwa [Nat.add_assoc, Nat.add_comm 1]
      rw [hstep]
      exact ih (h.add l (Nat.le_trans (Nat.le_add_right ..) hroom')) hids' hroom'
    | removes id =>
      have hstep : r.worded.use (.removes id) = (r.use (.removes id)).worded :=
        congrArg Prod.snd (h.worded_remove (hids id List.mem_cons_self))
      rw [hstep]
      exact ih (h.remove id) hids' hroom

/-- As long as there are words for all ids, a registry that counts in words has the same listeners, and
says the same of a removal. -/
theorem counts_alike (h : r.InWords) {uses : List (Use L)} (hids : ∀ id, .removes id ∈ uses → id < 2 ^ 64)
    (hroom : r.nextId + uses.countP Use.isAdd ≤ 2 ^ 64) (hid : id < 2 ^ 64) :
    (uses.foldl Worded.use r.worded).snapshot = (uses.foldl use r).snapshot ∧
      ((uses.foldl Worded.use r.worded).remove id.toUInt64).1 = ((uses.foldl use r).remove id).1 := by
  obtain ⟨hsame, hwords⟩ := h.worded_run hids hroom
  rw [hsame]
  exact ⟨snapshot_worded _, congrArg Prod.fst (hwords.worded_remove hid)⟩

end Listeners

namespace PubSub

variable {h : Host} {t : Topics} {topic : String} {id : SubscriptionId}

/-- Removes the subscriptions under a word. -/
def Topics.removeWord (t : Topics) (topic : String) (id : UInt64) : Bool × Topics :=
  match t.get? topic with
  | none => (false, t)
  | some state =>
    let rest := state.subscriptions.filter fun s => s.id.toUInt64 != id
    (decide (rest.length < state.subscriptions.length),
      if rest.isEmpty then t.erase topic else t.insert topic { state with subscriptions := rest })

theorem Topics.removeWord_eq (hall : ∀ s ∈ t.all topic, s.id < 2 ^ 64) (hid : id < 2 ^ 64) :
    t.removeWord topic id.toUInt64 = t.remove topic id := by
  unfold removeWord remove
  cases hget : t.get? topic with
  | none => rfl
  | some state =>
    have hstate : t.all topic = state.subscriptions := by rw [all, hget]; rfl
    have hrest : (state.subscriptions.filter fun s => s.id.toUInt64 != id.toUInt64) =
        state.subscriptions.filter fun s => s.id != id :=
      List.filter_congr fun s hs => toUInt64_bne (hall s (hstate ▸ hs)) hid
    simp only [hrest]

namespace Host

def isSubscribe : HostAct → Bool
  | .subscribes _ _ => true
  | _ => false

theorem nextId_run (hn : h.Numbered) (acts : List HostAct) :
    (h.run acts).current.nextId = h.current.nextId + acts.countP isSubscribe := by
  induction acts generalizing h with
  | nil => rfl
  | cons a acts ih =>
    have hstep : (h.act a).1.current.nextId = h.current.nextId + if isSubscribe a then 1 else 0 := by
      cases moves_act hn.occupied a with
      | opens topic s opened => exact opened.nextId
      | shuts handle found shut => exact shut.nextId
      | misses handle found frame other => exact frame.nextId
      | passes a quiet frame =>
        rw [frame.nextId]
        cases a with
        | subscribes => cases quiet
        | _ => rfl
    have hrun := ih (hn.act a)
    rw [hstep] at hrun
    rw [run, List.foldl_cons, ← run, hrun, List.countP_cons, Nat.add_assoc, Nat.add_comm (ite _ _ _)]

/-- As long as there are words for all subscriptions, it makes no difference whether one is closed under
its number or under a word. -/
theorem removeWord_run (hn : h.Numbered) (acts : List HostAct)
    (hroom : h.current.nextId + acts.countP isSubscribe ≤ 2 ^ 64) (topic : String) (hid : id < 2 ^ 64) :
    (h.run acts).current.topics.removeWord topic id.toUInt64 = (h.run acts).current.topics.remove topic id := by
  refine Topics.removeWord_eq (fun s hs => ?_) hid
  have hbelow := (hn.run acts).below topic s hs
  rw [nextId_run hn] at hbelow
  exact Nat.lt_of_lt_of_le hbelow hroom

end Host

end PubSub

end ClusterNet
