import ClusterNet.Proofs.Tables
import ClusterNet.Proofs.Transfers

/-!
# Ids of readers

A service numbers the readers that it is given, whether it takes them or not, and the numbers go around
in 64 bits. An id that is in use is refused, and minus one is the answer then. But minus one is a number
like the others: when its turn comes and it is free, a reader is registered under it, and the answer is
the same.
-/

namespace ClusterNet.Consensus

/-! ## Calls and what came of them -/

inductive ReaderCall (S : Type) where
  | adds (reader : Reader S)
  | removes (id : Int64)

/-- What has become of a call. -/
inductive ReaderNote (S : Type) where
  | registered (id : Int64) (reader : Reader S)
  /-- A reader was not taken. -/
  | refused
  | removed (id : Int64)
  /-- There was nothing to remove. -/
  | missed (id : Int64)

section
variable {S : Type}

def ReaderCall.isAdd : ReaderCall S → Bool
  | .adds _ => true
  | .removes _ => false

namespace ReaderNote

def registered? : ReaderNote S → Option Int64
  | .registered id _ => some id
  | _ => none

def removed? : ReaderNote S → Option Int64
  | .removed id => some id
  | _ => none

/-- Who has an id after one more note. -/
def holderAfter (id : Int64) (holder : Option (Reader S)) : ReaderNote S → Option (Reader S)
  | .registered id' reader => if id' = id then some reader else holder
  | .removed id' => if id' = id then none else holder
  | _ => holder

end ReaderNote

variable (log : List (ReaderNote S))

/-- The ids of all registrations, in order. -/
def registrations : List Int64 := log.filterMap (·.registered?)

/-- The ids of all removals that had an effect, in order. -/
def removals : List Int64 := log.filterMap (·.removed?)

/-- The reader that was registered last under an id, unless the id was removed since. -/
def holder (id : Int64) : Option (Reader S) := log.foldl (fun holder e => e.holderAfter id holder) none

variable {log}

theorem registrations_concat (e : ReaderNote S) :
    registrations (log ++ [e]) = registrations log ++ e.registered?.toList := by
  unfold registrations
  rw [List.filterMap_append]
  cases e
  all_goals rfl

theorem removals_concat (e : ReaderNote S) :
    removals (log ++ [e]) = removals log ++ e.removed?.toList := by
  unfold removals
  rw [List.filterMap_append]
  cases e
  all_goals rfl

theorem holder_concat (e : ReaderNote S) (id : Int64) :
    holder (log ++ [e]) id = e.holderAfter id (holder log id) := by
  unfold holder
  rw [List.foldl_append]
  rfl

end

namespace FileService

variable {S : Type} {f g : FileService S} {reader : Reader S} {id initial : Int64} {n : Nat}
  {log : List (ReaderNote S)}

def call (f : FileService S) : ReaderCall S → FileService S
  | .adds reader => (f.add reader).2
  | .removes id => (f.remove id).2

/-- What becomes of a call. A reader is taken if there is one more afterwards. -/
def note (f : FileService S) : ReaderCall S → ReaderNote S
  | .adds reader => if (f.add reader).2.count = f.count then .refused else .registered f.nextId reader
  | .removes id => if (f.remove id).1 then .removed id else .missed id

def after (f : FileService S) (calls : List (ReaderCall S)) : FileService S := calls.foldl call f

/-- What becomes of calls that are made one after the other. -/
def notes (f : FileService S) : List (ReaderCall S) → List (ReaderNote S)
  | [] => []
  | c :: calls => f.note c :: (f.call c).notes calls

/-- A service from which ids are given out, with or without a cap on its replies. -/
def opened (initial : Int64) (cap : Option Int64) : FileService S :=
  match cap with
  | none => ofInitialId initial
  | some most => (ofInitialId initial).withMaxChunk most

/-! ## Single calls -/

theorem add_of_taken (h : f.readers.get? f.nextId = some reader) (new : Reader S) :
    f.add new = (-1, { f with nextId := f.nextId + 1 }) := by
  simp [add, Table.contains, h]

theorem add_of_free (h : f.readers.get? f.nextId = none) (new : Reader S) :
    f.add new =
      (f.nextId, { f with nextId := f.nextId + 1, readers := f.readers.insert f.nextId new }) := by
  simp [add, Table.contains, h]

theorem note_of_taken (h : f.readers.get? f.nextId = some reader) (new : Reader S) :
    f.note (.adds new) = .refused := by
  rw [note, add_of_taken h]
  exact if_pos rfl

theorem note_of_free (h : f.readers.get? f.nextId = none) (new : Reader S) :
    f.note (.adds new) = .registered f.nextId new := by
  rw [note, add_of_free h, if_neg]
  have hmore := Table.size_insert_new h new
  simp only [count]
  omega

theorem note_of_held (h : f.readers.get? id = some reader) : f.note (.removes id) = .removed id := by
  simp [note, remove, Table.contains, h]

theorem note_of_unheld (h : f.readers.get? id = none) : f.note (.removes id) = .missed id := by
  simp [note, remove, Table.contains, h]

/-! ## What the notes say of a service -/

/-- After `n` readers were offered, a service whose ids started at `initial` is as its notes say. -/
structure Kept (initial : Int64) (n : Nat) (log : List (ReaderNote S)) (f : FileService S) : Prop where
  distinct : f.readers.Distinct
  next : f.nextId = initial + Int64.ofNat n
  held : ∀ id, f.readers.get? id = holder log id
  once : ∀ id, (registrations log).count id = (removals log).count id + (holder log id).toList.length
  size : f.count + (removals log).length = (registrations log).length

theorem kept_opened (initial : Int64) (cap : Option Int64) :
    Kept initial 0 [] (opened initial cap : FileService S) := by
  have hreaders : (opened initial cap : FileService S).readers = .empty := by
    cases cap <;> rfl
  have hnext : (opened initial cap : FileService S).nextId = initial := by
    cases cap <;> rfl
  constructor
  · rw [hreaders]
    exact Table.distinct_empty
  · rw [hnext]
    exact (Int64.add_zero initial).symm
  · intro id
    rw [hreaders]
    rfl
  · intro id
    rfl
  · rw [count, hreaders]
    rfl

theorem Kept.add (h : Kept initial n log f) (new : Reader S) :
    Kept initial (n + 1) (log ++ [f.note (.adds new)]) (f.add new).2 := by
  have hnext : f.nextId + 1 = initial + Int64.ofNat (n + 1) := by
    rw [h.next, Int64.add_assoc, Int64.ofNat_add]
    rfl
  cases htaken : f.readers.get? f.nextId with
  | some reader =>
    rw [note_of_taken htaken, add_of_taken htaken]
    constructor
    · exact h.distinct
    · exact hnext
    · intro id
      rw [holder_concat]
      exact h.held id
    · intro id
      rw [registrations_concat, removals_concat, holder_concat]
      simpa [ReaderNote.registered?, ReaderNote.removed?, ReaderNote.holderAfter] using h.once id
    · rw [registrations_concat, removals_concat]
      simpa [ReaderNote.registered?, ReaderNote.removed?, count] using h.size
  | none =>
    rw [note_of_free htaken, add_of_free htaken]
    have hfree : holder log f.nextId = none := (h.held _).symm.trans htaken
    constructor
    · exact h.distinct.insert _ _
    · exact hnext
    · intro id
      rw [holder_concat, Table.get?_insert, h.held id, ReaderNote.holderAfter]
      simp only [eq_comm]
    · intro id
      rw [registrations_concat, removals_concat, holder_concat, ReaderNote.holderAfter]
      have honce := h.once id
      by_cases hid : f.nextId = id
      · subst hid
        simp_all [ReaderNote.registered?, ReaderNote.removed?]
      · simpa [ReaderNote.registered?, ReaderNote.removed?, hid] using honce
    · rw [registrations_concat, removals_concat]
      have hmore := Table.size_insert_new htaken new
      have hsize := h.size
      simp only [count, ReaderNote.registered?, ReaderNote.removed?, Option.toList_some,
        Option.toList_none, List.append_nil, List.length_append, List.length_singleton] at hsize ⊢
      omega

theorem Kept.remove (h : Kept initial n log f) (id : Int64) :
    Kept initial n (log ++ [f.note (.removes id)]) (f.remove id).2 := by
  cases hheld : f.readers.get? id with
  | none =>
    rw [note_of_unheld hheld]
    have hsame : (f.remove id).2 = f := by
      rw [FileService.remove, Table.erase_of_get?_eq_none hheld]
    rw [hsame]
    constructor
    · exact h.distinct
    · exact h.next
    · intro id'
      rw [holder_concat]
      exact h.held id'
    · intro id'
      rw [registrations_concat, removals_concat, holder_concat]
      simpa [ReaderNote.registered?, ReaderNote.removed?, ReaderNote.holderAfter] using h.once id'
    · rw [registrations_concat, removals_concat]
      simpa [ReaderNote.registered?, ReaderNote.removed?] using h.size
  | some reader =>
    rw [note_of_held hheld]
    have hholder : holder log id = some reader := (h.held id).symm.trans hheld
    constructor
    · exact h.distinct.erase id
    · exact h.next
    · intro id'
      rw [holder_concat, FileService.remove, Table.get?_erase, h.held id', ReaderNote.holderAfter]
      simp only [eq_comm]
    · intro id'
      rw [registrations_concat, removals_concat, holder_concat, ReaderNote.holderAfter]
      have honce := h.once id'
      by_cases hid : id = id'
      · subst hid
        simp_all [ReaderNote.registered?, ReaderNote.removed?]
      · simpa [ReaderNote.registered?, ReaderNote.removed?, hid] using honce
    · rw [registrations_concat, removals_concat]
      have hless := Table.size_erase h.distinct (k := id) (by rw [Table.contains, hheld]; rfl)
      have hsize := h.size
      simp only [count, FileService.remove, ReaderNote.registered?, ReaderNote.removed?,
        Option.toList_some, Option.toList_none, List.append_nil, List.length_append,
        List.length_singleton] at hsize ⊢
      omega

theorem Kept.run (h : Kept initial n log f) (calls : List (ReaderCall S)) :
    Kept initial (n + calls.countP (·.isAdd)) (log ++ f.notes calls) (f.after calls) := by
  induction calls generalizing n log f with
  | nil =>
    rw [notes, List.append_nil]
    exact h
  | cons c calls ih =>
    rw [notes, List.append_cons]
    cases c with
    | adds reader =>
      rw [List.countP_cons_of_pos rfl, Nat.add_comm _ 1, ← Nat.add_assoc]
      exact ih (h.add reader)
    | removes id =>
      rw [List.countP_cons_of_neg (by simp [ReaderCall.isAdd])]
      exact ih (h.remove id)

/-! ## What can be relied on -/

/-- After a call to register a reader the same readers are registered as before. -/
def RegistersNothing (f : FileService S) (reader : Reader S) : Prop := (f.add reader).2.readers = f.readers

/-- Requests with an id are answered by a reader. -/
def Serves (f : FileService S) (id : Int64) (reader : Reader S) : Prop :=
  ∀ s r, r.readerId = id → 1 ≤ r.count → 0 ≤ r.offset →
    f.handle s r = replyOf reader.place r.filename
      (reader.read s r.filename r.offset.toInt.toNat (f.share r.count))

/-- Requests with an id find no reader. -/
def Lacks (f : FileService S) (id : Int64) : Prop :=
  ∀ s r, r.readerId = id → 1 ≤ r.count → 0 ≤ r.offset →
    f.handle s r = .refused (.ofCode .noEntry s!"fail to find reader={id.toInt}")

theorem serves_of_get? (h : f.readers.get? id = some reader) : f.Serves id reader := by
  rintro s r rfl hcount hoffset
  exact handle_in_range h hcount hoffset s

theorem lacks_of_get? (h : f.readers.get? id = none) : f.Lacks id := by
  rintro s r rfl hcount hoffset
  rw [handle, if_neg (valid_of_range hcount hoffset)]
  simp only [h]

theorem registersNothing_iff : f.RegistersNothing reader ↔ f.readers.get? f.nextId ≠ none := by
  unfold RegistersNothing
  cases h : f.readers.get? f.nextId with
  | some old => simp [add_of_taken h]
  | none =>
    rw [add_of_free h]
    simp only [ne_eq, not_true_eq_false, iff_false]
    intro hsame
    have hnew := Table.get?_insert_self f.readers f.nextId reader
    rw [hsame, h] at hnew
    cases hnew

theorem get?_call (h : f.readers.get? id = some reader) {c : ReaderCall S}
    (hstays : (f.note c).removed? ≠ some id) : (f.call c).readers.get? id = some reader := by
  cases c with
  | adds new =>
    rw [call]
    cases htaken : f.readers.get? f.nextId with
    | some old =>
      rw [add_of_taken htaken]
      exact h
    | none =>
      have hne : id ≠ f.nextId := by
        rintro rfl
        rw [htaken] at h
        cases h
      rw [add_of_free htaken]
      exact (Table.get?_insert_of_ne _ hne new).trans h
  | removes id' =>
    have hne : id ≠ id' := by
      rintro rfl
      rw [note_of_held h] at hstays
      exact hstays rfl
    exact (Table.get?_erase_of_ne _ hne).trans h

theorem get?_after (h : f.readers.get? id = some reader) {calls : List (ReaderCall S)}
    (hstays : id ∉ removals (f.notes calls)) : (f.after calls).readers.get? id = some reader := by
  induction calls generalizing f with
  | nil => exact h
  | cons c calls ih =>
    have hmem := mt List.mem_filterMap.mpr hstays
    rw [notes] at hmem
    refine ih (get?_call h fun hc => hmem ⟨_, List.mem_cons_self, hc⟩) ?_
    intro hlater
    obtain ⟨e, he, hid⟩ := List.mem_filterMap.mp hlater
    exact hmem ⟨e, List.mem_cons_of_mem _ he, hid⟩

/-- What holds of a service after some calls, when the id `next` is the next one in turn. -/
structure Reliable (next : Int64) (log : List (ReaderNote S)) (f : FileService S) : Prop where
  /-- A reader is not taken exactly if the id in turn has one. -/
  taken_iff : ∀ reader, f.RegistersNothing reader ↔ (holder log next).isSome = true
  /-- Minus one is the answer then, and also if it is the id in turn. -/
  minus_one_iff : ∀ reader, (f.add reader).1 = -1 ↔ f.RegistersNothing reader ∨ next = -1
  /-- A reader that is taken has the id in turn, which was free, until this id is removed. -/
  registers : ∀ reader, ¬ f.RegistersNothing reader →
    (f.add reader).1 = next ∧ f.Lacks next ∧
      ∀ calls, next ∉ removals ((f.add reader).2.notes calls) →
        ((f.add reader).2.after calls).Serves next reader
  removes_iff : ∀ id, (f.remove id).1 = true ↔ (holder log id).isSome = true
  removes : ∀ id, (f.remove id).2.Lacks id
  /-- Under each id there were as many removals as registrations, or one less while it is in use. -/
  once : ∀ id, (registrations log).count id = (removals log).count id + (holder log id).toList.length
  size : f.count + (removals log).length = (registrations log).length

theorem Kept.reliable (h : Kept initial n log f) : Reliable (initial + Int64.ofNat n) log f where
  taken_iff reader := by
    rw [registersNothing_iff, ← h.next, h.held, ← Option.isSome_iff_ne_none]
  minus_one_iff reader := by
    rw [registersNothing_iff, ← h.next]
    cases htaken : f.readers.get? f.nextId with
    | some old => simp [add_of_taken htaken]
    | none => simp [add_of_free htaken]
  registers reader := by
    rw [registersNothing_iff, not_not, ← h.next]
    intro hfree
    rw [add_of_free hfree]
    refine ⟨rfl, lacks_of_get? hfree, ?_⟩
    intro calls hstays
    exact serves_of_get? (get?_after (Table.get?_insert_self _ _ _) hstays)
  removes_iff id := by
    rw [← h.held]
    rfl
  removes id := lacks_of_get? (Table.get?_erase_self _ _)
  once := h.once
  size := h.size

/-- Whatever is registered and removed, a service serves each reader under the id that it has given to
it, answers one removal of each with success, and counts those that are left. The answer minus one says
that a reader was not taken, unless minus one was in turn and free. -/
theorem readers_are_known_by_their_ids (initial : Int64) (cap : Option Int64) (calls : List (ReaderCall S)) :
    Reliable (initial + Int64.ofNat (calls.countP (·.isAdd))) ((opened initial cap).notes calls)
      ((opened initial cap).after calls) := by
  have hkept := (kept_opened (S := S) initial cap).run calls
  rw [Nat.zero_add, List.nil_append] at hkept
  exact hkept.reliable

/-- A reader that has nothing. -/
def mute : Reader Unit := ⟨"mute", fun _ _ _ _ => .error .failed⟩

/-- The first reader of a service whose ids start at minus one is registered, and the answer is the one
for a reader that is not taken. -/
theorem a_registration_is_answered_with_minus_one :
    ((ofInitialId (-1)).add mute).1 = -1 ∧ ¬ (ofInitialId (-1)).RegistersNothing mute ∧
      ((ofInitialId (-1)).add mute).2.count = 1 ∧ (((ofInitialId (-1)).add mute).2.remove (-1)).1 = true := by
  refine ⟨by decide, ?_, by decide, by decide⟩
  rw [registersNothing_iff]
  decide

end FileService

end ClusterNet.Consensus
