import ClusterNet.Listeners.Posting
import Mathlib.Data.List.Basic
import Mathlib.Data.List.Nodup

/-!
# Deliveries

Whatever listeners do while an event is delivered, at whatever depth, the event goes to those who were
registered when it was posted, in their order, and to each once. The registry is what its additions and
removals make of it. What happens is written down as acts, and the acts are those of the programs.
-/

namespace ClusterNet.Posting

/-! ## Acts -/

section

variable {L E : Type}

namespace Act

def event? : Act L E → Option E
  | added _ _ | removed _ _ => none
  | posting e | asked _ e | answered _ e _ | told _ e | skipped _ e | posted e => some e

def newId? : Act L E → Option ListenerId
  | added id _ => some id
  | _ => none

/-- What an act makes of those who are registered. -/
def change (es : List (ListenerId × L)) : Act L E → List (ListenerId × L)
  | added id l => es ++ [(id, l)]
  | removed id _ => es.filter fun entry => entry.1 != id
  | _ => es

end Act

/-- Who is registered after those acts. -/
def entriesAfter (es : List (ListenerId × L)) (acts : List (Act L E)) : List (ListenerId × L) :=
  acts.foldl Act.change es

def newIds (acts : List (Act L E)) : List ListenerId := acts.filterMap Act.newId?

section

variable {a : Act L E} {e : E} {acts : List (Act L E)}

theorem Act.change_of_event? (h : a.event? = some e) (es : List (ListenerId × L)) : a.change es = es := by
  cases a with
  | added | removed => cases h
  | _ => rfl

theorem newIds_cons_of_event? (h : a.event? = some e) : newIds (a :: acts) = newIds acts := by
  cases a with
  | added | removed => cases h
  | _ => rfl

theorem newIds_append (acts acts' : List (Act L E)) : newIds (acts ++ acts') = newIds acts ++ newIds acts' :=
  List.filterMap_append

theorem mem_newIds_cons {id : ListenerId} :
    id ∈ newIds (a :: acts) ↔ a.newId? = some id ∨ id ∈ newIds acts := by
  simp [newIds]

theorem sublist_change (es : List (ListenerId × L)) (a : Act L E) (acts : List (Act L E)) :
    ((a.change es).map (·.1) ++ newIds acts).Sublist (es.map (·.1) ++ newIds (a :: acts)) := by
  cases a with
  | added i l => simp [Act.change, newIds, Act.newId?]
  | removed i found => exact (List.filter_sublist.map _).append_right _
  | _ => exact List.Sublist.refl _

end

/-- What came of asking a listener. -/
inductive Reception where
  | declined
  | heard
  | brokeOffAsked
  | brokeOffTold

/-- What is seen of a listener and an event. -/
def seen (e : E) (v : (ListenerId × L) × Reception) : List (Act L E) :=
  match v.2 with
  | .declined => [.asked v.1 e, .answered v.1.1 e false]
  | .heard => [.asked v.1 e, .answered v.1.1 e true, .told v.1 e]
  | .brokeOffAsked => [.asked v.1 e, .skipped v.1.1 e]
  | .brokeOffTold => [.asked v.1 e, .answered v.1.1 e true, .told v.1 e, .skipped v.1.1 e]

variable [DecidableEq E]

/-- Those listeners are visited in their order, and nobody else is before all of them have been. Whatever
else happens in between is about other events. -/
def Delivers (es : List (ListenerId × L)) (e : E) (acts : List (Act L E)) : Prop :=
  ∃ (inner rest : List (Act L E)) (visits : List ((ListenerId × L) × Reception)),
    acts = inner ++ .posted e :: rest ∧ visits.map (·.1) = es ∧
      inner.filter (fun a => a.event? = some e) = visits.flatMap (seen e)

/-- An act is right where those are registered, and this is what follows. -/
def Act.Fits (es : List (ListenerId × L)) (rest : List (Act L E)) : Act L E → Prop
  | .removed id found => found = (es.map (·.1)).contains id
  | .posting e => Delivers es e rest
  | _ => True

/-- Every act is right where it happens. -/
def Orderly (es : List (ListenerId × L)) : List (Act L E) → Prop
  | [] => True
  | a :: rest => a.Fits es rest ∧ Orderly (a.change es) rest

variable {es : List (ListenerId × L)} {acts acts' rest : List (Act L E)} {a : Act L E} {id : ListenerId}

theorem Act.Fits.append (h : a.Fits es rest) (acts : List (Act L E)) : a.Fits es (rest ++ acts) := by
  cases a with
  | posting e =>
    obtain ⟨inner, rest', visits, rfl, hes, hvisits⟩ := h
    exact ⟨inner, rest' ++ acts, visits, by rw [List.append_assoc, List.cons_append], hes, hvisits⟩
  | removed => exact h
  | _ => trivial

theorem Orderly.append (h : Orderly es acts) (h' : Orderly (entriesAfter es acts) acts') :
    Orderly es (acts ++ acts') := by
  induction acts generalizing es with
  | nil => exact h'
  | cons a acts ih => exact ⟨h.1.append acts', ih h.2 h'⟩

theorem Orderly.fits (h : Orderly es (acts ++ a :: rest)) : a.Fits (entriesAfter es acts) rest := by
  induction acts generalizing es with
  | nil => exact h.1
  | cons b acts ih => exact ih h.2

theorem Act.Fits.mem_change (h : a.Fits es rest) :
    id ∈ (a.change es).map (·.1) ↔ (id ∈ es.map (·.1) ∨ a.newId? = some id) ∧ a ≠ .removed id true := by
  cases a with
  | added i l => simp [Act.change, Act.newId?, eq_comm]
  | removed i found =>
    have hfound : found = (es.map (·.1)).contains i := h
    by_cases hid : id = i
    · subst hid
      simp [Act.change, Act.newId?, hfound]
    · simp [Act.change, Act.newId?, Ne.symm hid, hid]
  | _ => simp [Act.change, Act.newId?]

theorem Orderly.mem_entriesAfter (h : Orderly es (acts ++ rest))
    (hids : (es.map (·.1) ++ newIds acts).Nodup) :
    id ∈ (entriesAfter es acts).map (·.1) ↔
      (id ∈ es.map (·.1) ∨ id ∈ newIds acts) ∧ Act.removed id true ∉ acts := by
  induction acts generalizing es with
  | nil => simp [entriesAfter, newIds]
  | cons a acts ih =>
    have hmem := ih h.2 (hids.sublist (sublist_change es a acts))
    have hlater : id ∈ newIds acts → a ≠ .removed id true := by
      rintro hnew rfl
      have hthere : true = (es.map (·.1)).contains id := h.1
      exact List.disjoint_of_nodup_append hids (List.contains_iff_mem.mp hthere.symm)
        (mem_newIds_cons.mpr (.inr hnew))
    change id ∈ (entriesAfter (a.change es) acts).map (·.1) ↔ _
    rw [hmem, h.1.mem_change, mem_newIds_cons, List.mem_cons]
    grind

end

/-! ## What programs do -/

section

variable {M E : Type} {rank : E → Nat}

mutual

/-- Those acts are what a program does from one memory to another, if it is answered as they say. -/
inductive Does : {bound : Nat} → Script M rank bound → M → List (Act (Listener M rank) E) → Option Bool →
    M → Prop where
  | done {bound : Nat} (answer : Bool) (m : M) :
      Does (.done answer : Script M rank bound) m [] (some answer) m
  | breakOff {bound : Nat} (m : M) : Does (.breakOff : Script M rank bound) m [] none m
  | look {bound : Nat} {next : M → Script M rank bound} {m m' : M} {acts r}
      (rest : Does (next m) m acts r m') : Does (.look next) m acts r m'
  | remember {bound : Nat} {next : Script M rank bound} {m m₁ m' : M} {acts r}
      (rest : Does next m₁ acts r m') : Does (.remember m₁ next) m acts r m'
  | add {bound : Nat} {asked told : (e : E) → Script M rank (rank e)}
      {next : ListenerId → Script M rank bound} {id : ListenerId} {m m' : M} {acts r}
      (rest : Does (next id) m acts r m') :
      Does (.add asked told next) m (.added id ⟨asked, told⟩ :: acts) r m'
  | remove {bound : Nat} {id : ListenerId} {next : Bool → Script M rank bound} {found : Bool} {m m' : M}
      {acts r} (rest : Does (next found) m acts r m') :
      Does (.remove id next) m (.removed id found :: acts) r m'
  | post {bound : Nat} {e : E} {smaller : rank e < bound} {next : Script M rank bound} {m m₁ m' : M}
      {body acts r} (posts : Posts e m body m₁) (rest : Does next m₁ acts r m') :
      Does (.post e smaller next) m (body ++ acts) r m'

/-- An event is posted. Which listeners it goes to is left open. -/
inductive Posts : E → M → List (Act (Listener M rank) E) → M → Prop where
  | mk {e : E} {m m' : M} {inner} (visits : Visits e m inner m') :
      Posts e m (.posting e :: (inner ++ [.posted e])) m'

inductive Visits : E → M → List (Act (Listener M rank) E) → M → Prop where
  | nil (e : E) (m : M) : Visits e m [] m
  | cons {e : E} {entry : ListenerId × Listener M rank} {m m₁ m' : M} {acts rest}
      (first : Visit e entry m acts m₁) (others : Visits e m₁ rest m') : Visits e m (acts ++ rest) m'

/-- A listener is asked about an event, and told of it if it wants it. -/
inductive Visit : E → ListenerId × Listener M rank → M → List (Act (Listener M rank) E) → M → Prop where
  | declined {e : E} {entry : ListenerId × Listener M rank} {m m' : M} {asking}
      (asked : Does (entry.2.asked e) m asking (some false) m') :
      Visit e entry m (.asked entry e :: asking ++ [.answered entry.1 e false]) m'
  | heard {e : E} {entry : ListenerId × Listener M rank} {m m₁ m' : M} {asking telling answer}
      (asked : Does (entry.2.asked e) m asking (some true) m₁)
      (told : Does (entry.2.told e) m₁ telling (some answer) m') :
      Visit e entry m
        (.asked entry e :: asking ++ .answered entry.1 e true :: .told entry e :: telling) m'
  | brokeOffAsked {e : E} {entry : ListenerId × Listener M rank} {m m' : M} {asking}
      (asked : Does (entry.2.asked e) m asking none m') :
      Visit e entry m (.asked entry e :: asking ++ [.skipped entry.1 e]) m'
  | brokeOffTold {e : E} {entry : ListenerId × Listener M rank} {m m₁ m' : M} {asking telling}
      (asked : Does (entry.2.asked e) m asking (some true) m₁)
      (told : Does (entry.2.told e) m₁ telling none m') :
      Visit e entry m (.asked entry e :: asking ++
        .answered entry.1 e true :: (.told entry e :: telling ++ [.skipped entry.1 e])) m'

end

/-- Programs that come one after another. -/
inductive DoAll : List (Sigma (Script M rank)) → M → List (Act (Listener M rank) E) → M → Prop where
  | nil (m : M) : DoAll [] m [] m
  | cons {p : Sigma (Script M rank)} {ps : List (Sigma (Script M rank))} {m m₁ m' : M} {acts rest r}
      (first : Does p.2 m acts r m₁) (others : DoAll ps m₁ rest m') : DoAll (p :: ps) m (acts ++ rest) m'

end

/-! ## Scenes -/

section

variable {M E : Type} {rank : E → Nat} {bound : Nat} {s s' s'' : Scene M rank}
  {body body' : List (Act (Listener M rank) E)}

theorem acts_record (s : Scene M rank) (a : Act (Listener M rank) E) :
    (s.record a).acts = s.acts ++ [a] := List.reverse_cons

variable [DecidableEq E]

/-- Those acts lead from one scene to another, and are about events of a rank below a bound. -/
structure Leads (bound : Nat) (s : Scene M rank) (body : List (Act (Listener M rank) E))
    (s' : Scene M rank) : Prop where
  acts : s'.acts = s.acts ++ body
  entries : s'.listeners.entries = entriesAfter s.listeners.entries body
  nextId : s'.listeners.nextId = s.listeners.nextId + (newIds body).length
  ids : newIds body = List.range' s.listeners.nextId (newIds body).length
  below : ∀ a ∈ body, ∀ e, a.event? = some e → rank e < bound
  orderly : Orderly s.listeners.entries body

theorem Leads.refl (s : Scene M rank) : Leads bound s [] s where
  acts := (List.append_nil _).symm
  entries := rfl
  nextId := rfl
  ids := rfl
  below := by simp
  orderly := trivial

theorem Leads.trans (h : Leads bound s body s') (h' : Leads bound s' body' s'') :
    Leads bound s (body ++ body') s'' where
  acts := by rw [h'.acts, h.acts, List.append_assoc]
  entries := by rw [h'.entries, h.entries, entriesAfter, entriesAfter, entriesAfter, List.foldl_append]
  nextId := by rw [h'.nextId, h.nextId, newIds_append, List.length_append, Nat.add_assoc]
  ids := by rw [newIds_append, List.length_append, ← List.range'_append_1, ← h.ids, ← h.nextId, ← h'.ids]
  below a ha := (List.mem_append.mp ha).elim (h.below a) (h'.below a)
  orderly := h.orderly.append (by rw [← h.entries]; exact h'.orderly)

theorem Leads.mono {bound' : Nat} (h : Leads bound s body s') (hle : bound ≤ bound') :
    Leads bound' s body s' :=
  { h with below := fun a ha e he => Nat.lt_of_lt_of_le (h.below a ha e he) hle }

theorem leads_add (bound : Nat) (s : Scene M rank) (l : Listener M rank) :
    Leads bound s [.added (s.add l).1 l] (s.add l).2 where
  acts := acts_record _ _
  entries := rfl
  nextId := rfl
  ids := rfl
  below := by simp [Act.event?]
  orderly := ⟨trivial, trivial⟩

theorem leads_remove (bound : Nat) (s : Scene M rank) (id : ListenerId) :
    Leads bound s [.removed id (s.remove id).1] (s.remove id).2 where
  acts := acts_record _ _
  entries := rfl
  nextId := rfl
  ids := rfl
  below := by simp [Act.event?]
  orderly := ⟨rfl, trivial⟩

theorem Leads.record {a : Act (Listener M rank) E} {e : E} (h : Leads bound (s.record a) body s')
    (hevent : a.event? = some e) (hbelow : rank e < bound) (hfits : a.Fits s.listeners.entries body) :
    Leads bound s (a :: body) s' where
  acts := by rw [h.acts, acts_record, List.append_assoc, List.singleton_append]
  entries := by
    rw [h.entries, entriesAfter, entriesAfter, List.foldl_cons, Act.change_of_event? hevent]
    rfl
  nextId := by
    rw [h.nextId, newIds_cons_of_event? hevent]
    rfl
  ids := by
    rw [newIds_cons_of_event? hevent]
    exact h.ids
  below b hb e' he' := by
    rcases List.mem_cons.mp hb with rfl | hb
    · rwa [← Option.some.inj (hevent.symm.trans he')]
    · exact h.below b hb e' he'
  orderly := by
    refine ⟨hfits, ?_⟩
    rw [Act.change_of_event? hevent]
    exact h.orderly

/-- A post that goes as its acts say. -/
def PostLeads (bound : Nat) (e : E) (s s' : Scene M rank) : Prop :=
  ∃ body, Leads bound s body s' ∧ Posts e s.memory body s'.memory

theorem Script.exists_leads_run (p : Script M rank bound) :
    ∀ (nested : (e : E) → rank e < bound → Scene M rank → Scene M rank),
      (∀ e smaller s, PostLeads bound e s (nested e smaller s)) →
      ∀ s, ∃ body, Leads bound s body (p.run nested s).2 ∧
        Does p s.memory body (p.run nested s).1 (p.run nested s).2.memory := by
  induction p with
  | done answer => exact fun _ _ s => ⟨[], .refl s, .done answer s.memory⟩
  | breakOff => exact fun _ _ s => ⟨[], .refl s, .breakOff s.memory⟩
  | look next ih =>
    intro nested h s
    obtain ⟨body, hbody, hdoes⟩ := ih s.memory nested h s
    exact ⟨body, hbody, .look hdoes⟩
  | remember m next ih =>
    intro nested h s
    obtain ⟨body, hbody, hdoes⟩ := ih nested h { s with memory := m }
    exact ⟨body, { hbody with }, .remember hdoes⟩
  | add asked told next _ _ ih =>
    intro nested h s
    obtain ⟨body, hbody, hdoes⟩ := ih (s.add ⟨asked, told⟩).1 nested h (s.add ⟨asked, told⟩).2
    exact ⟨_, (leads_add _ s ⟨asked, told⟩).trans hbody, .add hdoes⟩
  | remove id next ih =>
    intro nested h s
    obtain ⟨body, hbody, hdoes⟩ := ih (s.remove id).1 nested h (s.remove id).2
    exact ⟨_, (leads_remove _ s id).trans hbody, .remove hdoes⟩
  | post e smaller next ih =>
    intro nested h s
    obtain ⟨during, hduring, hposts⟩ := h e smaller s
    obtain ⟨body, hbody, hdoes⟩ := ih nested h (nested e smaller s)
    exact ⟨_, hduring.trans hbody, .post hposts hdoes⟩

/-! ## Posts -/

variable {e : E} {nested : (e' : E) → rank e' < rank e → Scene M rank → Scene M rank}

/-- On the way from one scene to another nothing greater than an event is posted, and those calls are all
that is about it. -/
structure Calls (e : E) (s : Scene M rank) (body calls : List (Act (Listener M rank) E))
    (s' : Scene M rank) : Prop where
  leads : Leads (rank e + 1) s body s'
  filter_eq : body.filter (fun a => a.event? = some e) = calls

variable {calls calls' : List (Act (Listener M rank) E)}

theorem Calls.refl (e : E) (s : Scene M rank) : Calls e s [] [] s := ⟨.refl s, rfl⟩

theorem Calls.trans (h : Calls e s body calls s') (h' : Calls e s' body' calls' s'') :
    Calls e s (body ++ body') (calls ++ calls') s'' :=
  ⟨h.leads.trans h'.leads, by rw [List.filter_append, h.filter_eq, h'.filter_eq]⟩

theorem Calls.record {a : Act (Listener M rank) E} (h : Calls e (s.record a) body calls s')
    (hevent : a.event? = some e) (hfits : a.Fits s.listeners.entries body) :
    Calls e s (a :: body) (a :: calls) s' :=
  ⟨h.leads.record hevent (Nat.lt_succ_self _) hfits, by simp [hevent, h.filter_eq]⟩

theorem calls_record {a : Act (Listener M rank) E} (s : Scene M rank) (hevent : a.event? = some e)
    (hfits : a.Fits s.listeners.entries []) : Calls e s [a] [a] (s.record a) :=
  (Calls.refl e _).record hevent hfits

theorem Leads.no_calls (h : Leads (rank e) s body s') : Calls e s body [] s' := by
  refine ⟨h.mono (Nat.le_succ _), List.filter_eq_nil_iff.mpr fun a ha he => ?_⟩
  exact Nat.lt_irrefl _ (h.below a ha e (of_decide_eq_true he))

section

variable (hnested : ∀ e' smaller s, PostLeads (rank e) e' s (nested e' smaller s))

include hnested

theorem exists_calls_ask (entry : ListenerId × Listener M rank) (s : Scene M rank) :
    ∃ asking, Calls e s (.asked entry e :: asking) [.asked entry e] (s.ask e nested entry).2 ∧
      Does (entry.2.asked e) s.memory asking (s.ask e nested entry).1 (s.ask e nested entry).2.memory := by
  obtain ⟨asking, hasking, hdoes⟩ :=
    (entry.2.asked e).exists_leads_run nested hnested (s.record (.asked entry e))
  exact ⟨asking, hasking.no_calls.record rfl trivial, hdoes⟩

theorem exists_calls_tell (entry : ListenerId × Listener M rank) (s : Scene M rank) :
    ∃ telling, Calls e s (.told entry e :: telling) [.told entry e] (s.tell e nested entry).2 ∧
      Does (entry.2.told e) s.memory telling (s.tell e nested entry).1 (s.tell e nested entry).2.memory := by
  obtain ⟨telling, htelling, hdoes⟩ :=
    (entry.2.told e).exists_leads_run nested hnested (s.record (.told entry e))
  exact ⟨telling, htelling.no_calls.record rfl trivial, hdoes⟩

theorem exists_calls_deliver (s : Scene M rank) (entry : ListenerId × Listener M rank) :
    ∃ r body, Calls e s body (seen e (entry, r)) (s.deliver e nested entry) ∧
      Visit e entry s.memory body (s.deliver e nested entry).memory := by
  obtain ⟨asking, hask, hasked⟩ := exists_calls_ask hnested entry s
  simp only [Scene.deliver]
  generalize s.ask e nested entry = result at hask hasked ⊢
  obtain ⟨_ | _ | _, s₁⟩ := result
  · exact ⟨.brokeOffAsked, _, hask.trans (calls_record s₁ rfl trivial), .brokeOffAsked hasked⟩
  · exact ⟨.declined, _, hask.trans (calls_record s₁ rfl trivial), .declined hasked⟩
  · obtain ⟨telling, htell, htold⟩ := exists_calls_tell hnested entry (s₁.record (.answered entry.1 e true))
    simp only
    generalize (s₁.record (.answered entry.1 e true)).tell e nested entry = result at htell htold ⊢
    obtain ⟨_ | _, s₂⟩ := result
    · have hskip := htell.trans (calls_record s₂ (a := .skipped entry.1 e) rfl trivial)
      exact ⟨.brokeOffTold, _, hask.trans (hskip.record rfl trivial), .brokeOffTold hasked htold⟩
    · exact ⟨.heard, _, hask.trans (htell.record rfl trivial), .heard hasked htold⟩

/-- Those who are on the list are called, whoever is registered by then. -/
theorem exists_calls_foldl (es : List (ListenerId × Listener M rank)) (s : Scene M rank) :
    ∃ (visits : List ((ListenerId × Listener M rank) × Reception)) (body : _),
      visits.map (·.1) = es ∧
      Calls e s body (visits.flatMap (seen e)) (es.foldl (Scene.deliver e nested) s) ∧
      Visits e s.memory body (es.foldl (Scene.deliver e nested) s).memory := by
  induction es generalizing s with
  | nil => exact ⟨[], [], rfl, .refl e s, .nil e s.memory⟩
  | cons entry es ih =>
    obtain ⟨r, body, hfirst, hvisit⟩ := exists_calls_deliver hnested s entry
    obtain ⟨visits, rest, hes, hrest, hvisits⟩ := ih (s.deliver e nested entry)
    exact ⟨(entry, r) :: visits, body ++ rest, by rw [List.map_cons, hes], hfirst.trans hrest,
      .cons hvisit hvisits⟩

end

theorem postLeads_post (e : E) (hbelow : rank e < bound) (s : Scene M rank) :
    PostLeads bound e s (s.post e) := by
  induction bound using Nat.strongRecOn generalizing e s with
  | _ bound ih =>
    obtain ⟨visits, inner, hes, hinner, hvisits⟩ := exists_calls_foldl (ih (rank e) hbelow)
      (s.record (.posting e)).listeners.entries (s.record (.posting e))
    rw [Scene.post]
    have hposted := hinner.trans (calls_record _ (a := .posted e) rfl trivial)
    have hpost := hposted.record rfl ⟨inner, [], visits, rfl, hes, hinner.filter_eq⟩
    exact ⟨_, hpost.leads.mono hbelow, .mk hvisits⟩

theorem Script.exists_leads_exec (p : Script M rank bound) (s : Scene M rank) :
    ∃ body, Leads bound s body (p.exec s).2 ∧ Does p s.memory body (p.exec s).1 (p.exec s).2.memory :=
  p.exists_leads_run (fun e _ => Scene.post e) postLeads_post s

theorem exists_leads_execAll (ps : List (Sigma (Script M rank))) (s : Scene M rank) :
    ∃ bound body, Leads bound s body (s.execAll ps) ∧ DoAll ps s.memory body (s.execAll ps).memory := by
  induction ps generalizing s with
  | nil => exact ⟨0, [], .refl s, .nil s.memory⟩
  | cons p ps ih =>
    obtain ⟨first, hfirst, hdoes⟩ := p.2.exists_leads_exec s
    obtain ⟨bound, rest, hrest, hall⟩ := ih (p.2.exec s).2
    exact ⟨max p.1 bound, first ++ rest,
      (hfirst.mono (Nat.le_max_left _ _)).trans (hrest.mono (Nat.le_max_right _ _)), .cons hdoes hall⟩

/-- What has happened to a registry that was empty first. -/
structure Faithful (s : Scene M rank) : Prop where
  /-- Those who are there are those who were added and not removed since, in the order of the additions. -/
  entries : s.listeners.entries = entriesAfter [] s.acts
  /-- Ids count up, and so none is given twice. -/
  ids : newIds s.acts = List.range' 1 (newIds s.acts).length
  /-- A removal finds who was added before, unless an earlier one has. -/
  removed : ∀ before id found after, s.acts = before ++ .removed id found :: after →
    (found = true ↔ id ∈ newIds before ∧ .removed id true ∉ before)
  /-- At any depth, an event goes to those who were there when it was posted. -/
  posted : ∀ before e after, s.acts = before ++ .posting e :: after →
    Delivers (entriesAfter [] before) e after

theorem Leads.faithful {m : M} (h : Leads bound (Scene.start m) body s) : Faithful s := by
  have hacts : s.acts = body := h.acts
  have horderly : Orderly [] body := h.orderly
  constructor
  · rw [hacts]
    exact h.entries
  · rw [hacts]
    exact h.ids
  · intro before id found after hsplit
    rw [hacts] at hsplit
    subst hsplit
    have hfound : found = ((entriesAfter [] before).map (·.1)).contains id := horderly.fits
    have hnodup : (newIds (before ++ .removed id found :: after)).Nodup := by
      rw [h.ids]
      exact List.nodup_range'
    rw [newIds_append] at hnodup
    rw [hfound, List.contains_iff_mem, horderly.mem_entriesAfter hnodup.of_append_left]
    simp
  · intro before e after hsplit
    rw [hacts] at hsplit
    subst hsplit
    exact horderly.fits

/-- Whatever programs use a registry one after another, and whatever the listeners do that they add: what
happens is what the programs and the listeners do, each event goes to those who were registered when it
was posted, in their order and to each once, and the registry, the ids and what removals say are as the
additions and removals make them. -/
theorem posts_go_by_a_snapshot (ps : List (Sigma (Script M rank))) (m : M) :
    DoAll ps m ((Scene.start m).execAll ps).acts ((Scene.start m).execAll ps).memory ∧
      Faithful ((Scene.start m).execAll ps) := by
  obtain ⟨bound, body, h, hall⟩ := exists_leads_execAll ps (Scene.start m)
  have hacts : ((Scene.start m).execAll ps).acts = body := h.acts
  rw [hacts]
  exact ⟨hall, h.faithful⟩

end

end ClusterNet.Posting
