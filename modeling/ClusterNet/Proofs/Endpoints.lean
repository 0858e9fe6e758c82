import ClusterNet.Config.Basic
import ClusterNet.Proofs.AddressText
import ClusterNet.Proofs.PoolMoves

/-!
# Endpoints and their spellings

A bare IPv6 literal is read into its usual text, and one in brackets is kept as it was written. Either
way it stands for the same IP address, but what goes by the text of an address takes the two for two
endpoints: addresses themselves, the default ids of nodes, and the entries of a pool.
-/

namespace ClusterNet

namespace Messaging.Pool

variable {p q : Pool} {d d' : Destination} {e : EntryId}

/-! ## Entries belong to one destination -/

theorem Moves.index_eq {a : PoolAct} (h : p.Moves a q) (hbegins : ∀ d subject, a ≠ .begins d subject)
    (hcloses : a ≠ .closesAll) : q.index = p.index ∧ q.nextEntry = p.nextEntry := by
  cases h with
  | begins d subject e index nextEntry found old => exact absurd rfl (hbegins d subject)
  | closesAll => exact absurd rfl hcloses
  | launches u g r was stage has cleared =>
    obtain ⟨-, rfl⟩ | ⟨c, -, -, rfl⟩ := cleared <;> exact ⟨rfl, rfl⟩
  | clears u w x r was watched stage has withdraws =>
    obtain ⟨-, rfl⟩ | ⟨-, rfl⟩ := withdraws <;> exact ⟨rfl, rfl⟩
  | sweeps u s a rest r was next queued has shuts =>
    obtain ⟨c, -, rfl⟩ | ⟨-, rfl⟩ := shuts <;> exact ⟨rfl, rfl⟩
  | _ => exact ⟨rfl, rfl⟩

/-- An entry has been made before, and for one destination. -/
structure Keyed (p : Pool) : Prop where
  old : ∀ {d e}, p.index.get? d = some e → e < p.nextEntry
  single : ∀ {d d' e}, p.index.get? d = some e → p.index.get? d' = some e → d = d'

theorem keyed_of_empty (h : p.index = .empty) : p.Keyed where
  old he := by simp [h] at he
  single he := by simp [h] at he

theorem Keyed.congr (h : p.Keyed) (hindex : q.index = p.index) (hnext : q.nextEntry = p.nextEntry) : q.Keyed where
  old := by
    rw [hindex, hnext]
    exact h.old
  single := by
    rw [hindex]
    exact h.single

theorem get?_begin (p : Pool) (d : Destination) (subject : String) :
    ∃ e, (p.begin d subject).2.index.get? d = some e := by
  unfold begin entryOf
  cases hentry : p.index.get? d with
  | some e => exact ⟨e, hentry⟩
  | none => exact ⟨p.nextEntry, Table.get?_insert_self _ _ _⟩

theorem Keyed.begin (h : p.Keyed) (d : Destination) (subject : String) : (p.begin d subject).2.Keyed := by
  unfold Pool.begin entryOf
  cases hentry : p.index.get? d with
  | some e => exact h.congr rfl rfl
  | none =>
    -- the new entry is none of the old ones
    have hget (d' : Destination) : (p.index.insert d p.nextEntry).get? d' =
        if d' = d then some p.nextEntry else p.index.get? d' := Table.get?_insert _ _ _ _
    refine Keyed.congr (p := { p with index := p.index.insert d p.nextEntry, nextEntry := p.nextEntry + 1 }) ?_ rfl rfl
    constructor
    · intro d' e he
      simp only [hget] at he
      split at he
      · rw [← Option.some.inj he]
        exact Nat.lt_succ_self _
      · exact Nat.lt_succ_of_lt (h.old he)
    · intro d₁ d₂ e he he'
      simp only [hget] at he he'
      split at he <;> split at he'
      · rename_i h₁ h₂
        rw [h₁, h₂]
      · rw [← Option.some.inj he] at he'
        exact absurd (h.old he') (Nat.lt_irrefl _)
      · rw [← Option.some.inj he'] at he
        exact absurd (h.old he) (Nat.lt_irrefl _)
      · exact h.single he he'

theorem Keyed.act (h : p.Keyed) (a : PoolAct) : (p.act a).Keyed := by
  by_cases hbegins : ∃ d subject, a = .begins d subject
  · obtain ⟨d, subject, rfl⟩ := hbegins
    exact h.begin d subject
  · by_cases hcloses : a = .closesAll
    · subst hcloses
      exact keyed_of_empty rfl
    · obtain ⟨hindex, hnext⟩ := (moves_act p a).index_eq (fun d subject ha => hbegins ⟨d, subject, ha⟩) hcloses
      exact h.congr hindex hnext

theorem Keyed.run (h : p.Keyed) (acts : List PoolAct) : (p.run acts).Keyed := by
  induction acts generalizing p with
  | nil => exact h
  | cons a acts ih => exact ih (h.act a)

/-- A pool after anything at all, and then a call for each of two destinations. -/
def askedForBoth (n : Nat) (acts : List PoolAct) (d d' : Destination) (subject subject' : String) : Pool :=
  (ofSize n).run (acts ++ [.begins d subject, .begins d' subject'])

/-- Two destinations that were both asked for share an entry only if they are the same. -/
theorem entries_of_two (n : Nat) (acts : List PoolAct) (d d' : Destination) (subject subject' : String) :
    ∃ e e', (askedForBoth n acts d d' subject subject').index.get? d = some e ∧
      (askedForBoth n acts d d' subject subject').index.get? d' = some e' ∧ (e = e' ↔ d = d') := by
  have hkeyed : (askedForBoth n acts d d' subject subject').Keyed := (keyed_of_empty (p := ofSize n) rfl).run _
  have hrun : askedForBoth n acts d d' subject subject' =
      ((((ofSize n).run acts).begin d subject).2.begin d' subject').2 := by
    simp [askedForBoth, Pool.run, Pool.act]
  rw [hrun] at hkeyed ⊢
  obtain ⟨e, he⟩ := get?_begin ((ofSize n).run acts) d subject
  obtain ⟨e', he'⟩ := get?_begin (((ofSize n).run acts).begin d subject).2 d' subject'
  have he := (frame_act _ (a := .begins d' subject') (by simp)).index he
  refine ⟨e, e', he, he', ?_, ?_⟩
  · rintro rfl
    exact hkeyed.single he he'
  · rintro rfl
    exact Option.some.inj (he.symm.trans he')

end Messaging.Pool

namespace Address

open Messaging Text

variable {t : String} {ip : Ipv6}

/-! ## Bare and in brackets -/

theorem chars_of_ipv6 (h : Ip.ofText? t = some (.v6 ip)) :
    (∀ c ∈ t.toList, Ip.isIpChar c = true) ∧ 2 ≤ t.toList.count ':' := by
  refine ⟨(Ip.isIpChar_of_ofChars? h).2, ?_⟩
  unfold Ip.ofText? Ip.ofChars? at h
  split at h
  · cases Option.some.inj h
  · obtain ⟨g, hg, -⟩ := Option.map_eq_some_iff.mp h
    obtain ⟨front, hfront, -, hcolons⟩ := Ip.takes_ipv6 (eq_of_whole hg)
    rw [hfront, List.append_nil]
    exact hcolons

theorem parse_bare (h : Ip.ofText? t = some (.v6 ip)) : parse t = .ok (ofIp (.v6 ip) defaultPort) := by
  obtain ⟨hchars, hcolons⟩ := chars_of_ipv6 h
  have htrim : trimChars t.toList = t.toList := trimChars_of_ends
    (fun c hc => Ip.isBlank_of_isIpChar (hchars c (List.mem_of_mem_head? hc)))
    (fun c hc => Ip.isBlank_of_isIpChar (hchars c (List.mem_of_getLast? hc)))
  rw [parse, htrim]
  unfold ofTrimmed
  split
  · rename_i hnil
    rw [hnil] at hcolons
    exact absurd hcolons (by decide)
  · rename_i rest hbracket
    exact absurd (hchars '[' (by rw [hbracket]; exact List.mem_cons_self)) (by decide)
  · rw [if_pos (by omega), show Ip.ofChars? t.toList = some (.v6 ip) from h]

theorem parse_bracketed (h : Ip.ofText? t = some (.v6 ip)) : parse ("[" ++ t ++ "]") = .ok ⟨t, defaultPort⟩ := by
  have hinside : ']' ∉ t.toList := fun hmem => absurd ((chars_of_ipv6 h).1 _ hmem) (by decide)
  have htext : ("[" ++ t ++ "]").toList = '[' :: (t.toList ++ [']']) := by simp
  have htrim : trimChars ('[' :: (t.toList ++ [']'])) = '[' :: (t.toList ++ [']']) := by
    apply trimChars_of_ends
    · simp; decide
    · rw [← List.cons_append, List.getLast?_concat]
      simp; decide
  have hhost := ofHost_of_not_mem hinside defaultPort
  rw [String.ofList_toList] at hhost
  rw [parse, htext, htrim, ofTrimmed, ofBracketed, splitAt?_append hinside]
  simp only [String.ofList_toList, hhost]

theorem text_inj_of_colon {host host' : String} {port : UInt16} (h : ':' ∈ host.toList) (h' : ':' ∈ host'.toList) :
    (⟨host, port⟩ : Address).text = (⟨host', port⟩ : Address).text ↔ host = host' := by
  constructor
  · intro htext
    have hchars := String.ofList_injective htext
    rw [chars_of_mem (a := ⟨host, port⟩) h, chars_of_mem (a := ⟨host', port⟩) h'] at hchars
    exact String.toList_injective (List.append_cancel_right (List.cons.inj hchars).2)
  · rintro rfl
    rfl

theorem resolve?_of_ip? {a : Address} {ip : Ip} (h : a.ip? = some ip) : a.resolve? = some ip := by
  unfold resolve?
  rw [h]

/-- A text of an IPv6 address is read without brackets and in them, as the same IP address and port.
The two are one address, one default id and one entry of a pool exactly if the text is the usual one. -/
theorem bare_and_bracketed (h : Ip.ofText? t = some (.v6 ip)) : ∃ bare bracketed : Address,
    parse t = .ok bare ∧ parse ("[" ++ t ++ "]") = .ok bracketed ∧
    bare.resolve? = some (.v6 ip) ∧ bracketed.resolve? = some (.v6 ip) ∧ bracketed.resolved? = some bare ∧
    (bare = bracketed ↔ t = (Ip.v6 ip).text) ∧
    ((PeerSettings.node ⟨none, bare⟩).id = (PeerSettings.node ⟨none, bracketed⟩).id ↔ t = (Ip.v6 ip).text) ∧
    ∀ (n : Nat) (acts : List PoolAct) (subject subject' : String), ∃ p e e',
      p = Pool.askedForBoth n acts ⟨bare, .v6 ip⟩ ⟨bracketed, .v6 ip⟩ subject subject' ∧
      p.index.get? ⟨bare, .v6 ip⟩ = some e ∧ p.index.get? ⟨bracketed, .v6 ip⟩ = some e' ∧
      (e = e' ↔ t = (Ip.v6 ip).text) := by
  have hbracketed : (⟨t, defaultPort⟩ : Address).resolve? = some (.v6 ip) := resolve?_of_ip? h
  have hcolon {s : String} (hs : Ip.ofText? s = some (.v6 ip)) : ':' ∈ s.toList :=
    List.count_pos_iff.mp (Nat.lt_of_lt_of_le Nat.two_pos (chars_of_ipv6 hs).2)
  have hsame : ofIp (.v6 ip) defaultPort = ⟨t, defaultPort⟩ ↔ t = (Ip.v6 ip).text := by
    rw [ofIp, Address.mk.injEq]
    exact ⟨fun hsame => hsame.1.symm, fun hsame => ⟨hsame.symm, rfl⟩⟩
  refine ⟨ofIp (.v6 ip) defaultPort, ⟨t, defaultPort⟩, parse_bare h, parse_bracketed h,
    resolve?_of_ip? (Ip.ofText?_text _), hbracketed, ?_, hsame, ?_, fun n acts subject subject' => ?_⟩
  · exact congrArg (Option.map _) hbracketed
  · change Identifier.mk _ = Identifier.mk _ ↔ _
    rw [Identifier.mk.injEq]
    exact (text_inj_of_colon (hcolon (Ip.ofText?_text _)) (hcolon h)).trans eq_comm
  · obtain ⟨e, e', he, he', hiff⟩ := Pool.entries_of_two n acts ⟨ofIp (.v6 ip) defaultPort, .v6 ip⟩
      ⟨⟨t, defaultPort⟩, .v6 ip⟩ subject subject'
    refine ⟨_, e, e', rfl, he, he', hiff.trans ?_⟩
    rw [Destination.mk.injEq, hsame]
    exact and_iff_left rfl

theorem bare_and_bracketed_loopback :
    Ip.ofText? "::1" = some (.v6 ⟨0, 0, 0, 0, 0, 0, 0, 1⟩) ∧ parse "::1" = parse "[::1]" := by
  have h : Ip.ofText? "::1" = some (.v6 ⟨0, 0, 0, 0, 0, 0, 0, 1⟩) := by decide
  obtain ⟨bare, bracketed, hbare, hbracketed, -, -, -, hsame, -⟩ := bare_and_bracketed h
  refine ⟨h, hbare.trans (Eq.trans ?_ hbracketed.symm)⟩
  rw [hsame.mpr (by decide)]

/-- The address of the local host with a zero in front of it. -/
theorem a_spelling_is_another_address :
    Ip.ofText? "0::1" = some (.v6 ⟨0, 0, 0, 0, 0, 0, 0, 1⟩) ∧
    parse "0::1" = .ok ⟨"::1", 5679⟩ ∧ parse "[0::1]" = .ok ⟨"0::1", 5679⟩ ∧
    (⟨"::1", 5679⟩ : Address) ≠ ⟨"0::1", 5679⟩ := by
  decide

end Address

end ClusterNet
