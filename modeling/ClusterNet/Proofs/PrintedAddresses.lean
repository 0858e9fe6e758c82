import ClusterNet.Json.Address
import ClusterNet.Proofs.AddressText
import ClusterNet.Proofs.JsonText
import ClusterNet.Proofs.TomlLines

/-!
# Addresses written down and read again

Addresses go into documents in their display form. Brackets around a host say where it ends, so that
any host without a closing one can stand in them; the display form has them for hosts with a colon
only.
-/

namespace ClusterNet.Address

open Text

variable {s : String} {a : Address}

/-- A text with a host in brackets that the display form writes without them, although it cannot be
told apart then: nothing, or something that starts with a blank or with another bracket. -/
def NeedsBrackets (s : String) : Prop :=
  ∃ host tail, trimChars s.toList = '[' :: (host ++ ']' :: tail) ∧ ']' ∉ host ∧ ':' ∉ host ∧ ¬ Opens host

theorem not_needsBrackets_of_bare (h : (trimChars s.toList).head? ≠ some '[') : ¬ NeedsBrackets s := by
  rintro ⟨host, tail, htext, -⟩
  rw [htext] at h
  exact h rfl

theorem readable_iff_of_parse (h : parse s = .ok a) : Readable a.host.toList ↔ ¬ NeedsBrackets s := by
  have hspells : Spells (trimChars s.toList) a := spells_of_ofTrimmed h
  have hblank : ∀ c ∈ (trimChars s.toList).head?, isBlank c = false := isBlank_of_head?_trimChars
  generalize htext : trimChars s.toList = text at hspells hblank
  cases hspells with
  | bracketed host tail port inside =>
    rw [String.toList_ofList, Readable]
    constructor
    · rintro hreadable ⟨host', tail', htext', inside', hcolon, hopens⟩
      -- both hosts end at the first closing bracket
      have hsame := (List.cons.inj (htext.symm.trans htext')).2
      have hsplit := splitAt?_append inside tail
      rw [hsame, splitAt?_append inside'] at hsplit
      obtain ⟨rfl, -⟩ := Prod.mk.inj (Option.some.inj hsplit)
      rw [if_neg hcolon] at hreadable
      exact hopens hreadable
    · intro hneeds
      split
      · exact inside
      · rename_i hcolon
        by_contra hopens
        exact hneeds ⟨host, tail, htext, inside, hcolon, hopens⟩
  | literal _ ip bare spelled =>
    exact iff_of_true (readable_of_ip ip) (not_needsBrackets_of_bare (htext ▸ bare))
  | named host tail port something bare plain =>
    obtain ⟨c, rest, rfl⟩ := List.exists_cons_of_ne_nil something
    have hopens : Opens (c :: rest) := ⟨c, rfl, hblank c rfl, by simpa using bare⟩
    refine iff_of_true ?_ (not_needsBrackets_of_bare ?_)
    · rwa [String.toList_ofList, Readable, if_neg plain]
    · rw [htext]
      exact bare

/-! ## Documents -/

theorem json_write (a : Address) : Json.Form.write a = .string a.text := rfl

theorem json_read? (s : String) : (Json.Form.read? (.string s) : Option Address) = (parse s).toOption := rfl

theorem json_iff : (Json.Form.ofBytes? (Json.Form.bytes a) : Option Address) = some a ↔ parse a.text = .ok a := by
  have hread : (Json.Form.ofBytes? (Json.Form.bytes a) : Option Address) = (parse a.text).toOption := by
    rw [Json.Form.ofBytes?, Json.Form.bytes, json_write, Json.Whole.parse?_bytes (.string a.text),
      Option.bind_some, json_read?]
  rw [hread]
  cases parse a.text with
  | error r => simp [Except.toOption]
  | ok b => simp [Except.toOption]

theorem config_iff :
    Config.parse (Config.text { node := { address := a } }) = .ok { node := { address := a } } ↔
      parse a.text = .ok a := by
  rw [Toml.parse_text_node]
  cases parse a.text with
  | error r => simp [Except.mapError, Except.map]
  | ok b => simp [Except.mapError, Except.map]

/-- An address that was read from a text comes back from its display form, and from a JSON document or
a configuration that it is written to, exactly if the text did not need its brackets. -/
theorem printed_addresses_are_read_again (h : parse s = .ok a) :
    (parse a.text = .ok a ↔ ¬ NeedsBrackets s) ∧
    ((Json.Form.ofBytes? (Json.Form.bytes a) : Option Address) = some a ↔ ¬ NeedsBrackets s) ∧
    (Config.parse (Config.text { node := { address := a } }) = .ok { node := { address := a } } ↔
      ¬ NeedsBrackets s) :=
  have hback := parse_text_iff.trans (readable_iff_of_parse h)
  ⟨hback, json_iff.trans hback, config_iff.trans hback⟩

theorem printed_addresses_are_read_again_loopback :
    parse "[::1]:9000" = .ok ⟨"::1", 9000⟩ ∧ parse (⟨"::1", 9000⟩ : Address).text = .ok ⟨"::1", 9000⟩ := by
  have h : parse "[::1]:9000" = .ok ⟨"::1", 9000⟩ := by decide
  have hreadable : Readable "::1".toList := by
    rw [Readable, if_pos (by decide)]
    decide
  exact ⟨h, (printed_addresses_are_read_again h).1.mpr ((readable_iff_of_parse h).mp hreadable)⟩

/-- Brackets may be around nothing, around blanks and around brackets. What is written then is no
address, or another one. -/
theorem hosts_in_brackets_are_lost :
    (parse "[]" = .ok ⟨"", 5679⟩ ∧ parse (⟨"", 5679⟩ : Address).text = .error .emptyHost) ∧
    (parse "[ a]:80" = .ok ⟨" a", 80⟩ ∧ parse (⟨" a", 80⟩ : Address).text = .ok ⟨"a", 80⟩) ∧
    (parse "[[a]:80" = .ok ⟨"[a", 80⟩ ∧ parse (⟨"[a", 80⟩ : Address).text = .error .unterminated) := by
  decide

end ClusterNet.Address
