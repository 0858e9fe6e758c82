import ClusterNet.Config.Basic
import ClusterNet.Proofs.AddressText

/-!
# Canonical forms

The display form of an address tells where its host ends: no digit is a colon, so the last colon stands
before the port, and what is in front of it has a colon of its own exactly if the host was put in
brackets. So two addresses with one display form are the same, whatever host and port they have.
-/

namespace ClusterNet.Address

open Text

variable {a b : Address} {c : Char} {front front' back back' host host' : List Char}

/-! ## The last colon -/

theorem append_cons_inj (hback : c ∉ back) (hback' : c ∉ back') :
    front ++ c :: back = front' ++ c :: back' ↔ front = front' ∧ back = back' := by
  constructor
  · intro h
    have hreverse : back.reverse ++ c :: front.reverse = back'.reverse ++ c :: front'.reverse := by
      simpa using congrArg List.reverse h
    -- read from the end, the character is the first of its kind
    have hsplit := splitAt?_append (mt List.mem_reverse.mp hback) front.reverse
    rw [hreverse, splitAt?_append (mt List.mem_reverse.mp hback')] at hsplit
    simpa [eq_comm, and_comm] using hsplit
  · rintro ⟨rfl, rfl⟩
    rfl

theorem colon_not_mem_decimal (n : Nat) : ':' ∉ decimal n := by
  intro h
  exact absurd (isDigit_of_mem_decimal h) (by decide)

theorem decimal_inj {m n : Nat} (h : decimal m = decimal n) : m = n := by
  have hvalue := congrArg digitsValue? h
  rwa [digitsValue?_decimal, digitsValue?_decimal, Option.some.injEq] at hvalue

/-! ## What stands before the port -/

/-- A host, in brackets if there is a colon in it. -/
def framed (host : List Char) : List Char := if ':' ∈ host then '[' :: (host ++ [']']) else host

theorem colon_mem_framed : ':' ∈ framed host ↔ ':' ∈ host := by
  unfold framed
  split <;> simp [*]

theorem framed_inj (h : framed host = framed host') : host = host' := by
  have hcolon : ':' ∈ host ↔ ':' ∈ host' := by
    rw [← colon_mem_framed, h, colon_mem_framed]
  unfold framed at h
  split at h
  · rename_i hin
    rw [if_pos (hcolon.mp hin)] at h
    exact List.append_cancel_right (List.cons.inj h).2
  · rename_i hout
    rwa [if_neg (mt hcolon.mpr hout)] at h

theorem chars_eq (a : Address) : a.chars = framed a.host.toList ++ ':' :: decimal a.port.toNat := by
  unfold framed
  split
  · rename_i hcolon
    simp [chars_of_mem hcolon]
  · rename_i hcolon
    exact chars_of_not_mem hcolon

theorem chars_inj (h : a.chars = b.chars) : a = b := by
  rw [chars_eq, chars_eq, append_cons_inj (colon_not_mem_decimal _) (colon_not_mem_decimal _)] at h
  obtain ⟨hhost, hport⟩ := h
  have hhost : a.host = b.host := String.toList_inj.mp (framed_inj hhost)
  have hport : a.port = b.port := UInt16.toNat_inj.mp (decimal_inj hport)
  cases a
  cases b
  congr

theorem text_inj : a.text = b.text ↔ a = b := by
  constructor
  · intro h
    exact chars_inj (String.ofList_injective h)
  · rintro rfl
    rfl

theorem compare_eq_iff : a.compare b = .eq ↔ a = b := by
  unfold Address.compare
  rw [Ordering.then_eq_eq, Std.compare_eq_iff_eq, Std.compare_eq_iff_eq]
  cases a
  cases b
  simp

theorem default_id_inj : (⟨none, a⟩ : PeerSettings).node.id = (⟨none, b⟩ : PeerSettings).node.id ↔ a = b := by
  rw [← text_inj]
  simp [PeerSettings.node]

/-- Two addresses are the same exactly if they have one display form, and nodes that are called after
them have one id exactly then. To compare hosts and ports for equality comes to the same as to compare
display forms. (Which of two addresses is less does not: `a:9` is less than `a:10`.) -/
theorem display_forms_tell_addresses_apart (a b : Address) :
    (a.text = b.text ↔ a = b) ∧
    ((⟨none, a⟩ : PeerSettings).node.id = (⟨none, b⟩ : PeerSettings).node.id ↔ a = b) ∧
    (a.host = b.host ∧ a.port = b.port ↔ a.text = b.text) ∧
    (a.compare b = .eq ↔ a.text = b.text) := by
  refine ⟨text_inj, default_id_inj, ?_, compare_eq_iff.trans text_inj.symm⟩
  rw [text_inj]
  cases a
  cases b
  simp

end ClusterNet.Address
