import ClusterNet.Proofs.BigEndian
import ClusterNet.Wire.Handshake
import Mathlib.Data.List.Basic

/-!
# Greetings

What each side of a handshake makes of the bytes that come, whatever they are and however they are cut. The
accepting side takes six bytes if they begin with its own preamble and name a version that is not zero,
and leaves what is behind them.
-/

namespace ClusterNet.Wire

/-! ## Versions -/

namespace Version

variable {offered : UInt16} {v : Version}

theorem mem_of_negotiate? (h : negotiate? offered = some v) : v ∈ supported ∧ v.number ≤ offered := by
  simpa using List.mem_filter.mp (List.mem_of_getLast? h)

theorem negotiate?_eq_none_iff : negotiate? offered = none ↔ ∀ v ∈ supported, ¬ v.number ≤ offered := by
  rw [negotiate?, List.getLast?_eq_none_iff, List.filter_eq_nil_iff]
  simp

theorem exists_negotiate? : (∃ v, negotiate? offered = some v) ↔ 1 ≤ offered.toNat := by
  have hnone : negotiate? offered = none ↔ ¬ 1 ≤ offered.toNat := by
    rw [negotiate?_eq_none_iff]
    simp [supported, number, UInt16.le_iff_toNat_le]
  rw [← Option.isSome_iff_exists, ← not_iff_not, Option.not_isSome_iff_eq_none, hnone]

theorem ofNumber?_number (v : Version) : ofNumber? v.number = some v := by
  cases v
  decide

end Version

namespace Handshake

/-! ## Taking bytes -/

section

variable {view : Bytes → Handshake} {h : Handshake}

theorem feed_finished (view : Bytes → Handshake) (r : Except HandshakeFault Version) (b : Bytes) :
    feed view (.finished r) b = (.finished r, b) := by
  cases b
  all_goals rfl

theorem feed_nil (view : Bytes → Handshake) (h : Handshake) : feed view h [] = (h, []) := by
  cases h
  all_goals rfl

/-- Where the bytes are cut makes no difference. -/
theorem feed_append (view : Bytes → Handshake) (h : Handshake) (a b : Bytes) :
    feed view h (a ++ b) = feed view (feed view h a).1 ((feed view h a).2 ++ b) := by
  induction a generalizing h with
  | nil => rw [feed_nil, List.nil_append]
  | cons x a ih =>
    cases h with
    | finished r => rw [feed_finished, feed_finished, feed_finished]
    | collecting got => exact ih _

theorem length_feed_le (view : Bytes → Handshake) (h : Handshake) (b : Bytes) :
    (feed view h b).2.length ≤ b.length := by
  induction b generalizing h with
  | nil => simp [feed_nil]
  | cons x b ih =>
    cases h with
    | finished r => simp [feed_finished]
    | collecting got => exact Nat.le_succ_of_le (ih _)

theorem length_feed_lt (view : Bytes → Handshake) (got : Bytes) {b : Bytes} (hb : b ≠ []) :
    (feed view (.collecting got) b).2.length < b.length := by
  cases b with
  | nil => exact absurd rfl hb
  | cons x b => exact Nat.lt_succ_of_le (length_feed_le view _ b)

theorem feed_flatten (view : Bytes → Handshake) (s : Handshake × Bytes) (pieces : List Bytes)
    (hs : feed view s.1 s.2 = s) :
    pieces.foldl (fun s piece => feed view s.1 (s.2 ++ piece)) s = feed view s.1 (s.2 ++ pieces.flatten) := by
  induction pieces generalizing s with
  | nil => rw [List.flatten_nil, List.append_nil, hs, List.foldl_nil]
  | cons piece pieces ih =>
    have hagain : feed view (feed view s.1 (s.2 ++ piece)).1 (feed view s.1 (s.2 ++ piece)).2 =
        feed view s.1 (s.2 ++ piece) := by
      simpa using (feed_append view s.1 (s.2 ++ piece) []).symm
    rw [List.foldl_cons, ih _ hagain, List.flatten_cons, ← List.append_assoc,
      feed_append view s.1 (s.2 ++ piece)]

end

/-! ## The accepting side -/

section

variable {q : Int32} {a b c d e f : UInt8} {rest : Bytes}

theorem feed_stranger (hpreamble : (Bytes.toUInt32 a b c d).toInt32 ≠ q) (rest : Bytes) :
    feed (serverView q) start (a :: b :: c :: d :: rest) =
      (.finished (.error (.strangers q (Bytes.toUInt32 a b c d).toInt32)), rest) := by
  simp only [start, feed, serverView, List.nil_append, List.cons_append, if_neg hpreamble, feed_finished]

theorem feed_offer (hpreamble : (Bytes.toUInt32 a b c d).toInt32 = q) (e f : UInt8) (rest : Bytes) :
    feed (serverView q) start (a :: b :: c :: d :: e :: f :: rest) =
      (.finished ((Version.negotiate? (Bytes.toUInt16 e f)).elim
        (.error (.noCommonVersion (Bytes.toUInt16 e f))) .ok), rest) := by
  simp only [start, feed, serverView, List.nil_append, List.cons_append, if_pos hpreamble]
  cases Version.negotiate? (Bytes.toUInt16 e f) with
  | none => exact feed_finished _ _ rest
  | some v => exact feed_finished _ _ rest

/-- The bytes begin with a preamble, which is in two's complement, and the newest version that is offered,
both with the most significant byte first. -/
def Offers (q : Int32) (offered : Nat) (b : Bytes) : Prop :=
  ∃ b₁ b₂ b₃ b₄ b₅ b₆ rest, b = b₁ :: b₂ :: b₃ :: b₄ :: b₅ :: b₆ :: rest ∧
    Int.bmod (b₁.toNat * 2 ^ 24 + b₂.toNat * 2 ^ 16 + b₃.toNat * 2 ^ 8 + b₄.toNat : Nat) (2 ^ 32) = q.toInt ∧
    b₅.toNat * 2 ^ 8 + b₆.toNat = offered

theorem preamble_iff : (Bytes.toUInt32 a b c d).toInt32 = q ↔
    Int.bmod (a.toNat * 2 ^ 24 + b.toNat * 2 ^ 16 + c.toNat * 2 ^ 8 + d.toNat : Nat) (2 ^ 32) = q.toInt := by
  have hsigned : (Bytes.toUInt32 a b c d).toInt32.toInt = Int.bmod (Bytes.toUInt32 a b c d).toNat (2 ^ 32) :=
    BitVec.toInt_eq_toNat_bmod _
  rw [Nat.add_assoc, Nat.add_assoc, ← Bytes.toNat_toUInt32, ← hsigned, Int32.toInt_inj]

/-- Only an offer that is taken up ends the handshake well, and nothing behind it is touched. -/
theorem feed_server_ok {b : Bytes} {v : Version} (hfeed : feed (serverView q) start b = (.finished (.ok v), rest)) :
    ∃ b₁ b₂ b₃ b₄ b₅ b₆, b = b₁ :: b₂ :: b₃ :: b₄ :: b₅ :: b₆ :: rest ∧
      (Bytes.toUInt32 b₁ b₂ b₃ b₄).toInt32 = q ∧ Version.negotiate? (Bytes.toUInt16 b₅ b₆) = some v := by
  match b with
  | [] => cases hfeed
  | [_] => cases hfeed
  | [_, _] => cases hfeed
  | [_, _, _] => cases hfeed
  | b₁ :: b₂ :: b₃ :: b₄ :: more =>
    by_cases hpreamble : (Bytes.toUInt32 b₁ b₂ b₃ b₄).toInt32 = q
    · match more with
      | [] => simp [start, feed, serverView, hpreamble] at hfeed
      | [_] => simp [start, feed, serverView, hpreamble] at hfeed
      | b₅ :: b₆ :: more =>
        rw [feed_offer hpreamble] at hfeed
        obtain ⟨hresult, rfl⟩ := Prod.mk.inj hfeed
        refine ⟨b₁, b₂, b₃, b₄, b₅, b₆, rfl, hpreamble, ?_⟩
        generalize Version.negotiate? (Bytes.toUInt16 b₅ b₆) = choice at hresult
        cases choice with
        | none => cases hresult
        | some w => exact congrArg some (Except.ok.inj (finished.inj hresult))
    · rw [feed_stranger hpreamble] at hfeed
      cases (Prod.mk.inj hfeed).1

theorem feed_server_offered {b : Bytes} {offered : Nat} (hoffered : 1 ≤ offered) (hb : Offers q offered b) :
    ∃ v ∈ Version.supported, v.number.toNat ≤ offered ∧
      ∃ rest, feed (serverView q) start b = (.finished (.ok v), rest) := by
  obtain ⟨b₁, b₂, b₃, b₄, b₅, b₆, rest, rfl, hpreamble, rfl⟩ := hb
  rw [← Bytes.toNat_toUInt16] at hoffered ⊢
  obtain ⟨v, hversion⟩ := Version.exists_negotiate?.mpr hoffered
  obtain ⟨hsupported, hle⟩ := Version.mem_of_negotiate? hversion
  refine ⟨v, hsupported, UInt16.le_iff_toNat_le.mp hle, rest, ?_⟩
  rw [feed_offer (preamble_iff.mpr hpreamble), hversion]
  rfl

theorem exists_feed_server_ok {b : Bytes} :
    (∃ v rest, feed (serverView q) start b = (.finished (.ok v), rest)) ↔
      ∃ offered, 1 ≤ offered ∧ Offers q offered b := by
  constructor
  · rintro ⟨v, rest, hfeed⟩
    obtain ⟨b₁, b₂, b₃, b₄, b₅, b₆, rfl, hpreamble, hversion⟩ := feed_server_ok hfeed
    refine ⟨_, ?_, b₁, b₂, b₃, b₄, b₅, b₆, rest, rfl, preamble_iff.mp hpreamble, rfl⟩
    rw [← Bytes.toNat_toUInt16]
    exact Version.exists_negotiate?.mp ⟨v, hversion⟩
  · rintro ⟨offered, hoffered, hb⟩
    obtain ⟨v, -, -, hrest⟩ := feed_server_offered hoffered hb
    exact ⟨v, hrest⟩

theorem server_of_ok {b : Bytes} {v : Version} (hfeed : feed (serverView q) start b = (.finished (.ok v), rest)) :
    server q true b = (.ok v, Bytes.ofUInt16 v.number) := by
  simp only [server, hfeed, result, if_pos]

theorem server_of_not {b : Bytes} (w : Bool)
    (hnot : ¬ ∃ v rest, feed (serverView q) start b = (.finished (.ok v), rest)) :
    ∃ e, server q w b = (.error e, []) := by
  unfold server
  generalize hside : feed (serverView q) start b = side at hnot
  obtain ⟨h, rest⟩ := side
  cases h with
  | collecting got => exact ⟨.ended, rfl⟩
  | finished r =>
    cases r with
    | error e => exact ⟨e, rfl⟩
    | ok v => exact absurd ⟨v, rest, rfl⟩ hnot

/-- The accepting side against any bytes at all. -/
structure Answers (q : Int32) (b : Bytes) : Prop where
  accepts_iff : (∃ v, (server q true b).1 = .ok v) ↔ ∃ offered, 1 ≤ offered ∧ Offers q offered b
  accepts : ∀ offered, 1 ≤ offered → Offers q offered b → ∃ v ∈ Version.supported,
    v.number.toNat ≤ offered ∧ server q true b = (.ok v, Bytes.ofUInt16 v.number)
  refuses : (¬ ∃ offered, 1 ≤ offered ∧ Offers q offered b) →
    ∀ writable, ∃ e, server q writable b = (.error e, [])
  /-- Pieces are taken as if they came at once. -/
  pieces : ∀ pieces : List Bytes, pieces.flatten = b →
    pieces.foldl (fun s piece => feed (serverView q) s.1 (s.2 ++ piece)) (start, []) =
      feed (serverView q) start b

theorem answers_any (q : Int32) (b : Bytes) : Answers q b where
  accepts_iff := by
    rw [← exists_feed_server_ok]
    constructor
    · rintro ⟨v, hv⟩
      by_contra hnot
      obtain ⟨e, he⟩ := server_of_not true hnot
      rw [he] at hv
      cases hv
    · rintro ⟨v, rest, hfeed⟩
      exact ⟨v, by rw [server_of_ok hfeed]⟩
  accepts offered hoffered hb := by
    obtain ⟨v, hsupported, hle, rest, hfeed⟩ := feed_server_offered hoffered hb
    exact ⟨v, hsupported, hle, server_of_ok hfeed⟩
  refuses hnot writable := server_of_not writable (mt exists_feed_server_ok.mp hnot)
  pieces pieces hb := by
    rw [feed_flatten (serverView q) (start, []) pieces rfl, hb]
    rfl

end

/-! ## The connecting side -/

theorem feed_client (v : Version) (rest : Bytes) :
    feed clientView start (Bytes.ofUInt16 v.number ++ rest) = (.finished (.ok v), rest) := by
  have hselected : Bytes.toUInt16 (v.number >>> 8).toUInt8 v.number.toUInt8 = v.number :=
    Bytes.toUInt16_ofUInt16 v.number
  simp only [Bytes.ofUInt16, start, feed, clientView, List.cons_append, List.nil_append, hselected,
    Version.ofNumber?_number, feed_finished]

end Handshake

open Handshake

theorem length_hello (p : Int32) : (hello p).length = 6 := rfl

section

variable {p q : Int32}

theorem toInt32_preamble (p : Int32) : (Bytes.toUInt32 (p.toUInt32 >>> 24).toUInt8 (p.toUInt32 >>> 16).toUInt8
    (p.toUInt32 >>> 8).toUInt8 p.toUInt32.toUInt8).toInt32 = p := by
  rw [Bytes.toUInt32_ofUInt32]
  rfl

theorem feed_hello_same (p : Int32) :
    ∃ v, ∀ rest, feed (serverView p) start (hello p ++ rest) = (.finished (.ok v), rest) := by
  obtain ⟨v, hv⟩ := Version.exists_negotiate?.mpr (show 1 ≤ Version.latest.number.toNat by decide)
  refine ⟨v, fun rest => ?_⟩
  have hoffer := feed_offer (toInt32_preamble p) (Version.latest.number >>> 8).toUInt8
    Version.latest.number.toUInt8 rest
  rw [Bytes.toUInt16_ofUInt16, hv] at hoffer
  exact hoffer

theorem feed_hello_other (h : p ≠ q) (rest : Bytes) : ∃ left,
    feed (serverView q) start (hello p ++ rest) = (.finished (.error (.strangers q p)), left) := by
  have hstranger := feed_stranger (q := q) (by rwa [toInt32_preamble])
    (Bytes.ofUInt16 Version.latest.number ++ rest)
  rw [toInt32_preamble] at hstranger
  exact ⟨_, hstranger⟩

end

end ClusterNet.Wire
