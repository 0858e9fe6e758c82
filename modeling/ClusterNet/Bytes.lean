/-!
# Byte strings

Everything on the wire is a list of bytes. Numbers are written big-endian, the most
significant byte first. A text is carried as its UTF-8 bytes.
-/

namespace ClusterNet

abbrev Bytes := List UInt8

namespace Bytes

/-! ## Texts -/

/-- The UTF-8 bytes of a text. -/
def ofText (s : String) : Bytes := s.toByteArray.data.toList

/-- The text that some bytes spell, if they are UTF-8. -/
def text? (b : Bytes) : Option String := String.fromUTF8? ⟨b.toArray⟩

theorem text?_ofText (s : String) : text? (ofText s) = some s := by
  have h : (⟨(ofText s).toArray⟩ : ByteArray) = s.toByteArray := by
    simp [ofText]
  simp only [text?, h, String.fromUTF8?]
  split
  · rfl
  · rename_i hv
    exact absurd s.isValidUTF8 hv

theorem ofText_of_text? {b : Bytes} {s : String} (h : text? b = some s) : ofText s = b := by
  simp only [text?, String.fromUTF8?] at h
  split at h
  · injection h with h
    subst h
    simp [ofText, String.fromUTF8]
  · exact absurd h (by simp)

/-! ## Numbers -/

def ofUInt16 (n : UInt16) : Bytes := [(n >>> 8).toUInt8, n.toUInt8]

def ofUInt32 (n : UInt32) : Bytes :=
  [(n >>> 24).toUInt8, (n >>> 16).toUInt8, (n >>> 8).toUInt8, n.toUInt8]

def ofUInt64 (n : UInt64) : Bytes :=
  [(n >>> 56).toUInt8, (n >>> 48).toUInt8, (n >>> 40).toUInt8, (n >>> 32).toUInt8,
    (n >>> 24).toUInt8, (n >>> 16).toUInt8, (n >>> 8).toUInt8, n.toUInt8]

def toUInt16 (a b : UInt8) : UInt16 := a.toUInt16 <<< 8 ||| b.toUInt16

def toUInt32 (a b c d : UInt8) : UInt32 :=
  a.toUInt32 <<< 24 ||| b.toUInt32 <<< 16 ||| c.toUInt32 <<< 8 ||| d.toUInt32

def toUInt64 (a b c d e f g h : UInt8) : UInt64 :=
  a.toUInt64 <<< 56 ||| b.toUInt64 <<< 48 ||| c.toUInt64 <<< 40 ||| d.toUInt64 <<< 32 |||
    e.toUInt64 <<< 24 ||| f.toUInt64 <<< 16 ||| g.toUInt64 <<< 8 ||| h.toUInt64

end Bytes

end ClusterNet
