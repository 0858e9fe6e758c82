import ClusterNet.Text.Printable

/-!
# Quoted texts

The form in which a message shows a text that may hold anything: in double quotes, with
short escapes for the common controls and `\u{…}` for what cannot be printed.
-/

namespace ClusterNet.Text

/-- A character's code point as an escape, in lower case hexadecimal. -/
def codePointEscape (c : Char) : List Char :=
  '\\' :: 'u' :: '\x7b' :: (Nat.toDigits 16 c.toNat ++ ['\x7d'])

def quotedChar (c : Char) : List Char :=
  if c = '\x00' then ['\\', '0']
  else if c = '\t' then ['\\', 't']
  else if c = '\n' then ['\\', 'n']
  else if c = '\r' then ['\\', 'r']
  else if c = '"' then ['\\', '"']
  else if c = '\\' then ['\\', '\\']
  else if isPrintable c then [c]
  else codePointEscape c

def quoted (s : String) : String :=
  String.ofList ('"' :: (s.toList.flatMap quotedChar ++ ['"']))

end ClusterNet.Text
