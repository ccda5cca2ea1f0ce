import ShaderTypes.Text.Invisible

/-!
# Quoted text

A text between double quotes, in which the quote, the backslash and every character that would not
be seen are written as escapes.
-/

namespace ShaderTypes.Text

/-- The characters that stand for one character between the quotes: a short escape if it has one,
its number if it has no visible form, and otherwise itself. -/
def escape (c : Char) : List Char :=
  if c = '"' then ['\\', '"']
  else if c = '\\' then ['\\', '\\']
  else if c = '\t' then ['\\', 't']
  else if c = '\n' then ['\\', 'n']
  else if c = '\r' then ['\\', 'r']
  else if c.toNat = 0 then ['\\', '0']
  else if isInvisible c then
    ['\\', 'u', Char.ofNat 0x7B] ++ Nat.toDigits 16 c.toNat ++ [Char.ofNat 0x7D]
  else [c]

/-- The text in double quotes. -/
def quoted (text : String) : String :=
  String.ofList ('"' :: text.toList.flatMap escape ++ ['"'])

/-- No character disappears in a quoted text. -/
theorem escape_ne_nil (c : Char) : escape c ≠ [] := by
  unfold escape
  grind

end ShaderTypes.Text
