/-
# Quoted and joined texts

A text is quoted between double quotes.  A quote and a backslash are escaped by a backslash; the
null character, tab, line feed and carriage return have escapes of one letter; every other character
that does not show by itself is written by its number in hexadecimal.  All remaining characters, the
single quote included, stand for themselves.

Texts in order are joined with a separator between each two.
-/
import TypedAttributes.Text.Hidden

namespace TypedAttributes.Text

/-- The written form of one character between quotes. -/
def escape (c : Char) : List Char :=
  if c = '"' then ['\\', '"']
  else if c = '\\' then ['\\', '\\']
  else if c = '\x00' then ['\\', '0']
  else if c = '\t' then ['\\', 't']
  else if c = '\r' then ['\\', 'r']
  else if c = '\n' then ['\\', 'n']
  else if isHidden c then
    '\\' :: 'u' :: '\x7b' :: (Nat.toDigits 16 c.toNat ++ ['\x7d'])
  else [c]

/-- A text between quotes. -/
def quoted (text : String) : String :=
  String.ofList ('"' :: (text.toList.flatMap escape ++ ['"']))

/-- Texts in order, with a separator between each two. -/
def joined (separator : String) : List String → String
  | [] => ""
  | [text] => text
  | text :: next :: rest => text ++ separator ++ joined separator (next :: rest)

end TypedAttributes.Text
