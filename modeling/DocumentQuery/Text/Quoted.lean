import DocumentQuery.Text.Extending
import DocumentQuery.Text.Hex
import DocumentQuery.Text.Unprintable

/-!
# Quoted text

A text between double quotes in which every character can be told apart on one printed line: the
quote and the backslash are escaped, and so is every character that is not printed or that would
merge with the one before it. An apostrophe needs no escape.
-/

namespace DocumentQuery.Text
set_option autoImplicit false

/-- A code point in braces behind a backslash and `u`. -/
def escapedCodePoint (c : Char) : List Char :=
  ['\\', 'u', '\x7b'] ++ hex c.toNat ++ ['\x7d']

/-- A character as it stands between the quotes. -/
def quotedChar (c : Char) : List Char :=
  if c = '\x00' then ['\\', '0']
  else if c = '\t' then ['\\', 't']
  else if c = '\n' then ['\\', 'n']
  else if c = '\r' then ['\\', 'r']
  else if c = '\x22' || c = '\\' then ['\\', c]
  else if isExtending c || isUnprintable c then escapedCodePoint c
  else [c]

def quoted (s : String) : String :=
  String.ofList ('\x22' :: s.toList.flatMap quotedChar ++ ['\x22'])

end DocumentQuery.Text
