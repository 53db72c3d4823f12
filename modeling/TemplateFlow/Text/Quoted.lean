import TemplateFlow.Text.Hidden

/-!
# Quoted text for diagnostics

Diagnostics show a text between quotation marks with everything escaped that would not be seen as
itself (`Text.isHidden`), so that two texts that differ are also shown differently.
-/

namespace TemplateFlow

namespace Text

/-- The form of one character in quoted text. -/
def escapeDebug (c : Char) : List Char :=
  if c = '\x00' then ['\\', '0']
  else if c = '\t' then ['\\', 't']
  else if c = '\n' then ['\\', 'n']
  else if c = '\r' then ['\\', 'r']
  else if c = '"' then ['\\', '"']
  else if c = '\\' then ['\\', '\\']
  else if isHidden c then ['\\', 'u', '\x7b'] ++ hex c.toNat ++ ['\x7d']
  else [c]

/-- A text between quotation marks, as diagnostics show it. -/
def debugQuote (s : String) : String :=
  String.ofList ('"' :: s.toList.flatMap escapeDebug ++ ['"'])

/-- A list of texts as diagnostics show it. -/
def debugList (texts : List String) : String :=
  "[" ++ join ", " (texts.map debugQuote) ++ "]"

end Text

end TemplateFlow
