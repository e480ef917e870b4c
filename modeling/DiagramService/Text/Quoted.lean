import DiagramService.Text.Hidden

/-!
# Quoted text in messages

A message shows a text in double quotes. Quotes, backslashes and characters that do not show are
escaped, so that the message stays on one line and leaves nothing in doubt.
-/

namespace DiagramService.Text

/-- How one character is shown. -/
def quotedChar (c : Char) : List Char :=
  if c == '\x00' then ['\\', '0']
  else if c == '\t' then ['\\', 't']
  else if c == '\r' then ['\\', 'r']
  else if c == '\n' then ['\\', 'n']
  else if c == '"' || c == '\\' then ['\\', c]
  else if isHidden c then '\\' :: 'u' :: '\x7b' :: Nat.toDigits 16 c.toNat ++ ['\x7d']
  else [c]

/-- The text in quotes. -/
def quoted (s : String) : String :=
  String.ofList ('"' :: s.toList.flatMap quotedChar ++ ['"'])

end DiagramService.Text
