import Simulcast.Text.Printable
/-!
# Quoted text in messages

A message shows a text between quotes so that every character can be told: quotes,
backslashes and the usual control characters get a backslash, and characters that
cannot be seen on their own are shown by their number.
-/

namespace Simulcast

namespace Quoted

/-- A character as a message shows it. -/
def showChar (c : Char) : List Char :=
  if c = '\x00' then ['\\', '0']
  else if c = '\t' then ['\\', 't']
  else if c = '\r' then ['\\', 'r']
  else if c = '\n' then ['\\', 'n']
  else if c = '\\' then ['\\', '\\']
  else if c = '"' then ['\\', '"']
  else if Printable.isPrintable c then [c]
  else ['\\', 'u', '\x7b'] ++ Nat.toDigits 16 c.toNat ++ ['\x7d']

/-- A text as a message shows it. -/
def text (s : String) : String :=
  String.ofList ('"' :: s.toList.flatMap showChar ++ ['"'])

end Quoted

end Simulcast
