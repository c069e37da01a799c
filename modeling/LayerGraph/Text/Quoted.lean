import LayerGraph.Text.Printable

/-!
# Quoted text in messages

The form in which a message shows a string: between double quotes, with everything escaped that
would not show by itself.
-/

namespace LayerGraph

namespace Text

/-- A character inside quotes. Five characters have short escapes; any other that is not
printable is written with its code point in hexadecimal. -/
def quotedChar (c : Char) : List Char :=
  if c = '"' then ['\\', '"']
  else if c = '\\' then ['\\', '\\']
  else if c = '\n' then ['\\', 'n']
  else if c = '\r' then ['\\', 'r']
  else if c = '\t' then ['\\', 't']
  else if c.toNat = 0 then ['\\', '0']
  else if isPrintable c then [c]
  else ['\\', 'u', '\x7b'] ++ Nat.toDigits 16 c.toNat ++ ['\x7d']

def quoted (text : String) : String :=
  String.ofList ('"' :: (text.toList.flatMap quotedChar ++ ['"']))

end Text

end LayerGraph
