import ResourceGraph.Text.HiddenTable
import ResourceGraph.Text.Lower

/-! Text shown in double quotes, with every character made visible. -/
namespace ResourceGraph.Text

def hexDigits (n : Nat) : List Char := Nat.toDigits 16 n

/-- Quotes and backslashes are escaped, and a character without a visible form is shown by its
code point. -/
def quotedChar (c : Char) : List Char :=
  if c = '"' then ['\\', '"']
  else if c = '\\' then ['\\', '\\']
  else if c = '\t' then ['\\', 't']
  else if c = '\n' then ['\\', 'n']
  else if c = '\r' then ['\\', 'r']
  else if c.toNat = 0 then ['\\', '0']
  else if c.toNat < 0x20 || inRanges hiddenRanges c then
    '\\' :: 'u' :: '{' :: (hexDigits c.toNat ++ ['}'])
  else [c]

def quoted (s : String) : String :=
  String.ofList ('"' :: (s.toList.flatMap quotedChar ++ ['"']))

end ResourceGraph.Text
