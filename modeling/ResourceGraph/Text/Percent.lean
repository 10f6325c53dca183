/-!
Percent-encoded text. A `%` that two hexadecimal digits do not follow stands for itself, and so
nothing is refused but bytes that are no text.
-/
namespace ResourceGraph.Text

def hexValue? (b : UInt8) : Option UInt8 :=
  if 0x30 ≤ b && b ≤ 0x39 then some (b - 0x30)
  else if 0x61 ≤ b && b ≤ 0x66 then some (b - 0x61 + 10)
  else if 0x41 ≤ b && b ≤ 0x46 then some (b - 0x41 + 10)
  else none

def percentDecodeBytes : List UInt8 → List UInt8
  | [] => []
  | b :: rest =>
    if b != 0x25 then b :: percentDecodeBytes rest
    else match rest with
      | high :: low :: rest' =>
        match hexValue? high, hexValue? low with
        | some h, some l => (h * 16 + l) :: percentDecodeBytes rest'
        | some _, none => 0x25 :: high :: percentDecodeBytes (low :: rest')
        | none, _ => 0x25 :: percentDecodeBytes (high :: low :: rest')
      | short => 0x25 :: short

/-- The text that `s` encodes, if the bytes are text. -/
def percentDecode? (s : String) : Option String :=
  String.fromUTF8? ⟨(percentDecodeBytes s.toUTF8.data.toList).toArray⟩

end ResourceGraph.Text
