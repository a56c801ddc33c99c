import PackPlan.Text.Utf8

/-!
# The code page of old archives

Archives without a mark for UTF-8 name their members in a code page of 256 characters,
the first half of which is ASCII.

## Main definitions

* `CodePage.upper` — the second half of the code page
* `CodePage.decode` — the text of bytes
-/

namespace PackPlan.CodePage

/-- The characters of the bytes from 128 on. -/
def upper : List Char :=
  String.toList <|
    "ÇüéâäàåçêëèïîìÄÅ" ++
    "ÉæÆôöòûùÿÖÜ¢£¥₧ƒ" ++
    "áíóúñÑªº¿⌐¬½¼¡«»" ++
    "░▒▓│┤╡╢╖╕╣║╗╝╜╛┐" ++
    "└┴┬├─┼╞╟╚╔╩╦╠═╬╧" ++
    "╨╤╥╙╘╒╓╫╪┘┌█▄▌▐▀" ++
    "αßΓπΣσµτΦΘΩδ∞φε∩" ++
    "≡±≥≤⌠⌡÷≈°∙·√ⁿ²■\u00a0"

/-- The character of a byte. -/
def decodeByte (b : UInt8) : Char :=
  if b < 0x80 then Char.ofNat b.toNat else upper.getD (b.toNat - 0x80) '?'

/-- The text of bytes. -/
def decode (bytes : Bytes) : List Char := bytes.map decodeByte

end PackPlan.CodePage
