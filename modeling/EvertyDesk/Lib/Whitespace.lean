import EvertyDesk.Lib.Trimming

/-!
White space and control characters by the tables of the Unicode standard, and texts as
lists of characters: without the white space at both ends, and up to the case of ASCII
letters.
-/

namespace EvertyDesk

def isWhitespace (character : Char) : Bool :=
  let c := character.toNat
  (0x09 ≤ c && c ≤ 0x0D) || (0x2000 ≤ c && c ≤ 0x200A) ||
    [0x20, 0x85, 0xA0, 0x1680, 0x2028, 0x2029, 0x202F, 0x205F, 0x3000].contains c

def isControl (character : Char) : Bool :=
  let c := character.toNat
  c < 0x20 || (0x7F ≤ c && c < 0xA0)

def trim (text : List Char) : List Char := trimBy isWhitespace text

theorem trim_eq_trimBy (text : List Char) : trim text = trimBy isWhitespace text := rfl

@[simp] theorem trim_trim (text : List Char) : trim (trim text) = trim text :=
  trimBy_trimBy isWhitespace text

def eqIgnoreAsciiCase (left right : List Char) : Bool :=
  left.map Char.toLower == right.map Char.toLower

end EvertyDesk
