/-!
# Ditlang.Text.Blank

White space in texts: the characters with the Unicode property `White_Space`, and trimming a text
of them at either end. The token scanner has a class of its own, on ASCII bytes alone.
-/

namespace Ditlang
namespace Text

/-- The code points with the property `White_Space`, as closed ranges in ascending order. -/
def blankRanges : List (Nat × Nat) :=
  [(0x09, 0x0D), (0x20, 0x20), (0x85, 0x85), (0xA0, 0xA0), (0x1680, 0x1680), (0x2000, 0x200A),
    (0x2028, 0x2029), (0x202F, 0x202F), (0x205F, 0x205F), (0x3000, 0x3000)]

def isBlank (c : Char) : Bool :=
  blankRanges.any fun (first, last) => first ≤ c.toNat && c.toNat ≤ last

def trimLeft (cs : List Char) : List Char :=
  cs.dropWhile isBlank

def trimRight (cs : List Char) : List Char :=
  (cs.reverse.dropWhile isBlank).reverse

def trimStart (s : String) : String :=
  String.ofList (trimLeft s.toList)

def trimEnd (s : String) : String :=
  String.ofList (trimRight s.toList)

def trim (s : String) : String :=
  trimEnd (trimStart s)

end Text
end Ditlang
