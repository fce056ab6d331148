/-!
# Ditlang.Text.Utf8

Texts as lists of UTF-8 bytes. Sources are scanned byte by byte, so offsets and columns count
bytes; what is cut out of a source becomes a text again here.
-/

namespace Ditlang
namespace Text

def bytes (s : String) : List UInt8 :=
  s.toUTF8.toList

/-- The text that a list of bytes encodes, if it is valid UTF-8. -/
def ofBytes? (bs : List UInt8) : Option String :=
  String.fromUTF8? ⟨bs.toArray⟩

/-- The text that a list of bytes encodes; the empty text for bytes that are not UTF-8. -/
def ofBytes (bs : List UInt8) : String :=
  (ofBytes? bs).getD ""

def byteLength (s : String) : Nat :=
  s.utf8ByteSize

/-- The number of bytes of the character whose encoding starts with `b`. -/
def widthOfLead (b : UInt8) : Nat :=
  if b < 0x80 then 1 else if b < 0xE0 then 2 else if b < 0xF0 then 3 else 4

/-- The first character of a list of bytes, if the list starts on a character boundary. -/
def firstChar? (bs : List UInt8) : Option Char :=
  match bs with
  | [] => none
  | b :: _ => (ofBytes? (bs.take (widthOfLead b))).bind (·.toList.head?)

end Text
end Ditlang
