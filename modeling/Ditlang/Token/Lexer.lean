import Ditlang.Diagnostic
import Ditlang.Number.Literal
import Ditlang.Token.Basic

/-!
# Ditlang.Token.Lexer

Scanning tokens. White space and comments before a token are skipped; then two bytes that spell a
fence win over one byte that spells a token of its own, and what is left are words and numbers.
Every scan returns the cursor it leaves, also when it fails.
-/

namespace Ditlang

open Source (Location View Feed)

inductive LexFault where
  | unrecognized (c : Char)
  | badNumber (text : String)
  | openComment
  | missingQuote
  | missingBrace
  | pastEnd
deriving DecidableEq, Repr

namespace LexFault

def message : LexFault → String
  | .unrecognized c => "Unrecognized token '" ++ String.singleton c ++ "'"
  | .badNumber text => "Invalid number literal '" ++ text ++ "'"
  | .openComment => "Unterminated block comment"
  | .missingQuote => "Missing closing quote"
  | .missingBrace => "Missing closing '\x7d'"
  | .pastEnd => "Character feed popped past end of input"

def diagnostic (fault : LexFault) (loc : Location) : Diagnostic :=
  let kind := match fault with
    | .pastEnd => FaultKind.critical
    | _ => .malformed
  { kind, message := fault.message, pending := some loc }

end LexFault

structure LexError where
  fault : LexFault
  loc : Location
deriving DecidableEq, Repr

def LexError.diagnostic (e : LexError) : Diagnostic :=
  e.fault.diagnostic e.loc

/-- What a word names: a slot and the kind of value that it holds. -/
structure Resolved where
  slot : SlotId
  kind : ValueKind
deriving DecidableEq, Repr

abbrev Resolver := String → Option Resolved

namespace Lexer

/-- Whether a byte is white space between tokens: space, tab, line feed, form feed or carriage
return. -/
def isBlankByte (b : UInt8) : Bool :=
  b == 32 || b == 9 || b == 10 || b == 12 || b == 13

/-- Where a scan for blank text stands: outside of comments, in a line comment, or in a block
comment that began at some offset. -/
inductive BlankMode where
  | outside
  | line
  | block (start : Nat)
deriving DecidableEq, Repr

/-- The offset at which blank text ends, and the mode there. The text is blank from offset `n` on
as long as the bytes are white space or inside a comment. -/
def scanBlank : BlankMode → Nat → List UInt8 → Nat × BlankMode
  | mode, n, [] => (n, mode)
  | .outside, n, [b] => if isBlankByte b then (n + 1, .outside) else (n, .outside)
  | .outside, n, b :: c :: rest =>
    if isBlankByte b then scanBlank .outside (n + 1) (c :: rest)
    else if b = 47 ∧ c = 47 then scanBlank .line (n + 2) rest
    else if b = 47 ∧ c = 42 then scanBlank (.block n) (n + 2) rest
    else (n, .outside)
  | .line, n, b :: rest =>
    if b = 10 then scanBlank .outside (n + 1) rest else scanBlank .line (n + 1) rest
  | .block start, n, [_] => (n + 1, .block start)
  | .block start, n, b :: c :: rest =>
    if b = 42 ∧ c = 47 then scanBlank .outside (n + 2) rest
    else scanBlank (.block start) (n + 1) (c :: rest)

/-- Skips white space and comments. A block comment has to be closed. -/
def skipBlank (f : Feed) : Except LexError Unit × Feed :=
  let (n, mode) := scanBlank .outside 0 f.rest
  match mode with
  | .block start => (.error ⟨.openComment, (f.advance start).loc⟩, f.advance n)
  | _ => (.ok (), f.advance n)

def take (f : Feed) (n : Nat) (kind : TokenKind) (payload : Payload) : Token × Feed :=
  let g := f.advance n
  (⟨kind, f.loc, g.loc.pos, payload⟩, g)

/-- The kind and payload of a word that is not a number. -/
def classify (resolver : Resolver) (resolveNames : Bool) (word : String) : TokenKind × Payload :=
  match Keyword.ofWord? word with
  | some k => (.keyword k, .none)
  | none =>
    if resolveNames then
      match resolver word with
      | some r => (.value r.kind, .resolved word r.slot)
      | none => (.newName, .word word)
    else
      (.word, .word word)

/-- How many bytes a number at the cursor takes: identifier bytes, and a point with more of them
if a digit follows the point. -/
def numberLength (bs : List UInt8) : Nat :=
  let whole := (bs.takeWhile isIdentifierByte).length
  match bs.drop whole with
  | b :: c :: rest =>
    if b = 46 && isDigitByte c then whole + 1 + ((c :: rest).takeWhile isIdentifierByte).length
    else whole
  | _ => whole

def number (f : Feed) : Except LexError Token × Feed :=
  let n := numberLength f.rest
  let text := Text.ofBytes (f.rest.take n)
  match Number.read? text with
  | some x =>
    let (token, g) := take f n .number (.number x)
    (.ok token, g)
  | none => (.error ⟨.badNumber text, f.loc⟩, f.advance n)

/-- Scans a token at the cursor, which stands on its first byte. -/
def tokenHere (resolver : Resolver) (resolveNames : Bool) (f : Feed) (b : UInt8) :
    Except LexError Token × Feed :=
  match f.peek?.bind (Fence.ofBytes? b) with
  | some fence =>
    let (token, g) := take f 2 (.fence fence) .none
    (.ok token, g)
  | none =>
    match Punct.ofByte? b with
    | some p =>
      let (token, g) := take f 1 (.punct p) .none
      (.ok token, g)
    | none =>
      if isDigitByte b then
        number f
      else if isIdentifierByte b then
        let word := f.rest.takeWhile isIdentifierByte
        let (kind, payload) := classify resolver resolveNames (Text.ofBytes word)
        let (token, g) := take f word.length kind payload
        (.ok token, g)
      else
        (.error ⟨.unrecognized ((Text.firstChar? f.rest).getD '?'), f.loc⟩, f)

/-- Scans the next token. Without `resolveNames` every word that is not a keyword comes back
unresolved. -/
def next (resolver : Resolver) (resolveNames : Bool) (f : Feed) : Except LexError Token × Feed :=
  match skipBlank f with
  | (.error e, g) => (.error e, g)
  | (.ok (), g) =>
    match g.current? with
    | none => (.ok (.eof g.loc), g)
    | some b => tokenHere resolver resolveNames g b

/-- Takes the text up to the next `quote`, and leaves the cursor on it. -/
def scanString (quote : UInt8) (f : Feed) : Except LexError String × Feed :=
  match f.rest.findIdx? (· == quote) with
  | none => (.error ⟨.missingQuote, f.loc⟩, f)
  | some n => (.ok (Text.ofBytes (f.rest.take n)), f.advance n)

/-- The offset of the brace that closes the one before the text; `depth` further braces are open
and `n` bytes have been passed. -/
def closingBrace : Nat → Nat → List UInt8 → Option Nat
  | _, _, [] => none
  | depth, n, b :: rest =>
    if b = 123 then closingBrace (depth + 1) (n + 1) rest
    else if b = 125 then
      match depth with
      | 0 => some n
      | depth + 1 => closingBrace depth (n + 1) rest
    else closingBrace depth (n + 1) rest

/-- Takes everything up to the brace that matches one just taken, and leaves the cursor on it. -/
def captureBraces (f : Feed) : Except LexError View × Feed :=
  match closingBrace 0 0 f.rest with
  | none => (.error ⟨.missingBrace, f.loc⟩, f.advance f.rest.length)
  | some n => (.ok (f.view.slice f.loc.pos (f.loc.pos + n) f.loc), f.advance n)

end Lexer
end Ditlang
