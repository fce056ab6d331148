import Ditlang.Number.Basic
import Ditlang.Source.Basic
import Ditlang.Token.Kind
import Ditlang.Value.Ref

/-!
# Ditlang.Token

Tokens: a kind, the place of the first byte, the offset after the last one, and what the token
carries.
-/

namespace Ditlang

open Source (Location)

/-- What a token carries beside its kind. -/
inductive Payload where
  | none
  | word (word : String)
  /-- A word together with the slot that it names. -/
  | resolved (word : String) (slot : SlotId)
  | number (x : Number)
deriving DecidableEq, Repr

structure Token where
  kind : TokenKind
  loc : Location
  /-- The offset one past the last byte. -/
  stop : Nat
  payload : Payload
deriving DecidableEq, Repr

namespace Token

def eof (loc : Location) : Token :=
  ⟨.eof, loc, loc.pos, .none⟩

def word? (t : Token) : Option String :=
  match t.payload with
  | .word w | .resolved w _ => some w
  | _ => none

def word (t : Token) : String :=
  t.word?.getD ""

/-- The slot that a resolved word names. -/
def slot? (t : Token) : Option SlotId :=
  match t.payload with
  | .resolved _ s => some s
  | _ => none

/-- The place just past a token, where something was expected to follow it. -/
def endLoc (t : Token) : Location :=
  ⟨t.stop, t.loc.line, t.loc.col + (t.stop - t.loc.pos)⟩

/-- The name a token spells, if it is a word of any kind. -/
def name? (t : Token) : Option String :=
  match t.kind with
  | .word | .newName | .value _ => t.word?
  | _ => none

end Token
end Ditlang
