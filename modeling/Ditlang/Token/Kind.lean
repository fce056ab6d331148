/-!
# Ditlang.Token.Kind

The kinds of tokens: fences around guest code, single characters, keywords, and words. The tables
here are the whole lexical grammar; `Keyword.ofWord?`, `Fence.ofBytes?` and `Punct.ofByte?` look a
spelling up in them.
-/

namespace Ditlang

/-- The types that have a keyword of their own. -/
inductive Primitive where
  | thing | str | bool | num | json | cls | inst | func | dit | lang
deriving DecidableEq, Repr

def Primitive.name : Primitive → String
  | .thing => "Thing"
  | .str => "Str"
  | .bool => "Bool"
  | .num => "Num"
  | .json => "JSON"
  | .cls => "Class"
  | .inst => "Instance"
  | .func => "Func"
  | .dit => "Dit"
  | .lang => "Lang"

/-- What a declared name currently holds. -/
inductive ValueKind where
  | thing | str | bool | num | list | json | cls | inst | func | dit | lang
deriving DecidableEq, Repr

/-- The two-character delimiters inside guest function bodies. -/
inductive Fence where
  | triangleLeft | triangleRight | circleLeft | circleRight
deriving DecidableEq, Repr

/-- The tokens of one character. -/
inductive Punct where
  | quoteDouble | quoteSingle | dot | equals | plus | comma | semi | colon
  | parenLeft | parenRight | bracketLeft | bracketRight | braceLeft | braceRight | backslash
deriving DecidableEq, Repr

inductive Keyword where
  | classKw | extendsKw | funcKw | langKw | ditlangKw | voidKw | listOfKw | importKw | fromKw
  | throwKw | returnKw | nullKw | trueKw | falseKw
  | primitive (p : Primitive)
deriving DecidableEq, Repr

inductive TokenKind where
  | fence (f : Fence)
  | punct (p : Punct)
  | keyword (k : Keyword)
  /-- A word that was not looked up. -/
  | word
  /-- A word that no scope declares. -/
  | newName
  | number
  /-- A word that names something holding a value of this kind. -/
  | value (k : ValueKind)
  | eof
deriving DecidableEq, Repr

namespace Fence

def text : Fence → String
  | .triangleLeft => "<|"
  | .triangleRight => "|>"
  | .circleLeft => "(|"
  | .circleRight => "|)"

def ofBytes? (a b : UInt8) : Option Fence :=
  if a = 60 ∧ b = 124 then some .triangleLeft
  else if a = 124 ∧ b = 62 then some .triangleRight
  else if a = 40 ∧ b = 124 then some .circleLeft
  else if a = 124 ∧ b = 41 then some .circleRight
  else none

end Fence

namespace Punct

def char : Punct → Char
  | .quoteDouble => '"'
  | .quoteSingle => '\''
  | .dot => '.'
  | .equals => '='
  | .plus => '+'
  | .comma => ','
  | .semi => ';'
  | .colon => ':'
  | .parenLeft => '('
  | .parenRight => ')'
  | .bracketLeft => '['
  | .bracketRight => ']'
  | .braceLeft => '\x7b'
  | .braceRight => '\x7d'
  | .backslash => '\\'

def all : List Punct :=
  [.quoteDouble, .quoteSingle, .dot, .equals, .plus, .comma, .semi, .colon, .parenLeft, .parenRight,
    .bracketLeft, .bracketRight, .braceLeft, .braceRight, .backslash]

def ofByte? (b : UInt8) : Option Punct :=
  all.find? fun p => p.char.toNat == b.toNat

end Punct

namespace Keyword

def text : Keyword → String
  | .classKw => "class"
  | .extendsKw => "extends"
  | .funcKw => "func"
  | .langKw => "lang"
  | .ditlangKw => "Ditlang"
  | .voidKw => "void"
  | .listOfKw => "listOf"
  | .importKw => "import"
  | .fromKw => "from"
  | .throwKw => "throw"
  | .returnKw => "return"
  | .nullKw => "null"
  | .trueKw => "true"
  | .falseKw => "false"
  | .primitive p => p.name

def all : List Keyword :=
  [.classKw, .extendsKw, .funcKw, .langKw, .ditlangKw, .voidKw, .listOfKw, .importKw, .fromKw,
    .throwKw, .returnKw, .nullKw, .trueKw, .falseKw, .primitive .thing, .primitive .str,
    .primitive .bool, .primitive .num, .primitive .json, .primitive .cls, .primitive .inst,
    .primitive .func, .primitive .dit, .primitive .lang]

def ofWord? (word : String) : Option Keyword :=
  all.find? (·.text == word)

end Keyword

/-- Whether a byte may stand in a word: an ASCII letter, digit or underscore. -/
def isIdentifierByte (b : UInt8) : Bool :=
  (48 ≤ b && b ≤ 57) || (65 ≤ b && b ≤ 90) || (97 ≤ b && b ≤ 122) || b == 95

def isDigitByte (b : UInt8) : Bool :=
  48 ≤ b && b ≤ 57

namespace TokenKind

/-- Whether a token can begin a type in a declaration, a parameter or a return type. -/
def isType : TokenKind → Bool
  | .keyword (.primitive _) | .keyword .voidKw | .value .cls => true
  | _ => false

/-- Whether the value of a token may be followed by a dot and a member. -/
def isDotable : TokenKind → Bool
  | .value k => k != .str && k != .bool && k != .num && k != .list
  | _ => false

def startsExpression : TokenKind → Bool
  | .punct p => p == .quoteDouble || p == .quoteSingle || p == .bracketLeft || p == .braceLeft
  | .keyword k => k == .trueKw || k == .falseKw || k == .nullKw || k == .classKw || k == .funcKw
      || k == .importKw
  | .number | .newName | .value _ => true
  | .fence _ | .word | .eof => false

/-- The spelling of a token in messages. -/
def text : TokenKind → String
  | .fence f => f.text
  | .punct p => String.singleton p.char
  | .keyword k => k.text
  | .word | .newName => "name"
  | .number => "number"
  | .value _ => "value"
  | .eof => "end of input"

end TokenKind
end Ditlang
