import Ditlang.Host.Name.Mapping
import Ditlang.Host.Name.Script
import Ditlang.Text.Composition
import Ditlang.Text.Punycode

/-!
# Ditlang.Host.Name

The names of hosts. A name is read in any script: characters are replaced by those they stand for,
the text is composed, and every label between points has to obey the rules on marks, joiners and
direction. It is then written in ASCII, labels of other scripts behind the mark `xn--`.
-/

namespace Ditlang
namespace Host
namespace Name

/-- What a character of a name stands for; nothing at all if it may not be used. -/
def reading? (c : Char) : Option (List Char) :=
  if refused.contains c then none
  else if silent.contains c then some []
  else
    match substitutes.row? c with
    | some { first, values := [n], .. } => some [Char.ofNat (n + (c.toNat - first))]
    | some { values, .. } => some (values.map Char.ofNat)
    | none => some [c]

def isPlain (c : Char) : Bool :=
  c.toNat < 128

/-- The ASCII characters that end a name or would be read as something else. -/
def delimiters : List Char :=
  ['%', '#', '/', ':', '<', '>', '?', '@', '[', '\\', ']', '^', '|']

/-- Whether a character may stand in a label. -/
def allowed (c : Char) : Bool :=
  !(c.toNat ≤ 32 || c.toNat = 127 || delimiters.contains c)

/-- Whether the first character that joining does not pass over is in `joining`. -/
def joinsWith (joining : Char → Bool) : List Char → Bool
  | [] => false
  | c :: rest => joining c || (passedOver.contains c && joinsWith joining rest)

/-- Whether each of the two joiners in a label is needed: it follows a sign that silences a vowel,
or, for the one that separates, stands between letters that would join. `before` holds what comes
before, last character first. -/
def joinersFit (before : List Char) : List Char → Bool
  | [] => true
  | c :: rest =>
    let fits :=
      if c.toNat = 0x200C ∨ c.toNat = 0x200D then
        match before with
        | [] => false
        | d :: _ =>
          Text.Composition.combiningClass d == 9 ||
            (c.toNat == 0x200C
              && joinsWith (fun x => leftJoining.contains x || dualJoining.contains x) before
              && joinsWith (fun x => rightJoining.contains x || dualJoining.contains x) rest)
      else
        true
    fits && joinersFit (c :: before) rest

inductive Direction where
  | left | right | arabicNumeral | europeanNumeral | nonspacing | neutral
deriving DecidableEq, Repr

def Direction.of (c : Char) : Direction :=
  if rightward.contains c then .right
  else if arabicNumerals.contains c then .arabicNumeral
  else if europeanNumerals.contains c then .europeanNumeral
  else if nonspacingMarks.contains c then .nonspacing
  else if neutrals.contains c then .neutral
  else .left

/-- Whether the characters of a label agree in direction. A label starts with a letter of either
direction, holds no letters of the other one, ends in a letter or a digit before its last marks,
and does not mix the two kinds of digits. -/
def directionsFit (label : List Char) : Bool :=
  let dirs := label.map Direction.of
  let last := (dirs.reverse.dropWhile (· == .nonspacing)).head?
  match dirs.head? with
  | none => true
  | some .right =>
    dirs.all (· != .left)
      && (last == some .right || last == some .europeanNumeral || last == some .arabicNumeral)
      && !(dirs.contains .europeanNumeral && dirs.contains .arabicNumeral)
  | some .left =>
    dirs.all (fun d => d != .right && d != .arabicNumeral)
      && (last == some .left || last == some .europeanNumeral)
  | some _ => false

/-- Whether a label has characters that are written from right to left. -/
def isRightward (label : List Char) : Bool :=
  label.any fun c => Direction.of c == .right || Direction.of c == .arabicNumeral

/-- Whether a label, spelled out, obeys the rules on single labels. -/
def labelFits (label : List Char) : Bool :=
  label.all allowed && (label.head?.all fun c => !marks.contains c) && joinersFit [] label

/-- The label that a label in a name spells: one that is marked as encoded has to be the encoding of
a composed label in another script. -/
def spelled? (label : List Char) : Option (List Char) :=
  match label with
  | 'x' :: 'n' :: '-' :: '-' :: code => do
    let text ← if code.all isPlain then Text.Punycode.decode? code else none
    if text.all isPlain then none
    else if text.all (fun c => reading? c == some [c]) && Text.composed text == text then
      pure text
    else none
  | _ => some label

def plainLabel (label : List Char) : List Char :=
  if label.all isPlain then label
  else 'x' :: 'n' :: '-' :: '-' :: Text.Punycode.encode label

/-- The parts of a text between points. -/
def labels : List Char → List (List Char)
  | [] => [[]]
  | '.' :: cs => [] :: labels cs
  | c :: cs =>
    match labels cs with
    | label :: rest => (c :: label) :: rest
    | [] => [[c]]

/-- A name in ASCII, if it is one. -/
def toPlain? (name : List Char) : Option (List Char) := do
  let read ← name.mapM reading?
  let written := labels (Text.composed read.flatten)
  let spelled ← written.mapM spelled?
  if spelled.all labelFits && (!spelled.any isRightward || spelled.all directionsFit) then
    pure (List.intersperse ['.'] (written.map plainLabel)).flatten
  else
    none

end Name
end Host
end Ditlang
