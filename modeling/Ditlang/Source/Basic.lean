import Ditlang.Text.Utf8

/-!
# Ditlang.Source

Sources and places in them. A `View` is a range of bytes of a buffer, with the line and column its
first byte had in the text it was cut from; so what is scanned inside a captured body still
reports where it stands in the whole file.
-/

namespace Ditlang
namespace Source

/-- A place: the offset in the view that is scanned, and the line and column (both from 1) in the
whole text. Columns count bytes. -/
structure Location where
  pos : Nat
  line : Nat
  col : Nat
deriving DecidableEq, Repr, Inhabited

def Location.start : Location := ⟨0, 1, 1⟩

def Location.after (l : Location) (b : UInt8) : Location :=
  if b = 10 then ⟨l.pos + 1, l.line + 1, 1⟩ else ⟨l.pos + 1, l.line, l.col + 1⟩

@[simp] theorem Location.after_pos (l : Location) (b : UInt8) : (l.after b).pos = l.pos + 1 := by
  unfold Location.after
  split <;> rfl

/-- A range of bytes of a buffer. -/
structure View where
  buffer : List UInt8
  first : Nat
  last : Nat
  startLoc : Location
deriving Inhabited

namespace View

def ofBytes (bs : List UInt8) : View :=
  ⟨bs, 0, bs.length, .start⟩

def ofText (s : String) : View :=
  ofBytes (Text.bytes s)

def bytes (v : View) : List UInt8 :=
  (v.buffer.drop v.first).take (v.last - v.first)

def text (v : View) : String :=
  Text.ofBytes v.bytes

def length (v : View) : Nat :=
  v.last - v.first

/-- The part of a view between two offsets in it; `at_` is the place of its first byte, whose
offset becomes zero. -/
def slice (v : View) (first last : Nat) (at_ : Location) : View :=
  ⟨v.buffer, v.first + first, v.first + last, ⟨0, at_.line, at_.col⟩⟩

/-- The bytes of the line around an offset of a buffer, without its line feed. -/
def lineBytes (buffer : List UInt8) (offset : Nat) : List UInt8 :=
  let before := ((buffer.take offset).reverse.takeWhile (· ≠ 10)).reverse
  let after := (buffer.drop offset).takeWhile (· ≠ 10)
  before ++ after

/-- The whole line in which an offset of the view lies, also where the line reaches past the ends
of the view. -/
def lineText (v : View) (pos : Nat) : String :=
  Text.ofBytes (lineBytes v.buffer (v.first + pos))

end View

/-- A cursor over a view: the bytes not yet taken and the place of the first of them. -/
structure Feed where
  view : View
  rest : List UInt8
  loc : Location
deriving Inhabited

namespace Feed

def ofView (v : View) : Feed :=
  ⟨v, v.bytes, v.startLoc⟩

def atEnd (f : Feed) : Bool :=
  f.rest.isEmpty

def current? (f : Feed) : Option UInt8 :=
  f.rest.head?

def peek? (f : Feed) : Option UInt8 :=
  f.rest.tail.head?

def pop? (f : Feed) : Option (UInt8 × Feed) :=
  match f.rest with
  | [] => none
  | b :: rest => some (b, { f with rest := rest, loc := f.loc.after b })

/-- Takes `n` bytes, or as many as there are. -/
def advance (f : Feed) : Nat → Feed
  | 0 => f
  | n + 1 =>
    match f.rest with
    | [] => f
    | b :: rest => advance { f with rest := rest, loc := f.loc.after b } n

/-- The offset of the next byte equal to `b`, at or after the cursor. -/
def find? (f : Feed) (b : UInt8) : Option Nat :=
  (f.rest.findIdx? (· == b)).map (f.loc.pos + ·)

@[simp] theorem advance_view (f : Feed) (n : Nat) : (f.advance n).view = f.view := by
  induction n generalizing f with
  | zero => rfl
  | succ n ih =>
    rw [advance]
    split
    · rfl
    · rw [ih]

@[simp] theorem advance_rest (f : Feed) (n : Nat) : (f.advance n).rest = f.rest.drop n := by
  induction n generalizing f with
  | zero => rfl
  | succ n ih =>
    rw [advance]
    split
    · rename_i h; simp [h]
    · rename_i b rest h; rw [ih, h, List.drop_succ_cons]

/-- Taking bytes moves the place past each of them. -/
theorem advance_loc (f : Feed) (n : Nat) :
    (f.advance n).loc = (f.rest.take n).foldl Location.after f.loc := by
  induction n generalizing f with
  | zero => rfl
  | succ n ih =>
    rw [advance]
    split
    · rename_i h; simp [h]
    · rename_i b rest h; rw [ih, h, List.take_succ_cons, List.foldl_cons]

theorem advance_add (f : Feed) (m n : Nat) : f.advance (m + n) = (f.advance m).advance n := by
  induction m generalizing f with
  | zero => rw [Nat.zero_add, advance]
  | succ m ih =>
    rw [Nat.succ_add, advance, advance]
    split
    · rename_i h
      cases n with
      | zero => rw [advance]
      | succ n => rw [advance, h]
    · exact ih _

end Feed
end Source
end Ditlang
