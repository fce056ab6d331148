import Ditlang.Proofs.Text
import Ditlang.Proofs.Token.Places

/-!
# Ditlang.Proofs.Token.Pointer

Scanning by offsets. A `Feed` carries the bytes that are left, so it cannot look at a byte that is not
there. A `Pointer` carries nothing but an offset: every look goes to the buffer, every text is cut out of
it, and what must not be done is a `Trap`. A `Scan` is a computation with a pointer, and `loop` goes round
as long as there are bytes to take.

* `View.Textual`: a view of a text that begins and ends between characters.
* `Feed.Sound`: a cursor on such a view. From its pointer no look is trapped (`eof_bind`, `current_bind`,
  `peek_bind`, `pop_bind`), and each says what the cursor says.
* `Feed.Between`: the cursor stands between characters; texts that are cut from there on to another such
  place are those of the bytes that were passed (`Feed.Sound.text_eq`).
-/

namespace Ditlang
namespace Source

/-- What must not happen to a scan. -/
inductive Trap where
  /-- A byte or a range that is not there. -/
  | outOfBounds
  /-- A text that begins or ends inside a character. -/
  | insideCharacter
  /-- A count below zero. -/
  | underflow
  /-- A byte taken at the end. -/
  | pastEnd
  /-- More rounds of a loop than there are bytes to take. -/
  | endless
deriving DecidableEq, Repr

/-- The bytes between two offsets, which have to be boundaries. -/
def cut (bs : List UInt8) (first last : Nat) : Except Trap (List UInt8) :=
  if last < first ∨ bs.length < last then .error .outOfBounds
  else if Text.isBoundary bs first && Text.isBoundary bs last then
    .ok ((bs.drop first).take (last - first))
  else .error .insideCharacter

def cutText (bs : List UInt8) (first last : Nat) : Except Trap String := do
  match Text.ofBytes? (← cut bs first last) with
  | some s => .ok s
  | none => .error .insideCharacter

namespace View

/-- The bytes in view, cut out of the buffer. -/
def shown (v : View) : Except Trap (List UInt8) :=
  cut v.buffer v.first v.last

def size (v : View) : Except Trap Nat :=
  if v.last < v.first then .error .underflow else .ok (v.last - v.first)

/-- The line in which an offset of the view lies: the buffer is searched for line feeds in both
directions, from the end if the offset lies behind it. -/
def quoted (v : View) (pos : Nat) : Except Trap String :=
  let here := min (v.first + pos) v.buffer.length
  let first := match (v.buffer.take here).reverse.findIdx? (· == 10) with
    | some i => here - i
    | none => 0
  let last := match (v.buffer.drop here).findIdx? (· == 10) with
    | some i => here + i
    | none => v.buffer.length
  cutText v.buffer first last

end View

/-- An offset in a view, with its line and column. -/
structure Pointer where
  view : View
  loc : Location

namespace Pointer

def ofView (v : View) : Pointer :=
  ⟨v, v.startLoc⟩

def eof (p : Pointer) : Except Trap Bool := do
  return (← p.view.size) ≤ p.loc.pos

def byte (n : Nat) (p : Pointer) : Except Trap UInt8 := do
  match (← p.view.shown)[n]? with
  | some b => .ok b
  | none => .error .outOfBounds

def current (p : Pointer) : Except Trap UInt8 :=
  p.byte p.loc.pos

def peek (p : Pointer) : Except Trap (Option UInt8) := do
  return (← p.view.shown)[p.loc.pos + 1]?

def pop (p : Pointer) : Except Trap (UInt8 × Pointer) := do
  if ← p.eof then
    .error .pastEnd
  else
    let b ← p.current
    return (b, { p with loc := p.loc.after b })

/-- The offset of the next such byte. -/
def find (b : UInt8) (p : Pointer) : Except Trap (Option Nat) := do
  let bs ← p.view.shown
  if bs.length < p.loc.pos then
    .error .outOfBounds
  else
    return ((bs.drop p.loc.pos).findIdx? (· == b)).map (p.loc.pos + ·)

def text (first last : Nat) (p : Pointer) : Except Trap String := do
  cutText (← p.view.shown) first last

/-- The text from an offset of the view to its end. -/
def textFrom (first : Nat) (p : Pointer) : Except Trap String := do
  let bs ← p.view.shown
  cutText bs first bs.length

def char (p : Pointer) : Except Trap Char := do
  return (← p.textFrom p.loc.pos).toList.head?.getD '?'

end Pointer

/-- A computation with a pointer: it ends with a result or an error and leaves a pointer, or it is
trapped. -/
def Scan (ε α : Type) : Type :=
  Pointer → Except Trap (Except ε α × Pointer)

namespace Scan

variable {ε α β σ : Type}

protected def pure (a : α) : Scan ε α := fun p => .ok (.ok a, p)

protected def bind (x : Scan ε α) (f : α → Scan ε β) : Scan ε β := fun p =>
  match x p with
  | .ok (.ok a, q) => f a q
  | .ok (.error e, q) => .ok (.error e, q)
  | .error t => .error t

instance : Monad (Scan ε) where
  pure := Scan.pure
  bind := Scan.bind

def fail (e : ε) : Scan ε α := fun p => .ok (.error e, p)

/-- Reads something off the pointer. -/
def look (x : Pointer → Except Trap α) : Scan ε α := fun p =>
  match x p with
  | .ok a => .ok (.ok a, p)
  | .error t => .error t

def pop : Scan ε UInt8 := fun p =>
  match p.pop with
  | .ok (b, q) => .ok (.ok b, q)
  | .error t => .error t

def eof : Scan ε Bool := look Pointer.eof
def current : Scan ε UInt8 := look Pointer.current
def peek : Scan ε (Option UInt8) := look Pointer.peek
def loc : Scan ε Location := look fun p => .ok p.loc
def view : Scan ε View := look fun p => .ok p.view

/-- Goes round a loop, from a value to the next one or to the result, so often at most. -/
def rounds (round : σ → Scan ε (σ ⊕ α)) : Nat → σ → Scan ε α
  | 0, _ => fun _ => .error .endless
  | n + 1, s => do
    match ← round s with
    | .inl s' => rounds round n s'
    | .inr a => return a

/-- Goes round a loop: every round takes a byte, or it is the last one. -/
def loop (round : σ → Scan ε (σ ⊕ α)) (s : σ) : Scan ε α := fun p =>
  rounds round (p.view.length - p.loc.pos + 1) s p

/-- Takes a byte if there is one and it is such. -/
def skipRound (p : UInt8 → Bool) (_ : Unit) : Scan ε (Unit ⊕ Unit) := do
  if ← eof then
    return .inr ()
  else if p (← current) then
    let _ ← pop
    return .inl ()
  else
    return .inr ()

/-- Takes bytes as long as they are such. -/
def skipWhile (p : UInt8 → Bool) : Scan ε Unit :=
  loop (skipRound p) ()

end Scan

/-! ## Views of texts -/

/-- A view of a text, from one place between characters to another. -/
structure View.Textual (v : View) : Prop extends v.Placed where
  first : Text.Boundary v.buffer v.first
  last : Text.Boundary v.buffer v.last

/-- The place of a cursor is between characters. -/
def Feed.Between (f : Feed) : Prop :=
  Text.Boundary f.view.buffer (f.view.first + f.loc.pos)

/-- A cursor on a view of a text. -/
structure Feed.Sound (f : Feed) : Prop where
  view : f.view.Textual
  on : f.On f.view

/-- The offset of a cursor. -/
def Feed.pointer (f : Feed) : Pointer :=
  ⟨f.view, f.loc⟩

theorem cut_eq {bs : List UInt8} {m n : Nat} (hm : Text.Boundary bs m) (hn : Text.Boundary bs n)
    (hle : m ≤ n) : cut bs m n = .ok ((bs.drop m).take (n - m)) := by
  have hlast := hn.le_length
  rw [cut, if_neg (by omega), hm.isBoundary, hn.isBoundary]
  rfl

theorem cutText_eq {bs : List UInt8} {m n : Nat} (hm : Text.Boundary bs m) (hn : Text.Boundary bs n)
    (hle : m ≤ n) : cutText bs m n = .ok (Text.ofBytes ((bs.drop m).take (n - m))) := by
  obtain ⟨s, hs⟩ := hm.exists_between hn hle
  rw [cutText, cut_eq hm hn hle, hs]
  show (match Text.ofBytes? (Text.bytes s) with
    | some s => Except.ok s
    | none => Except.error Trap.insideCharacter) = _
  rw [Text.ofBytes?_bytes, Text.ofBytes_bytes]

/-- Inside a character no text ends. -/
example : cutText (Text.bytes "né") 0 2 = .error .insideCharacter := by decide +kernel

/-! ## Lines -/

section

variable {b : UInt8} {bs : List UInt8} {n : Nat}

theorem takeWhile_of_findIdx?_eq_some (h : bs.findIdx? (· == b) = some n) :
    bs.takeWhile (· ≠ b) = bs.take n ∧ bs[n]? = some b := by
  induction bs generalizing n with
  | nil => cases h
  | cons x bs ih =>
    rw [List.findIdx?_cons] at h
    split at h
    · rename_i hx
      cases h
      simp_all
    · rename_i hx
      obtain ⟨m, hm, rfl⟩ := Option.map_eq_some_iff.1 h
      obtain ⟨htake, hget⟩ := ih hm
      have hne : x ≠ b := by simpa using hx
      exact ⟨by rw [List.takeWhile_cons, if_pos (by simpa using hne), htake, List.take_succ_cons], hget⟩

theorem takeWhile_of_findIdx?_eq_none (h : bs.findIdx? (· == b) = none) : bs.takeWhile (· ≠ b) = bs := by
  rw [List.takeWhile_eq_self_iff]
  intro x hx
  have hne : x ≠ b := by simpa using List.findIdx?_eq_none_iff.1 h x hx
  simpa using hne

end

/-- The offset at which a line starts: behind the last line feed before a place of it. -/
theorem lineStart (s : String) {here : Nat} (hhere : here ≤ (Text.bytes s).length) :
    let first := match ((Text.bytes s).take here).reverse.findIdx? (· == 10) with
      | some i => here - i
      | none => 0
    Text.Boundary (Text.bytes s) first ∧ first ≤ here ∧
      lastLine ((Text.bytes s).take here) = ((Text.bytes s).take here).drop first := by
  have hlen : ((Text.bytes s).take here).length = here := List.length_take_of_le hhere
  dsimp only
  split
  · rename_i i hfind
    obtain ⟨htake, hget⟩ := takeWhile_of_findIdx?_eq_some hfind
    have hi : i < here := by
      have := (List.getElem?_eq_some_iff.1 hget).1
      rwa [List.length_reverse, hlen] at this
    have hfeed : (Text.bytes s)[here - 1 - i]? = some 10 := by
      rw [List.getElem?_reverse (by omega), hlen, List.getElem?_take_of_lt (by omega)] at hget
      exact hget
    have hbeside := (Text.boundary_beside hfeed (by decide)).2
    refine ⟨?_, Nat.sub_le _ _, ?_⟩
    · rwa [show here - 1 - i + 1 = here - i by omega] at hbeside
    · rw [lastLine, htake, List.take_reverse, List.reverse_reverse, hlen]
  · rename_i hfind
    refine ⟨.zero s, Nat.zero_le _, ?_⟩
    rw [lastLine, takeWhile_of_findIdx?_eq_none hfind, List.reverse_reverse, List.drop_zero]

/-- The offset at which a line ends: the next line feed, or the end. -/
theorem lineEnd (s : String) {here : Nat} (hhere : here ≤ (Text.bytes s).length) :
    let last := match ((Text.bytes s).drop here).findIdx? (· == 10) with
      | some i => here + i
      | none => (Text.bytes s).length
    Text.Boundary (Text.bytes s) last ∧ here ≤ last ∧
      ((Text.bytes s).drop here).takeWhile (· ≠ 10) = ((Text.bytes s).drop here).take (last - here) := by
  dsimp only
  split
  · rename_i i hfind
    obtain ⟨htake, hget⟩ := takeWhile_of_findIdx?_eq_some hfind
    rw [List.getElem?_drop] at hget
    exact ⟨(Text.boundary_beside hget (by decide)).1, Nat.le_add_right _ _,
      by rw [htake, Nat.add_sub_cancel_left]⟩
  · rename_i hfind
    refine ⟨.length s, hhere, ?_⟩
    rw [takeWhile_of_findIdx?_eq_none hfind, List.take_of_length_le (by rw [List.length_drop])]

/-- Behind the end of a buffer its last line goes on. -/
theorem View.lineBytes_min (bs : List UInt8) (n : Nat) :
    View.lineBytes bs n = View.lineBytes bs (min n bs.length) := by
  rcases Nat.le_total n bs.length with hle | hle
  · rw [Nat.min_eq_left hle]
  · rw [Nat.min_eq_right hle, View.lineBytes, View.lineBytes, List.take_of_length_le hle,
      List.drop_of_length_le hle, List.take_length, List.drop_length]

namespace View.Textual

variable {v : View}

theorem ofText (s : String) : (View.ofText s).Textual where
  toPlaced := .ofText s
  first := .zero s
  last := .length s

theorem slice (hv : v.Textual) {l : Location} (hl : l.On v) {n : Nat} (hn : l.pos + n ≤ v.length)
    (hfirst : Text.Boundary v.buffer (v.first + l.pos))
    (hlast : Text.Boundary v.buffer (v.first + (l.pos + n))) :
    (v.slice l.pos (l.pos + n) l).Textual where
  toPlaced := hv.toPlaced.slice hl hn
  first := hfirst
  last := hlast

theorem shown_eq (hv : v.Textual) : v.shown = .ok v.bytes :=
  cut_eq hv.first hv.last hv.first_le

theorem size_eq (hv : v.Textual) : v.size = .ok v.length := by
  have hle := hv.first_le
  rw [View.size, if_neg (by omega)]
  rfl

/-- A place between characters of the buffer is one of the view. -/
theorem boundary_bytes (hv : v.Textual) {n : Nat} (hn : n ≤ v.length)
    (h : Text.Boundary v.buffer (v.first + n)) : Text.Boundary v.bytes n := by
  have hle := hv.first_le
  have hend := hv.first.drop hv.last hle
  have hhere := hv.first.drop h (Nat.le_add_right _ _)
  rw [Nat.add_sub_cancel_left] at hhere
  exact hhere.take hend hn

/-- The line around an offset is cut out between characters. -/
theorem quoted_eq (hv : v.Textual) (pos : Nat) : v.quoted pos = .ok (v.lineText pos) := by
  obtain ⟨s, hs⟩ := hv.first.exists_bytes
  have hhere : min (v.first + pos) (Text.bytes s).length ≤ (Text.bytes s).length := Nat.min_le_right _ _
  rw [quoted, lineText, lineBytes_min, hs]
  generalize min (v.first + pos) (Text.bytes s).length = here at hhere ⊢
  obtain ⟨hfirst, hle, hbefore⟩ := lineStart s hhere
  obtain ⟨hlast, hle', hafter⟩ := lineEnd s hhere
  rw [cutText_eq hfirst hlast (hle.trans hle')]
  generalize (match ((Text.bytes s).take here).reverse.findIdx? (· == 10) with
    | some i => here - i
    | none => 0) = first at *
  generalize (match ((Text.bytes s).drop here).findIdx? (· == 10) with
    | some i => here + i
    | none => (Text.bytes s).length) = last at *
  have hcut : ((Text.bytes s).drop first).take (last - first) =
      ((Text.bytes s).take here).drop first ++ ((Text.bytes s).drop here).take (last - here) := by
    have hsum : last - first = here - first + (last - here) := by omega
    have hdrop : ((Text.bytes s).drop first).drop (here - first) = (Text.bytes s).drop here := by
      rw [List.drop_drop]
      congr 1
      omega
    rw [hsum, List.take_add, hdrop, List.drop_take]
  rw [hcut, ← hbefore, ← hafter]
  rfl

end View.Textual

/-! ## Cursors -/

section

variable {f : Feed} {b : UInt8} {rest : List UInt8}

theorem Feed.peek?_cons (hrest : f.rest = b :: rest) : f.peek? = rest.head? := by
  rw [Feed.peek?, hrest, List.tail_cons]

theorem Feed.rest_advance_cons (hrest : f.rest = b :: rest) (n : Nat) :
    (f.advance (n + 1)).rest = rest.drop n := by
  rw [Feed.advance_rest, hrest, List.drop_succ_cons]

end

theorem View.Textual.sound_ofView {v : View} (hv : v.Textual) : (Feed.ofView v).Sound :=
  ⟨hv, hv.on_ofView⟩

theorem View.Textual.between_ofView {v : View} (hv : v.Textual) : (Feed.ofView v).Between := by
  have hpos : (Feed.ofView v).loc.pos = 0 := by rw [Feed.ofView, hv.start, View.place]
  rw [Feed.Between, hpos]
  exact hv.first

namespace Feed.Sound

variable {f : Feed} {b : UInt8} {n : Nat} {rest : List UInt8}

theorem length_rest (hf : f.Sound) : f.loc.pos + f.rest.length = f.view.length :=
  hf.on.length_rest hf.view.toPlaced

theorem advance (hf : f.Sound) (n : Nat) : (f.advance n).Sound := by
  have hon := hf.on.advance hf.view.toPlaced n
  exact ⟨by rw [Feed.advance_view]; exact hf.view, by rw [Feed.advance_view]; exact hon⟩

theorem pos_advance (hf : f.Sound) (hn : n ≤ f.rest.length) :
    (f.advance n).loc.pos = f.loc.pos + n := by
  have hlen := hf.length_rest
  have hlen' := (hf.advance n).length_rest
  rw [Feed.advance_rest, List.length_drop, Feed.advance_view] at hlen'
  omega

theorem getElem?_bytes (hf : f.Sound) (n : Nat) : f.view.bytes[f.loc.pos + n]? = f.rest[n]? := by
  rw [hf.on.rest, List.getElem?_drop]

theorem getElem?_buffer (hf : f.Sound) (hb : f.rest[n]? = some b) :
    f.view.buffer[f.view.first + (f.loc.pos + n)]? = some b := by
  have hn := (List.getElem?_eq_some_iff.1 hb).1
  have hlen := hf.length_rest
  rw [← View.Placed.getElem?_bytes (by omega), hf.getElem?_bytes, hb]

/-- Before and after a byte below 128 a cursor is between characters. -/
theorem between_beside (hf : f.Sound) (hb : f.rest[n]? = some b) (hlow : b < 0x80) :
    (f.advance n).Between ∧ (f.advance (n + 1)).Between := by
  have hn := (List.getElem?_eq_some_iff.1 hb).1
  obtain ⟨s, hs⟩ := hf.view.first.exists_bytes
  have hbeside := Text.boundary_beside (hs ▸ hf.getElem?_buffer hb) hlow
  rw [← hs] at hbeside
  refine ⟨?_, ?_⟩
  · rw [Feed.Between, Feed.advance_view, hf.pos_advance hn.le]
    exact hbeside.1
  · rw [Feed.Between, Feed.advance_view, hf.pos_advance hn]
    exact hbeside.2

theorem between_end (hf : f.Sound) : (f.advance f.rest.length).Between := by
  have hfirst := hf.view.first_le
  rw [Feed.Between, Feed.advance_view, hf.pos_advance le_rfl, hf.length_rest, View.length,
    Nat.add_sub_cancel' hfirst]
  exact hf.view.last

/-! ### What a pointer sees -/

theorem eof_eq (hf : f.Sound) : f.pointer.eof = .ok f.atEnd := by
  have hlen := hf.length_rest
  have hend : decide (f.view.length ≤ f.loc.pos) = f.atEnd := by
    rw [Bool.eq_iff_iff, decide_eq_true_iff, Feed.atEnd, List.isEmpty_iff_length_eq_zero]
    omega
  rw [Pointer.eof, pointer, hf.view.size_eq, ← hend]
  rfl

/-- The byte at the place of a cursor is seen from everywhere in the view. -/
theorem byte_eq (hf : f.Sound) (hrest : f.rest = b :: rest) (m : Nat) :
    (f.advance m).pointer.byte f.loc.pos = .ok b := by
  have hview : (f.advance m).pointer.view = f.view := f.advance_view m
  have hget : f.view.bytes[f.loc.pos]? = some b := by
    rw [← Nat.add_zero f.loc.pos, hf.getElem?_bytes, hrest]
    rfl
  rw [Pointer.byte, hview, hf.view.shown_eq]
  show (match f.view.bytes[f.loc.pos]? with
    | some b => Except.ok b
    | none => Except.error Trap.outOfBounds) = _
  rw [hget]

theorem current_eq (hf : f.Sound) (hrest : f.rest = b :: rest) : f.pointer.current = .ok b :=
  hf.byte_eq hrest 0

theorem peek_eq (hf : f.Sound) : f.pointer.peek = .ok f.peek? := by
  have hget : f.view.bytes[f.loc.pos + 1]? = f.peek? := by
    rw [hf.getElem?_bytes, Feed.peek?, ← List.drop_one, List.head?_drop]
  rw [Pointer.peek, pointer, hf.view.shown_eq, ← hget]
  rfl

theorem pop_eq (hf : f.Sound) (hrest : f.rest = b :: rest) :
    f.pointer.pop = .ok (b, (f.advance 1).pointer) := by
  have hmore : f.atEnd = false := by rw [Feed.atEnd, hrest]; rfl
  have hnext : (f.advance 1).pointer = ⟨f.view, f.loc.after b⟩ := by
    rw [Feed.advance, hrest]
    rfl
  rw [Pointer.pop, hf.eof_eq, hmore, hf.current_eq hrest, hnext]
  rfl

theorem find_eq (hf : f.Sound) (b : UInt8) :
    f.pointer.find b = .ok ((f.rest.findIdx? (· == b)).map (f.loc.pos + ·)) := by
  have hlen := hf.length_rest
  rw [Pointer.find, pointer, hf.view.shown_eq]
  show (if f.view.bytes.length < f.loc.pos then Except.error Trap.outOfBounds else _) = _
  rw [hf.view.length_bytes, if_neg (by omega), hf.on.rest]
  rfl

/-- The text of the bytes that were passed since a place between characters. -/
theorem text_eq (hf : f.Sound) (hstart : f.Between) (hn : n ≤ f.rest.length)
    (hend : (f.advance n).Between) (m : Nat) :
    (f.advance m).pointer.text f.loc.pos (f.loc.pos + n) = .ok (Text.ofBytes (f.rest.take n)) := by
  have hlen := hf.length_rest
  have hview : (f.advance m).pointer.view = f.view := f.advance_view m
  rw [Feed.Between, Feed.advance_view, hf.pos_advance hn] at hend
  rw [Pointer.text, hview, hf.view.shown_eq]
  show cutText f.view.bytes _ _ = _
  rw [cutText_eq (hf.view.boundary_bytes (by omega) hstart) (hf.view.boundary_bytes (by omega) hend)
    (by omega), Nat.add_sub_cancel_left, hf.on.rest]

theorem exists_rest (hf : f.Sound) (hstart : f.Between) : ∃ s, f.rest = Text.bytes s := by
  have hlen := hf.length_rest
  rw [hf.on.rest]
  exact (hf.view.boundary_bytes (by omega) hstart).exists_drop

/-- From a place between characters to another one a text was passed. -/
theorem exists_take (hf : f.Sound) (hstart : f.Between) (hn : n ≤ f.rest.length)
    (hend : (f.advance n).Between) : ∃ s, f.rest.take n = Text.bytes s := by
  have hlen := hf.length_rest
  rw [Feed.Between, Feed.advance_view, hf.pos_advance hn] at hend
  obtain ⟨s, hs⟩ := (hf.view.boundary_bytes (by omega) hstart).exists_between
    (hf.view.boundary_bytes (by omega) hend) (Nat.le_add_right _ _)
  rw [Nat.add_sub_cancel_left, ← hf.on.rest] at hs
  exact ⟨s, hs⟩

/-- The text that was left at a place between characters. -/
theorem textFrom_eq (hf : f.Sound) (hstart : f.Between) (m : Nat) :
    (f.advance m).pointer.textFrom f.loc.pos = .ok (Text.ofBytes f.rest) := by
  have hlen := hf.length_rest
  have hview : (f.advance m).pointer.view = f.view := f.advance_view m
  have hplace := hf.view.boundary_bytes (by omega) hstart
  obtain ⟨t, ht⟩ := hplace.exists_bytes
  have hend : Text.Boundary f.view.bytes f.view.bytes.length := by
    rw [ht]
    exact .length t
  rw [Pointer.textFrom, hview, hf.view.shown_eq]
  show cutText f.view.bytes f.loc.pos f.view.bytes.length = _
  rw [cutText_eq hplace hend hplace.le_length, List.take_of_length_le (by rw [List.length_drop]),
    hf.on.rest]

theorem char_eq (hf : f.Sound) (hstart : f.Between) :
    f.pointer.char = .ok ((Text.firstChar? f.rest).getD '?') := by
  obtain ⟨s, hs⟩ := hf.exists_rest hstart
  have htext : f.pointer.textFrom f.pointer.loc.pos = .ok (Text.ofBytes f.rest) :=
    hf.textFrom_eq hstart 0
  rw [Pointer.char, htext, hs, Text.ofBytes_bytes, Text.firstChar?_bytes]
  rfl

end Feed.Sound

/-! ## Computations from a cursor -/

namespace Scan

variable {ε α β σ : Type} {f : Feed} {b : UInt8} {rest : List UInt8}

theorem bind_ok {x : Scan ε α} {a : α} {p q : Pointer} (h : x p = .ok (.ok a, q))
    (k : α → Scan ε β) : (x >>= k) p = k a q := by
  show Scan.bind x k p = _
  rw [Scan.bind, h]

theorem bind_error {x : Scan ε α} {e : ε} {p q : Pointer} (h : x p = .ok (.error e, q))
    (k : α → Scan ε β) : (x >>= k) p = .ok (.error e, q) := by
  show Scan.bind x k p = _
  rw [Scan.bind, h]

/-- What follows a computation depends on how that ended. -/
theorem bind_congr {x y : Scan ε α} {p q : Pointer} (h : x p = y q) (k : α → Scan ε β) :
    (x >>= k) p = (y >>= k) q := by
  show Scan.bind x k p = Scan.bind y k q
  rw [Scan.bind, Scan.bind, h]

theorem look_bind {x : Pointer → Except Trap α} {a : α} {p : Pointer} (h : x p = .ok a)
    (k : α → Scan ε β) : (look x >>= k) p = k a p :=
  bind_ok (by rw [look, h]) k

theorem eof_bind (hf : f.Sound) (k : Bool → Scan ε β) : (eof >>= k) f.pointer = k f.atEnd f.pointer :=
  look_bind hf.eof_eq k

theorem eof_nil (hf : f.Sound) (hrest : f.rest = []) (x y : Scan ε α) :
    (do if ← eof then x else y) f.pointer = x f.pointer := by
  have hend : f.atEnd = true := by rw [Feed.atEnd, hrest]; rfl
  rw [eof_bind hf, if_pos hend]

theorem eof_cons (hf : f.Sound) (hrest : f.rest = b :: rest) (x y : Scan ε α) :
    (do if ← eof then x else y) f.pointer = y f.pointer := by
  have hmore : f.atEnd = false := by rw [Feed.atEnd, hrest]; rfl
  rw [eof_bind hf, hmore, if_neg Bool.false_ne_true]

theorem current_bind (hf : f.Sound) (hrest : f.rest = b :: rest) (k : UInt8 → Scan ε β) :
    (current >>= k) f.pointer = k b f.pointer :=
  look_bind (hf.current_eq hrest) k

theorem peek_bind (hf : f.Sound) (hrest : f.rest = b :: rest) (k : Option UInt8 → Scan ε β) :
    (peek >>= k) f.pointer = k rest.head? f.pointer := by
  have hpeek := hf.peek_eq
  rw [Feed.peek?_cons hrest] at hpeek
  exact look_bind hpeek k

theorem loc_bind (k : Location → Scan ε β) : (loc >>= k) f.pointer = k f.loc f.pointer :=
  bind_ok rfl k

theorem view_bind (k : View → Scan ε β) : (view >>= k) f.pointer = k f.view f.pointer :=
  bind_ok rfl k

theorem pop_bind (hf : f.Sound) (hrest : f.rest = b :: rest) (k : UInt8 → Scan ε β) :
    (pop >>= k) f.pointer = k b (f.advance 1).pointer :=
  bind_ok (by rw [pop, hf.pop_eq hrest]) k

/-! ### Loops -/

variable {round : σ → Scan ε (σ ⊕ α)} {s s' : σ} {p q : Pointer} {n : Nat}

theorem rounds_inl (h : round s p = .ok (.ok (.inl s'), q)) :
    rounds round (n + 1) s p = rounds round n s' q :=
  bind_ok h _

theorem rounds_inr {a : α} (h : round s p = .ok (.ok (.inr a), q)) :
    rounds round (n + 1) s p = .ok (.ok a, q) :=
  bind_ok h _

theorem rounds_error {e : ε} (h : round s p = .ok (.error e, q)) :
    rounds round (n + 1) s p = .ok (.error e, q) :=
  bind_error h _

theorem loop_eq (hf : f.Sound) (round : σ → Scan ε (σ ⊕ α)) (s : σ) :
    loop round s f.pointer = rounds round (f.rest.length + 1) s f.pointer := by
  have hlen := hf.length_rest
  have hleft : f.pointer.view.length - f.pointer.loc.pos = f.rest.length := by
    show f.view.length - f.loc.pos = _
    omega
  rw [loop, hleft]

theorem skipWhile_eq (hf : f.Sound) (p : UInt8 → Bool) :
    (skipWhile p : Scan ε Unit) f.pointer =
      .ok (.ok (), (f.advance (f.rest.takeWhile p).length).pointer) := by
  rw [skipWhile, loop_eq hf]
  generalize hbs : f.rest = bs
  induction bs generalizing f with
  | nil =>
    refine rounds_inr ?_
    rw [skipRound, eof_nil hf hbs]
    rfl
  | cons b bs ih =>
    by_cases hp : p b
    · have hnext : (f.advance 1).rest = bs := Feed.rest_advance_cons hbs 0
      have htaken : f.advance ((b :: bs).takeWhile p).length =
          (f.advance 1).advance (bs.takeWhile p).length := by
        rw [List.takeWhile_cons_of_pos hp, List.length_cons, Nat.add_comm, Feed.advance_add]
      rw [htaken]
      refine (rounds_inl ?_).trans (ih (hf.advance 1) hnext)
      rw [skipRound, eof_cons hf hbs, current_bind hf hbs, if_pos hp,
        pop_bind hf hbs]
      rfl
    · rw [List.takeWhile_cons_of_neg hp]
      refine rounds_inr ?_
      rw [skipRound, eof_cons hf hbs, current_bind hf hbs, if_neg hp]
      rfl

end Scan

end Source
end Ditlang
