import Ditlang.Proofs.Guest.Copies

/-!
# Ditlang.Proofs.Token.Safety

Scans of a text are safe, in whatever order tokens, strings and bodies are scanned and however deep
bodies lie in bodies. A cursor that is reached (`Reached`) is `Over` the text: it stands between characters,
on a view that begins and ends between characters. Every scan leaves such a cursor again (`Over.leaves`),
also when it fails, and so does the start of a body that was captured (`Over.body`). From such a cursor the
scans byte by byte are not trapped and have the same results (`Reached.scans_safely`).
-/

namespace Ditlang
namespace Lexer

open Source (Location View Feed Scan)

/-- The cursors over a text and over the bodies that are captured from it, when tokens, strings and
bodies are scanned in any order. A scan that fails leaves a cursor as well. -/
inductive Reached (s : String) : Feed → Prop where
  | source : Reached s (.ofView (.ofText s))
  | next {f : Feed} (resolver : Resolver) (resolveNames : Bool) :
      Reached s f → Reached s (next resolver resolveNames f).2
  | string {f : Feed} {quote : UInt8} : quote = 34 ∨ quote = 39 →
      Reached s f → Reached s (scanString quote f).2
  | braces {f : Feed} : Reached s f → Reached s (captureBraces f).2
  | body {f : Feed} {body : View} : Reached s f → (captureBraces f).1 = .ok body →
      Reached s (.ofView body)

/-- A scan of a text that ends well, or in an error of the text. -/
structure Safely {α : Type} (s : String) (f : Feed) (bytewise : Scan LexError α)
    (r : Except LexError α × Feed) : Prop where
  /-- Byte by byte it is not trapped, and ends in the same way. -/
  untrapped : bytewise f.pointer = Bytewise.landed r
  /-- No byte is asked for at the end. -/
  contained : ∀ e, r.1 = .error e → e.fault ≠ .pastEnd
  view : r.2.view = f.view
  /-- The cursor that is left is in the view, between characters. -/
  pos_le : r.2.loc.pos ≤ f.view.length
  between : Text.Boundary (Text.bytes s) (f.view.first + r.2.loc.pos)

/-- A cursor over a text from which nothing goes wrong. -/
structure Safe (s : String) (f : Feed) : Prop where
  buffer : f.view.buffer = Text.bytes s
  first : Text.Boundary (Text.bytes s) f.view.first
  last : Text.Boundary (Text.bytes s) f.view.last
  pos_le : f.loc.pos ≤ f.view.length
  between : Text.Boundary (Text.bytes s) (f.view.first + f.loc.pos)
  next : ∀ resolver resolveNames,
    Safely s f (Bytewise.next resolver resolveNames) (next resolver resolveNames f)
  /-- Tokens begin and end between characters. -/
  token : ∀ resolver resolveNames t, (Lexer.next resolver resolveNames f).1 = .ok t →
    Text.Boundary (Text.bytes s) (f.view.first + t.loc.pos) ∧
      Text.Boundary (Text.bytes s) (f.view.first + t.stop)
  string : ∀ quote, quote = 34 ∨ quote = 39 →
    Safely s f (Bytewise.scanString quote) (scanString quote f)
  braces : Safely s f Bytewise.captureBraces (captureBraces f)
  /-- So do bodies. -/
  body : ∀ body, (captureBraces f).1 = .ok body →
    Text.Boundary (Text.bytes s) body.first ∧ Text.Boundary (Text.bytes s) body.last
  /-- Whatever line is quoted, it is cut out between characters. -/
  line : ∀ pos, f.view.quoted pos = .ok (f.view.lineText pos)
  /-- What is in view is made a guest file by copies between characters. -/
  copies : ∀ m, Guest.Bytewise.preprocess f.view m = .ok (Guest.preprocess f.view m)

/-! ## Tokens -/

/-- A token begins at a cursor and ends at the one that is left. -/
def Spans (f : Feed) (r : Except LexError Token × Feed) : Prop :=
  ∀ t, r.1 = .ok t → t.loc = f.loc ∧ t.stop = r.2.loc.pos

section

variable {f g : Feed}

theorem spans_ok {t : Token} (hloc : t.loc = f.loc) (hstop : t.stop = g.loc.pos) :
    Spans f (.ok t, g) := by
  rintro _ ⟨⟩
  exact ⟨hloc, hstop⟩

theorem spans_error (e : LexError) : Spans f (.error e, g) := by
  rintro t ⟨⟩

end

theorem spans_number (f : Feed) : Spans f (number f) := by
  unfold number
  dsimp only
  split
  · exact spans_ok rfl rfl
  · exact spans_error _

theorem spans_tokenHere (resolver : Resolver) (resolveNames : Bool) (f : Feed) (b : UInt8) :
    Spans f (tokenHere resolver resolveNames f b) := by
  rw [tokenHere]
  split
  · exact spans_ok rfl rfl
  · split
    · exact spans_ok rfl rfl
    · split
      · exact spans_number f
      · split
        · exact spans_ok rfl rfl
        · exact spans_error _

theorem spans_next (resolver : Resolver) (resolveNames : Bool) (f : Feed) :
    Spans (skipBlank f).2 (next resolver resolveNames f) := by
  rw [next]
  generalize skipBlank f = skipped
  obtain ⟨result, g⟩ := skipped
  cases result with
  | error e => exact spans_error e
  | ok =>
    dsimp only
    split
    · exact spans_ok rfl rfl
    · exact spans_tokenHere resolver resolveNames g _

/-! ## Cursors over a text -/

/-- A cursor between characters of a text, on a view of it. -/
structure Over (s : String) (f : Feed) : Prop extends f.Sound where
  between : f.Between
  buffer : f.view.buffer = Text.bytes s

theorem ScanEnds.on {α : Type} {v : View} {post : α → Prop} {r : Except LexError α × Feed}
    (h : ScanEnds v post r) : r.2.On v := by
  obtain ⟨_ | _, _⟩ := r <;> exact h.1

theorem quote_low {quote : UInt8} (h : quote = 34 ∨ quote = 39) : quote < 0x80 := by
  rcases h with rfl | rfl <;> decide

namespace Over

variable {s : String} {f : Feed}

theorem source (s : String) : Over s (.ofView (.ofText s)) where
  toSound := (View.Textual.ofText s).sound_ofView
  between := (View.Textual.ofText s).between_ofView
  buffer := rfl

section

variable {α : Type} {post : α → Prop} {r : Except LexError α × Feed} {bytewise : Scan LexError α}

/-- A scan that stays in the view and stops between characters leaves such a cursor. -/
theorem leaves (hf : Over s f) (hends : ScanEnds f.view post r) (hb : r.2.Between) : Over s r.2 := by
  have hon := hends.on
  have hview := hon.view
  exact ⟨⟨hview ▸ hf.view, hview ▸ hon⟩, hb, hview ▸ hf.buffer⟩

theorem boundary (hf : Over s f) : Text.Boundary (Text.bytes s) (f.view.first + f.loc.pos) :=
  hf.buffer ▸ hf.between

theorem safely (hf : Over s f) (hends : ScanEnds f.view post r)
    (heq : bytewise f.pointer = Bytewise.landed r ∧ r.2.Between) : Safely s f bytewise r := by
  have hview := hends.on.view
  have hplace := (hf.leaves hends heq.2).boundary
  refine ⟨heq.1, ?_, hview, hends.on.loc.le, hview ▸ hplace⟩
  intro e he
  obtain ⟨result, g⟩ := r
  cases he
  exact hends.2.2

end

theorem next_ends (hf : Over s f) (resolver : Resolver) (resolveNames : Bool) :
    ScanEnds f.view (Token.On f.view) (Lexer.next resolver resolveNames f) :=
  Lexer.next_ends resolver resolveNames hf.view.toPlaced hf.on

theorem scanString_ends (hf : Over s f) (quote : UInt8) :
    ScanEnds f.view (fun _ => True) (Lexer.scanString quote f) :=
  Lexer.scanString_ends quote hf.view.toPlaced hf.on

theorem captureBraces_ends (hf : Over s f) : ScanEnds f.view View.Placed (Lexer.captureBraces f) :=
  Lexer.captureBraces_ends hf.view.toPlaced hf.on

theorem body (hf : Over s f) {body : View} (hbody : (captureBraces f).1 = .ok body) :
    body.Textual ∧ body.buffer = Text.bytes s := by
  refine ⟨(Bytewise.captureBraces_eq hf.toSound hf.between).2.2 body hbody, ?_⟩
  rw [captureBraces] at hbody
  split at hbody
  · cases hbody
  · cases hbody
    exact hf.buffer

theorem next_safely (hf : Over s f) (resolver : Resolver) (resolveNames : Bool) :
    Safely s f (Bytewise.next resolver resolveNames) (Lexer.next resolver resolveNames f) :=
  hf.safely (hf.next_ends resolver resolveNames)
    (Bytewise.next_eq resolver resolveNames hf.toSound hf.between)

theorem scanString_safely (hf : Over s f) {quote : UInt8} (hquote : quote = 34 ∨ quote = 39) :
    Safely s f (Bytewise.scanString quote) (scanString quote f) :=
  hf.safely (hf.scanString_ends quote)
    (Bytewise.scanString_eq (quote_low hquote) hf.toSound hf.between)

theorem captureBraces_safely (hf : Over s f) :
    Safely s f Bytewise.captureBraces (captureBraces f) := by
  obtain ⟨heq, hb, -⟩ := Bytewise.captureBraces_eq hf.toSound hf.between
  exact hf.safely hf.captureBraces_ends ⟨heq, hb⟩

/-- A token begins where blank text ends, and it ends where the cursor is left. -/
theorem token (hf : Over s f) {resolver : Resolver} {resolveNames : Bool} {t : Token}
    (ht : (Lexer.next resolver resolveNames f).1 = .ok t) :
    Text.Boundary (Text.bytes s) (f.view.first + t.loc.pos) ∧
      Text.Boundary (Text.bytes s) (f.view.first + t.stop) := by
  obtain ⟨hloc, hstop⟩ := spans_next resolver resolveNames f t ht
  have hend := (hf.next_safely resolver resolveNames).between
  obtain ⟨n, hn⟩ := Bytewise.exists_skipBlank f
  have hstart := Bytewise.between_skipBlank hf.toSound hf.between
  rw [Feed.Between, hn, Feed.advance_view, hf.buffer, ← hn, ← hloc] at hstart
  exact ⟨hstart, hstop ▸ hend⟩

end Over

namespace Reached

variable {s : String} {f : Feed}

theorem isOver (h : Reached s f) : Over s f := by
  induction h with
  | source => exact .source s
  | next resolver resolveNames _ ih =>
    exact ih.leaves (ih.next_ends resolver resolveNames)
      (Bytewise.next_eq resolver resolveNames ih.toSound ih.between).2
  | string hquote _ ih =>
    exact ih.leaves (ih.scanString_ends _)
      (Bytewise.scanString_eq (quote_low hquote) ih.toSound ih.between).2
  | braces _ ih =>
    exact ih.leaves ih.captureBraces_ends (Bytewise.captureBraces_eq ih.toSound ih.between).2.1
  | body _ hbody ih =>
    obtain ⟨hbody, hbuffer⟩ := ih.body hbody
    exact ⟨hbody.sound_ofView, hbody.between_ofView, hbuffer⟩

/-- Scanning is safe on every text. Whatever tokens, strings and bodies were scanned of it, and however
deep in bodies, the cursor is in its view, and it and both ends of the view are between characters. The
next scan byte by byte looks at no byte that is not there, takes none at the end, and cuts out no text
inside a character; it ends as the scan of the bytes ahead does, and leaves the cursor between
characters, also when it fails. The same holds of the lines that are quoted and of the guest file that is
copied. -/
theorem scans_safely (h : Reached s f) : Safe s f := by
  have hf := h.isOver
  exact {
    buffer := hf.buffer
    first := hf.buffer ▸ hf.view.first
    last := hf.buffer ▸ hf.view.last
    pos_le := hf.on.loc.le
    between := hf.boundary
    next := hf.next_safely
    token := fun _ _ _ => hf.token
    string := fun _ => hf.scanString_safely
    braces := hf.captureBraces_safely
    body := fun body hbody => by
      obtain ⟨hview, hbuffer⟩ := hf.body hbody
      exact ⟨hbuffer ▸ hview.first, hbuffer ▸ hview.last⟩
    line := hf.view.quoted_eq
    copies := Guest.Bytewise.preprocess_eq hf.view }

end Reached

/-- In a body inside a body a character is met that begins no token. -/
theorem scans_safely_in_nested_bodies :
    let f := (next (fun _ => none) false (.ofView (.ofText "\x7b\x7bé\x7d\x7d"))).2
    ∃ body inner, (captureBraces f).1 = .ok body ∧
      (captureBraces (next (fun _ => none) false (.ofView body)).2).1 = .ok inner ∧
      (next (fun _ => none) false (.ofView inner)).1 = .error ⟨.unrecognized 'é', ⟨0, 1, 3⟩⟩ ∧
      Safe "\x7b\x7bé\x7d\x7d" (next (fun _ => none) false (.ofView inner)).2 := by
  intro f
  have captured {g : Feed} {n : Nat} (hclose : closingBrace 0 0 g.rest = some n) :
      (captureBraces g).1 = .ok (g.view.slice g.loc.pos (g.loc.pos + n) g.loc) := by
    rw [captureBraces, hclose]
  have hbody := captured (g := f) (n := 4) (by decide +kernel)
  have hinner := captured (n := 2) (g := (next (fun _ => none) false (.ofView
    (f.view.slice f.loc.pos (f.loc.pos + 4) f.loc))).2) (by decide +kernel)
  refine ⟨_, _, hbody, hinner, by decide +kernel, ?_⟩
  exact (Reached.next _ _ (.body (.next _ _ (.body (.next _ _ .source) hbody)) hinner)).scans_safely

end Lexer
end Ditlang
