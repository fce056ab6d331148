import Ditlang.Token.Lexer
import Mathlib.Data.List.Infix
import Mathlib.Data.List.TakeWhile

/-!
# Ditlang.Proofs.Token.Found

What a scan finds, apart from where the bytes stand. The next token is decided by the bytes ahead
alone: how many of them are skipped, how many the token takes, and its kind. `find` computes that, and
`next_eq` says that scanning a token is finding it and moving the cursor over it. So what is proved of
`find` holds at every place of every source.

Skipped text is a `Gap`: white space and complete comments.
-/

namespace Ditlang
namespace Lexer

open Source (Location View Feed)

/-! ## Blank text -/

/-- White space and comments that are closed: a line comment by its line feed, a block comment by the
first `*/` after its start. -/
inductive Gap : List UInt8 → Prop where
  | nil : Gap []
  | space {b : UInt8} {g : List UInt8} : isBlankByte b = true → Gap g → Gap (b :: g)
  | line {text g : List UInt8} : 10 ∉ text → Gap g → Gap (47 :: 47 :: (text ++ 10 :: g))
  | block {text g : List UInt8} : ¬ [42, 47] <:+: text ++ [42] → Gap g →
      Gap (47 :: 42 :: (text ++ 42 :: 47 :: g))

/-- What completes a gap from inside a mode. -/
def GapIn : BlankMode → List UInt8 → Prop
  | .outside, bs => Gap bs
  | .line, bs => ∃ text g, bs = text ++ 10 :: g ∧ 10 ∉ text ∧ Gap g
  | .block _, bs => ∃ text g, bs = text ++ 42 :: 47 :: g ∧ ¬ [42, 47] <:+: text ++ [42] ∧ Gap g

/-- A gap from inside a mode, and then a line comment that goes on. -/
def LineOpen (mode : BlankMode) (bs : List UInt8) : Prop :=
  (mode = .line ∧ 10 ∉ bs) ∨ ∃ g text, bs = g ++ 47 :: 47 :: text ∧ GapIn mode g ∧ 10 ∉ text

/-- Blank text at the end of a source, where a line comment needs no line feed. -/
def BlankEnd (bs : List UInt8) : Prop :=
  Gap bs ∨ ∃ g text, bs = g ++ 47 :: 47 :: text ∧ Gap g ∧ 10 ∉ text

namespace GapIn

variable {b c : UInt8} {g rest : List UInt8}

theorem slashes (hg : GapIn .line g) : GapIn .outside (47 :: 47 :: g) := by
  obtain ⟨text, g, rfl, ht, hg⟩ := hg
  exact .line ht hg

theorem opener {start : Nat} (hg : GapIn (.block start) g) : GapIn .outside (47 :: 42 :: g) := by
  obtain ⟨text, g, rfl, ht, hg⟩ := hg
  exact .block ht hg

theorem lineFeed (hg : GapIn .outside g) : GapIn .line (10 :: g) :=
  ⟨[], g, rfl, by simp, hg⟩

theorem inLine (hb : b ≠ 10) (hg : GapIn .line g) : GapIn .line (b :: g) := by
  obtain ⟨text, g, rfl, ht, hg⟩ := hg
  exact ⟨b :: text, g, rfl, by simpa [Ne.symm hb] using ht, hg⟩

theorem closer {start : Nat} (hg : GapIn .outside g) : GapIn (.block start) (42 :: 47 :: g) :=
  ⟨[], g, rfl, by decide, hg⟩

theorem inBlock {start : Nat} (hbc : ¬ (b = 42 ∧ c = 47)) (hc : g <+: c :: rest)
    (hg : GapIn (.block start) g) : GapIn (.block start) (b :: g) := by
  obtain ⟨text, g', rfl, ht, hg⟩ := hg
  refine ⟨b :: text, g', rfl, ?_, hg⟩
  rw [List.cons_append, List.infix_cons_iff]
  rintro (hfront | hin)
  · -- a `*/` at the front would be `b` and the byte after it
    rw [List.cons_prefix_cons] at hfront
    obtain ⟨rfl, hfront⟩ := hfront
    cases text with
    | nil => simp at hfront
    | cons t text =>
      rw [List.cons_append, List.cons_prefix_cons] at hfront hc
      exact hbc ⟨rfl, hc.1.symm.trans hfront.1.symm⟩
  · exact ht hin

end GapIn

namespace LineOpen

variable {bs : List UInt8}

theorem slashes (hl : LineOpen .line bs) : LineOpen .outside (47 :: 47 :: bs) := by
  obtain ⟨-, ht⟩ | ⟨g, text, rfl, hg, ht⟩ := hl
  · exact .inr ⟨[], bs, rfl, .nil, ht⟩
  · exact .inr ⟨47 :: 47 :: g, text, rfl, hg.slashes, ht⟩

theorem inLine {b : UInt8} (hb : b ≠ 10) (hl : LineOpen .line bs) : LineOpen .line (b :: bs) := by
  obtain ⟨-, ht⟩ | ⟨g, text, rfl, hg, ht⟩ := hl
  · exact .inl ⟨rfl, by simpa [Ne.symm hb] using ht⟩
  · exact .inr ⟨b :: g, text, rfl, hg.inLine hb, ht⟩

end LineOpen

/-- What a scan for blank text passes. -/
def Passed (mode : BlankMode) (bs : List UInt8) (n : Nat) : Nat × BlankMode → Prop
  | (k, mode') => ∃ g rest, bs = g ++ rest ∧ k = n + g.length ∧
    match mode' with
    | .outside => GapIn mode g
    | .line => rest = [] ∧ LineOpen mode g
    | .block _ => rest = []

section

variable {mode mode' : BlankMode} {bs : List UInt8} {n m : Nat} {result : Nat × BlankMode}

theorem Passed.step (front : List UInt8) (hp : Passed mode' bs m result) (hn : m = n + front.length)
    (hgap : ∀ g, g <+: bs → GapIn mode' g → GapIn mode (front ++ g))
    (hopen : ∀ g, g <+: bs → LineOpen mode' g → LineOpen mode (front ++ g)) :
    Passed mode (front ++ bs) n result := by
  obtain ⟨k, ended⟩ := result
  obtain ⟨g, rest, rfl, rfl, hend⟩ := hp
  have hg : g <+: g ++ rest := List.prefix_append g rest
  refine ⟨front ++ g, rest, by simp, by simp; omega, ?_⟩
  cases ended with
  | outside => exact hgap g hg hend
  | line => exact ⟨hend.1, hopen g hg hend.2⟩
  | block start => exact hend

theorem Passed.gapStep (front : List UInt8) (hp : Passed mode' bs m result)
    (hn : m = n + front.length) (hmode : mode' ≠ .line)
    (hgap : ∀ g, g <+: bs → GapIn mode' g → GapIn mode (front ++ g)) :
    Passed mode (front ++ bs) n result := by
  refine hp.step front hn hgap ?_
  rintro g hg (⟨hline, -⟩ | ⟨g', text, rfl, hg', ht⟩)
  · exact absurd hline hmode
  · have hfront : g' <+: bs := (List.prefix_append _ _).trans hg
    exact .inr ⟨front ++ g', text, by simp, hgap g' hfront hg', ht⟩

end

/-- A scan for blank text passes a gap, or comes to the end inside a comment. -/
theorem scanBlank_passed (mode : BlankMode) (n : Nat) (bs : List UInt8) :
    Passed mode bs n (scanBlank mode n bs) := by
  fun_induction scanBlank mode n bs with
  | case1 mode n =>
    refine ⟨[], [], rfl, rfl, ?_⟩
    cases mode with
    | outside => exact .nil
    | line => exact ⟨rfl, .inl ⟨rfl, by simp⟩⟩
    | block start => rfl
  | case2 n b hb => exact ⟨[b], [], rfl, rfl, .space hb .nil⟩
  | case3 n b hb => exact ⟨[], [b], rfl, rfl, .nil⟩
  | case4 n b c rest hb ih =>
    exact ih.gapStep [b] rfl (by simp) fun g _ hg => Gap.space hb hg
  | case5 n b c rest hb hslash ih =>
    obtain ⟨rfl, rfl⟩ := hslash
    exact ih.step [47, 47] rfl (fun g _ hg => hg.slashes) fun g _ hg => hg.slashes
  | case6 n b c rest hb hslash hopen ih =>
    obtain ⟨rfl, rfl⟩ := hopen
    exact ih.gapStep [47, 42] rfl (by simp) fun g _ hg => hg.opener
  | case7 n b c rest hb hslash hopen => exact ⟨[], b :: c :: rest, rfl, rfl, .nil⟩
  | case8 n rest ih => exact ih.gapStep [10] rfl (by simp) fun g _ hg => hg.lineFeed
  | case9 n b rest hb ih =>
    exact ih.step [b] rfl (fun g _ hg => hg.inLine hb) fun g _ hg => hg.inLine hb
  | case10 n start b => exact ⟨[b], [], rfl, rfl, rfl⟩
  | case11 n start b c rest hclose ih =>
    obtain ⟨rfl, rfl⟩ := hclose
    exact ih.gapStep [42, 47] rfl (by simp) fun g _ hg => hg.closer
  | case12 n start b c rest hclose ih =>
    exact ih.gapStep [b] rfl (by simp) fun g hc hg => hg.inBlock hclose hc

/-! ## What is found -/

/-- What the bytes ahead begin with: so many blank bytes and then a token of so many, or a fault at
some distance, which leaves the cursor at another. -/
inductive Found where
  | token (skipped length : Nat) (kind : TokenKind) (payload : Payload)
  | fault (why : LexFault) (place stop : Nat)

namespace Found

/-- The same after more bytes. -/
def shift (n : Nat) : Found → Found
  | .token skipped length kind payload => .token (n + skipped) length kind payload
  | .fault why place stop => .fault why (n + place) (n + stop)

/-- What is found, at a cursor. -/
def at_ (f : Feed) : Found → Except LexError Token × Feed
  | .token skipped length kind payload =>
    let (t, g) := take (f.advance skipped) length kind payload
    (.ok t, g)
  | .fault why place stop => (.error ⟨why, (f.advance place).loc⟩, f.advance stop)

theorem shift_eq_token {n skipped length : Nat} {kind : TokenKind} {payload : Payload} {x : Found}
    (hx : x.shift n = .token skipped length kind payload) :
    ∃ k, x = .token k length kind payload ∧ skipped = n + k := by
  cases x with
  | token k length' kind' payload' =>
    cases hx
    exact ⟨k, rfl, rfl⟩
  | fault why place stop => cases hx

theorem at_shift (f : Feed) (n : Nat) (x : Found) : (x.shift n).at_ f = x.at_ (f.advance n) := by
  cases x <;> simp [shift, at_, Feed.advance_add]

end Found

/-- What bytes begin with that are not blank. -/
def findHere (resolver : Resolver) (resolveNames : Bool) : List UInt8 → Found
  | [] => .token 0 0 .eof .none
  | b :: rest =>
    match rest.head?.bind (Fence.ofBytes? b) with
    | some fence => .token 0 2 (.fence fence) .none
    | none =>
      match Punct.ofByte? b with
      | some p => .token 0 1 (.punct p) .none
      | none =>
        if isDigitByte b then
          let n := numberLength (b :: rest)
          let text := Text.ofBytes ((b :: rest).take n)
          match Number.read? text with
          | some x => .token 0 n .number (.number x)
          | none => .fault (.badNumber text) 0 n
        else if isIdentifierByte b then
          let word := (b :: rest).takeWhile isIdentifierByte
          let classified := classify resolver resolveNames (Text.ofBytes word)
          .token 0 word.length classified.1 classified.2
        else
          .fault (.unrecognized ((Text.firstChar? (b :: rest)).getD '?')) 0 0

/-- What bytes begin with. -/
def find (resolver : Resolver) (resolveNames : Bool) (bs : List UInt8) : Found :=
  match scanBlank .outside 0 bs with
  | (n, .block start) => .fault .openComment start n
  | (n, _) => (findHere resolver resolveNames (bs.drop n)).shift n

section

variable (resolver : Resolver) (resolveNames : Bool)

theorem number_eq (f : Feed) :
    number f = (match Number.read? (Text.ofBytes (f.rest.take (numberLength f.rest))) with
      | some x => Found.token 0 (numberLength f.rest) .number (.number x)
      | none => .fault (.badNumber (Text.ofBytes (f.rest.take (numberLength f.rest)))) 0
          (numberLength f.rest)).at_ f := by
  unfold number
  split <;> simp_all [Found.at_, Feed.advance]

theorem tokenHere_eq {f : Feed} {b : UInt8} {rest : List UInt8} (hf : f.rest = b :: rest) :
    tokenHere resolver resolveNames f b = (findHere resolver resolveNames (b :: rest)).at_ f := by
  have hpeek : f.peek? = rest.head? := by rw [Feed.peek?, hf, List.tail_cons]
  rw [tokenHere, findHere, hpeek]
  cases rest.head?.bind (Fence.ofBytes? b) with
  | some fence => rfl
  | none =>
    cases Punct.ofByte? b with
    | some p => rfl
    | none =>
      simp only [number_eq, hf]
      split
      · rfl
      · split <;> rfl

theorem tokenAfter_eq (f : Feed) (n : Nat) : (match (f.advance n).current? with
    | none => (.ok (.eof (f.advance n).loc), f.advance n)
    | some b => tokenHere resolver resolveNames (f.advance n) b) =
      ((findHere resolver resolveNames (f.rest.drop n)).shift n).at_ f := by
  rw [Found.at_shift, ← Feed.advance_rest, Feed.current?]
  cases hr : (f.advance n).rest with
  | nil => rfl
  | cons b rest => exact tokenHere_eq resolver resolveNames hr

/-- Scanning a token is finding it in the bytes ahead and moving the cursor over it. -/
theorem next_eq (f : Feed) :
    next resolver resolveNames f = (find resolver resolveNames f.rest).at_ f := by
  rw [next, skipBlank, find]
  generalize scanBlank .outside 0 f.rest = scanned
  obtain ⟨n, mode⟩ := scanned
  cases mode with
  | outside => exact tokenAfter_eq resolver resolveNames f n
  | line => exact tokenAfter_eq resolver resolveNames f n
  | block start => rfl

end

end Lexer
end Ditlang
