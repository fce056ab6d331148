import Ditlang.Proofs.Guest.Fences
import Ditlang.Proofs.Token.Pointer

/-!
# Ditlang.Proofs.Token.Bytewise

The scans of the lexer once more, byte by byte. Here every byte is looked at before it is taken, every
text is cut out of the view between two offsets, and the depth of braces is counted down: each of these
steps could be trapped. From a cursor on a view of a text none is, and every scan ends as the one that
works on the bytes ahead (`next_eq`, `scanString_eq`, `captureBraces_eq`); the cursor that is left stands
between characters again.
-/

namespace Ditlang
namespace Lexer

open Source (Location View Feed Pointer Trap Scan)

namespace Bytewise

open Source.Scan (eof current peek loc view pop look fail loop skipWhile)

variable {ε : Type}

/-! ## The scans -/

/-- Takes a byte of a block comment, or its end. -/
def commentRound (start : Location) (_ : Unit) : Scan LexError (Unit ⊕ Unit) := do
  if ← eof then
    fail ⟨.openComment, start⟩
  else if (← current) == 42 && (← peek) == some 47 then
    let _ ← pop
    let _ ← pop
    return .inr ()
  else
    let _ ← pop
    return .inl ()

/-- Takes a byte of white space or a comment. -/
def blankRound (_ : Unit) : Scan LexError (Unit ⊕ Unit) := do
  if ← eof then
    return .inr ()
  else
    let b ← current
    if isBlankByte b then
      let _ ← pop
      return .inl ()
    else if b == 47 && (← peek) == some 47 then
      skipWhile (· ≠ 10)
      return .inl ()
    else if b == 47 && (← peek) == some 42 then
      let start ← loc
      let _ ← pop
      let _ ← pop
      loop (commentRound start) ()
      return .inl ()
    else
      return .inr ()

def skipBlank : Scan LexError Unit :=
  loop blankRound ()

/-- A token from a place up to here. -/
def finish (kind : TokenKind) (start : Location) (payload : Payload) : Scan LexError Token := do
  return ⟨kind, start, (← loc).pos, payload⟩

/-- Whether a point and a digit come next. -/
def fractionAhead : Scan LexError Bool := do
  if ← eof then
    return false
  else if (← current) == 46 then
    match ← peek with
    | some b => return isDigitByte b
    | none => return false
  else
    return false

/-- Takes a point and what follows it, if a digit does. -/
def fraction : Scan LexError Unit := do
  if ← fractionAhead then
    let _ ← pop
    skipWhile isIdentifierByte
  else
    return ()

/-- Goes on with a number that began at a place. -/
def number (start : Location) : Scan LexError Token := do
  fraction
  let text ← look (Pointer.text start.pos (← loc).pos)
  match Number.read? text with
  | some x => finish .number start (.number x)
  | none => fail ⟨.badNumber text, start⟩

/-- Scans a word or a number, which begins at a place. -/
def word (resolver : Resolver) (resolveNames : Bool) (start : Location) : Scan LexError Token := do
  skipWhile isIdentifierByte
  if isDigitByte (← look (Pointer.byte start.pos)) then
    number start
  else
    let word ← look (Pointer.text start.pos (← loc).pos)
    let (kind, payload) := classify resolver resolveNames word
    finish kind start payload

/-- The fence that comes next. -/
def fenceAhead : Scan ε (Option Fence) := do
  match ← peek with
  | some b => return Fence.ofBytes? (← current) b
  | none => return none

def token (resolver : Resolver) (resolveNames : Bool) : Scan LexError Token := do
  let start ← loc
  match ← fenceAhead with
  | some fence =>
    let _ ← pop
    let _ ← pop
    finish (.fence fence) start .none
  | none =>
    match Punct.ofByte? (← current) with
    | some p =>
      let _ ← pop
      finish (.punct p) start .none
    | none =>
      if isIdentifierByte (← current) then
        word resolver resolveNames start
      else
        fail ⟨.unrecognized (← look Pointer.char), start⟩

def next (resolver : Resolver) (resolveNames : Bool) : Scan LexError Token := do
  skipBlank
  if ← eof then
    return .eof (← loc)
  else
    token resolver resolveNames

/-- Takes a byte before an offset. -/
def stringRound (close : Nat) (_ : Unit) : Scan LexError (Unit ⊕ Unit) := do
  if (← loc).pos < close then
    let _ ← pop
    return .inl ()
  else
    return .inr ()

def scanString (quote : UInt8) : Scan LexError String := do
  let start ← loc
  match ← look (Pointer.find quote) with
  | none => fail ⟨.missingQuote, start⟩
  | some close =>
    let text ← look (Pointer.text start.pos close)
    loop (stringRound close) ()
    return text

/-- Counts down. -/
def below : Nat → Scan ε Nat
  | 0 => fun _ => .error .underflow
  | n + 1 => return n

/-- Takes a byte of a body; `depth` braces are open. -/
def braceRound (start : Location) (depth : Nat) : Scan LexError (Nat ⊕ Unit) := do
  if ← eof then
    fail ⟨.missingBrace, start⟩
  else
    let b ← current
    if b == 123 then
      let _ ← pop
      return .inl (depth + 1)
    else if b == 125 then
      let depth ← below depth
      if depth == 0 then
        return .inr ()
      else
        let _ ← pop
        return .inl depth
    else
      let _ ← pop
      return .inl depth

/-- Takes everything up to the brace that matches one just taken. -/
def captureBraces : Scan LexError View := do
  let start ← loc
  loop (braceRound start) 1
  let stop := (← loc).pos
  return (← view).slice start.pos stop start

/-- What a scan ends with, as a computation with a pointer. -/
def landed {α : Type} (r : Except ε α × Feed) : Except Trap (Except ε α × Pointer) :=
  .ok (r.1, r.2.pointer)

/-! ## Blank text -/

section

variable {b : UInt8} {rest : List UInt8} {f : Feed} {n : Nat}

theorem scanBlank_outside_cons (n : Nat) (b : UInt8) (rest : List UInt8) :
    scanBlank .outside n (b :: rest) =
      if isBlankByte b then scanBlank .outside (n + 1) rest
      else if b = 47 ∧ rest.head? = some 47 then scanBlank .line (n + 2) rest.tail
      else if b = 47 ∧ rest.head? = some 42 then scanBlank (.block n) (n + 2) rest.tail
      else (n, .outside) := by
  cases rest with
  | nil => simp [scanBlank]
  | cons c rest => simp [scanBlank]

theorem scanBlank_block_cons (start n : Nat) (b : UInt8) (rest : List UInt8) :
    scanBlank (.block start) n (b :: rest) =
      if b = 42 ∧ rest.head? = some 47 then scanBlank .outside (n + 2) rest.tail
      else scanBlank (.block start) (n + 1) rest := by
  cases rest with
  | nil => simp [scanBlank]
  | cons c rest => simp [scanBlank]

/-- The cursor where blank text ends, and what is wrong there. -/
def blankEnd (f : Feed) : Nat × BlankMode → Except LexError Unit × Feed
  | (n, .block start) => (.error ⟨.openComment, (f.advance start).loc⟩, f.advance n)
  | (n, _) => (.ok (), f.advance n)

theorem skipBlank_eq_blankEnd (f : Feed) : Lexer.skipBlank f = blankEnd f (scanBlank .outside 0 f.rest) := by
  rw [Lexer.skipBlank]
  generalize scanBlank .outside 0 f.rest = scanned
  obtain ⟨n, mode⟩ := scanned
  cases mode <;> rfl

/-- A line comment ends where its line does; the line feed is white space. -/
theorem blankEnd_line (f : Feed) (n : Nat) (bs : List UInt8) :
    blankEnd f (scanBlank .line n bs) =
      blankEnd f (scanBlank .outside (n + (bs.takeWhile (· ≠ 10)).length)
        (bs.drop (bs.takeWhile (· ≠ 10)).length)) := by
  induction bs generalizing n with
  | nil => simp [scanBlank, blankEnd]
  | cons b bs ih =>
    by_cases hb : b = 10
    · subst hb
      have hblank : isBlankByte 10 = true := by decide
      simp [scanBlank, scanBlank_outside_cons, hblank]
    · have htake : (b :: bs).takeWhile (· ≠ 10) = b :: bs.takeWhile (· ≠ 10) :=
        List.takeWhile_cons_of_pos (by simpa using hb)
      rw [scanBlank, if_neg hb, ih, htake, List.length_cons, List.drop_succ_cons, Nat.add_assoc,
        Nat.add_comm 1]

theorem pop_pop_bind {α : Type} {c : UInt8} (hf : f.Sound) (hrest : f.rest = b :: rest)
    (hhead : rest.head? = some c) (k : Scan ε α) :
    (do let _ ← pop; let _ ← pop; k) f.pointer = k (f.advance 2).pointer := by
  obtain ⟨more, rfl⟩ := List.head?_eq_some_iff.1 hhead
  have hnext : (f.advance 1).rest = c :: more := Feed.rest_advance_cons hrest 0
  rw [Scan.pop_bind hf hrest, Scan.pop_bind (hf.advance 1) hnext, ← Feed.advance_add]

/-- A block comment that has begun goes on to the end, or it is closed further on. -/
theorem comment_cases (hf : f.Sound) (start : Location) (offset n : Nat) :
    (scanBlank (.block offset) n f.rest = (n + f.rest.length, .block offset) ∧
      loop (commentRound start) () f.pointer =
        .ok (.error ⟨.openComment, start⟩, (f.advance f.rest.length).pointer)) ∨
    ∃ m, 0 < m ∧ m ≤ f.rest.length ∧
      scanBlank (.block offset) n f.rest = scanBlank .outside (n + m) (f.rest.drop m) ∧
      loop (commentRound start) () f.pointer = .ok (.ok (), (f.advance m).pointer) := by
  rw [Scan.loop_eq hf]
  generalize hbs : f.rest = bs
  induction bs generalizing f n with
  | nil =>
    refine .inl ⟨by simp [scanBlank], Scan.rounds_error ?_⟩
    rw [commentRound, Scan.eof_nil hf hbs]
    rfl
  | cons b bs ih =>
    rw [scanBlank_block_cons, List.length_cons]
    by_cases hclose : b = 42 ∧ bs.head? = some 47
    · have hlen : 0 < bs.length := by
        cases bs with
        | nil => cases hclose.2
        | cons c bs => simp
      refine .inr ⟨2, by omega, by omega, ?_, Scan.rounds_inr ?_⟩
      · rw [if_pos hclose, List.drop_succ_cons, List.drop_one]
      · rw [commentRound, Scan.eof_cons hf hbs, Scan.current_bind hf hbs, Scan.peek_bind hf hbs,
          if_pos (by simpa using hclose), pop_pop_bind hf hbs hclose.2]
        rfl
    · have hround : commentRound start () f.pointer = .ok (.ok (.inl ()), (f.advance 1).pointer) := by
        rw [commentRound, Scan.eof_cons hf hbs, Scan.current_bind hf hbs, Scan.peek_bind hf hbs,
          if_neg (by simpa using hclose), Scan.pop_bind hf hbs]
        rfl
      have hnext : (f.advance 1).rest = bs := Feed.rest_advance_cons hbs 0
      rw [if_neg hclose, Scan.rounds_inl hround]
      obtain ⟨hscan, hloop⟩ | ⟨m, hpos, hle, hscan, hloop⟩ := ih (n := n + 1) (hf.advance 1) hnext
      · refine .inl ⟨by rw [hscan]; simp [Nat.add_assoc, Nat.add_comm 1], ?_⟩
        rw [hloop, ← Feed.advance_add, Nat.add_comm]
      · refine .inr ⟨m + 1, by omega, by omega, ?_, ?_⟩
        · rw [hscan, List.drop_succ_cons, Nat.add_assoc, Nat.add_comm 1]
        · rw [hloop, ← Feed.advance_add, Nat.add_comm]

/-- A round at a byte: the comments that may begin there are told by the byte after it. -/
theorem blankRound_cons (hf : f.Sound) (hrest : f.rest = b :: rest) :
    blankRound () f.pointer =
      if isBlankByte b then .ok (.ok (.inl ()), (f.advance 1).pointer)
      else if b = 47 ∧ rest.head? = some 47 then
        .ok (.ok (.inl ()), (f.advance (f.rest.takeWhile (· ≠ 10)).length).pointer)
      else if b = 47 ∧ rest.head? = some 42 then
        (do loop (commentRound f.loc) (); return .inl () : Scan LexError (Unit ⊕ Unit))
          (f.advance 2).pointer
      else .ok (.ok (.inr ()), f.pointer) := by
  rw [blankRound, Scan.eof_cons hf hrest, Scan.current_bind hf hrest]
  by_cases hblank : isBlankByte b
  · rw [if_pos hblank, if_pos hblank, Scan.pop_bind hf hrest]
    rfl
  rw [if_neg hblank, if_neg hblank, Scan.peek_bind hf hrest]
  by_cases hline : b = 47 ∧ rest.head? = some 47
  · rw [if_pos hline, if_pos (by simpa using hline), Scan.bind_ok (Scan.skipWhile_eq hf _)]
    rfl
  rw [if_neg hline, if_neg (by simpa using hline), Scan.peek_bind hf hrest]
  by_cases hblock : b = 47 ∧ rest.head? = some 42
  · rw [if_pos hblock, if_pos (by simpa using hblock), Scan.loc_bind, pop_pop_bind hf hrest hblock.2]
  · rw [if_neg hblock, if_neg (by simpa using hblock)]
    rfl

/-- From any place in blank text the rounds lead to its end. -/
theorem rounds_blank (hf : f.Sound) {k : Nat} (hk : k ≤ f.rest.length) (hn : f.rest.length - k < n) :
    Scan.rounds blankRound n () (f.advance k).pointer =
      landed (blankEnd f (scanBlank .outside k (f.rest.drop k))) := by
  induction n generalizing k with
  | zero => omega
  | succ n ih =>
    have hg := hf.advance k
    have hgrest : (f.advance k).rest = f.rest.drop k := Feed.advance_rest f k
    cases hrest : f.rest.drop k with
    | nil =>
      rw [hrest] at hgrest
      refine Scan.rounds_inr ?_
      rw [blankRound, Scan.eof_nil hg hgrest]
      rfl
    | cons b rest =>
      rw [hrest] at hgrest
      have hlen : f.rest.length = k + (rest.length + 1) := by
        have := congrArg List.length hrest
        rw [List.length_drop, List.length_cons] at this
        omega
      -- a round that takes some bytes leaves the rest to the others
      have onward {m : Nat} (hpos : 0 < m) (hm : m ≤ rest.length + 1)
          (hround : blankRound () (f.advance k).pointer =
            .ok (.ok (.inl ()), ((f.advance k).advance m).pointer)) :
          Scan.rounds blankRound (n + 1) () (f.advance k).pointer =
            landed (blankEnd f (scanBlank .outside (k + m) ((b :: rest).drop m))) := by
        rw [Scan.rounds_inl hround, ← Feed.advance_add, ih (by omega) (by omega), ← List.drop_drop,
          hrest]
      have hround := blankRound_cons hg hgrest
      rw [scanBlank_outside_cons]
      by_cases hblank : isBlankByte b
      · rw [if_pos hblank] at hround ⊢
        exact onward (by omega) (by omega) hround
      rw [if_neg hblank] at hround ⊢
      by_cases hline : b = 47 ∧ rest.head? = some 47
      · obtain ⟨rfl, hslash⟩ := id hline
        obtain ⟨more, rfl⟩ := List.head?_eq_some_iff.1 hslash
        have htake : (47 :: 47 :: more : List UInt8).takeWhile (· ≠ 10) =
            47 :: 47 :: more.takeWhile (· ≠ 10) := by simp
        have hle := (List.takeWhile_prefix (· ≠ 10) (l := more)).length_le
        rw [if_pos hline, hgrest, htake] at hround
        rw [if_pos hline, List.tail_cons, blankEnd_line, Nat.add_assoc, Nat.add_comm 2]
        refine onward (by simp) ?_ hround
        simpa using hle
      rw [if_neg hline] at hround ⊢
      by_cases hblock : b = 47 ∧ rest.head? = some 42
      · obtain ⟨rfl, hstar⟩ := id hblock
        obtain ⟨more, rfl⟩ := List.head?_eq_some_iff.1 hstar
        have hmore : ((f.advance k).advance 2).rest = more := Feed.rest_advance_cons hgrest 1
        rw [if_pos hblock] at hround
        rw [if_pos hblock, List.tail_cons, ← hmore]
        obtain ⟨hscan, hloop⟩ | ⟨m, hpos, hm, hscan, hloop⟩ :=
          comment_cases (hg.advance 2) (f.advance k).loc k (k + 2)
        · rw [Scan.bind_error hloop] at hround
          rw [Scan.rounds_error hround, hscan, ← Feed.advance_add, ← Feed.advance_add, ← Nat.add_assoc]
          rfl
        · have hdrop : (47 :: 42 :: more : List UInt8).drop (2 + m) = more.drop m := by
            rw [← List.drop_drop]
            rfl
          rw [Scan.bind_ok hloop, ← Feed.advance_add] at hround
          rw [hscan, hmore, Nat.add_assoc, ← hdrop]
          refine onward (by omega) ?_ hround
          rw [hmore] at hm
          rw [List.length_cons]
          omega
      rw [if_neg hblock] at hround ⊢
      exact Scan.rounds_inr hround

theorem skipBlank_eq (hf : f.Sound) : skipBlank f.pointer = landed (Lexer.skipBlank f) := by
  rw [skipBlank, Scan.loop_eq hf, skipBlank_eq_blankEnd]
  exact rounds_blank hf (Nat.zero_le _) (by omega)

end

end Bytewise

/-! ## Between characters -/

section

variable {bs gap : List UInt8} {b : UInt8} {f : Feed} {n : Nat}

/-- The last byte of a gap is white space or the end of a comment. -/
theorem Gap.exists_last (hgap : Gap gap) (hne : gap ≠ []) :
    ∃ front b, gap = front ++ [b] ∧ b < 0x80 := by
  -- what comes first is passed over, unless nothing follows
  have onto (front : List UInt8) {g : List UInt8} {c : UInt8} (hc : c < 0x80)
      (ih : g ≠ [] → ∃ front b, g = front ++ [b] ∧ b < 0x80) :
      ∃ front' b, front ++ [c] ++ g = front' ++ [b] ∧ b < 0x80 := by
    by_cases hg : g = []
    · exact ⟨front, c, by rw [hg, List.append_nil], hc⟩
    · obtain ⟨front', b, rfl, hb⟩ := ih hg
      exact ⟨front ++ [c] ++ front', b, by simp, hb⟩
  induction hgap with
  | nil => exact absurd rfl hne
  | @space b g hb _ ih =>
    have hlow : b < 0x80 := by
      simp only [isBlankByte, Bool.or_eq_true, beq_iff_eq] at hb
      rcases hb with (((rfl | rfl) | rfl) | rfl) | rfl <;> decide
    exact onto [] hlow ih
  | @line text g _ _ ih =>
    have hfront : 47 :: 47 :: (text ++ 10 :: g) = 47 :: 47 :: text ++ [10] ++ g := by simp
    rw [hfront]
    exact onto _ (by decide) ih
  | @block text g _ _ ih =>
    have hfront : 47 :: 42 :: (text ++ 42 :: 47 :: g) = 47 :: 42 :: (text ++ [42]) ++ [47] ++ g := by simp
    rw [hfront]
    exact onto _ (by decide) ih

theorem isIdentifierByte_low (hb : isIdentifierByte b = true) : b < 0x80 := by
  simp only [isIdentifierByte, Bool.or_eq_true, Bool.and_eq_true, decide_eq_true_eq, beq_iff_eq,
    UInt8.le_iff_toNat_le, UInt8.reduceToNat] at hb
  rw [UInt8.lt_iff_toNat_lt]
  rcases hb with ((⟨-, h⟩ | ⟨-, h⟩) | ⟨-, h⟩) | rfl
  · exact Nat.lt_of_le_of_lt h (by decide)
  · exact Nat.lt_of_le_of_lt h (by decide)
  · exact Nat.lt_of_le_of_lt h (by decide)
  · decide

theorem punct_low {p : Punct} (hp : Punct.ofByte? b = some p) : b < 0x80 := by
  have h := List.find?_some hp
  rw [beq_iff_eq] at h
  rw [UInt8.lt_iff_toNat_lt, ← h]
  cases p <;> decide

end

namespace Bytewise

open Source.Scan (pop look loop skipWhile)

variable {b : UInt8} {rest : List UInt8} {f : Feed} {n : Nat}

theorem between_skipBlank (hf : f.Sound) (hb : f.Between) : (Lexer.skipBlank f).2.Between := by
  have hpassed := scanBlank_passed .outside 0 f.rest
  rw [skipBlank_eq_blankEnd]
  generalize scanBlank .outside 0 f.rest = scanned at hpassed
  obtain ⟨n, mode⟩ := scanned
  obtain ⟨gap, rest, hrest, hn, hmode⟩ := hpassed
  obtain rfl : n = gap.length := by omega
  have hend (hnil : rest = []) : (f.advance gap.length).Between := by
    have hlen : gap.length = f.rest.length := by rw [hrest, hnil, List.append_nil]
    rw [hlen]
    exact hf.between_end
  cases mode with
  | outside =>
    by_cases hgap : gap = []
    · rw [hgap]
      exact hb
    · obtain ⟨front, b, rfl, hlow⟩ := hmode.exists_last hgap
      have hget : f.rest[front.length]? = some b := by rw [hrest]; simp
      have := (hf.between_beside hget hlow).2
      rwa [← List.length_singleton (a := b), ← List.length_append] at this
  | line => exact hend hmode.1
  | block start => exact hend hmode

theorem between_takeWhile (hf : f.Sound) (hb : f.Between) {p : UInt8 → Bool}
    (hp : ∀ b, p b = true → b < 0x80) : (f.advance (f.rest.takeWhile p).length).Between := by
  rcases List.eq_nil_or_concat (f.rest.takeWhile p) with hnil | ⟨front, b, hfront⟩
  · rw [hnil]
    exact hb
  · have hget : f.rest[front.length]? = some b := by
      obtain ⟨more, hmore⟩ := List.takeWhile_prefix p (l := f.rest)
      rw [← hmore, hfront]
      simp
    have hmem : b ∈ f.rest.takeWhile p := by rw [hfront]; simp
    have hlow : b < 0x80 := hp b (List.mem_takeWhile_imp hmem)
    have := (hf.between_beside hget hlow).2
    rwa [← List.length_singleton (a := b), ← List.length_append, ← List.concat_eq_append,
      ← hfront] at this

/-! ## Words and numbers -/

/-- Whether bytes begin with a point and a digit. -/
def startsFraction : List UInt8 → Bool
  | b :: c :: _ => b == 46 && isDigitByte c
  | _ => false

/-- How many bytes a fraction takes. -/
def fractionLength (bs : List UInt8) : Nat :=
  if startsFraction bs then 1 + (bs.tail.takeWhile isIdentifierByte).length else 0

theorem numberLength_eq (bs : List UInt8) : numberLength bs =
    (bs.takeWhile isIdentifierByte).length +
      fractionLength (bs.drop (bs.takeWhile isIdentifierByte).length) := by
  rw [numberLength]
  rcases bs.drop (bs.takeWhile isIdentifierByte).length with _ | ⟨b, _ | ⟨c, rest⟩⟩
  · rfl
  · rfl
  · by_cases h : b = 46 && isDigitByte c
    · have hstarts : startsFraction (b :: c :: rest) = true := by simpa [startsFraction] using h
      simp only [h, if_true, fractionLength, hstarts, List.tail_cons, Nat.add_assoc]
    · have hstarts : startsFraction (b :: c :: rest) = false := by simpa [startsFraction] using h
      simp only [h, if_false, fractionLength, hstarts, Bool.false_eq_true, Nat.add_zero]

theorem fractionAhead_eq (hf : f.Sound) :
    fractionAhead f.pointer = .ok (.ok (startsFraction f.rest), f.pointer) := by
  cases hrest : f.rest with
  | nil =>
    rw [fractionAhead, Scan.eof_nil hf hrest]
    rfl
  | cons b rest =>
    rw [fractionAhead, Scan.eof_cons hf hrest, Scan.current_bind hf hrest]
    by_cases hb : b == 46
    · rw [if_pos hb, Scan.peek_bind hf hrest]
      cases rest with
      | nil => rfl
      | cons c rest =>
        have hstarts : startsFraction (b :: c :: rest) = isDigitByte c := by simp [startsFraction, hb]
        rw [hstarts]
        rfl
    · have hstarts : startsFraction (b :: rest) = false := by
        cases rest with
        | nil => rfl
        | cons c rest => simp [startsFraction, hb]
      rw [if_neg hb, hstarts]
      rfl

/-- A fraction is taken if there is one, and it ends between characters. -/
theorem fraction_eq (hf : f.Sound) (hb : f.Between) :
    fraction f.pointer = .ok (.ok (), (f.advance (fractionLength f.rest)).pointer) ∧
      (f.advance (fractionLength f.rest)).Between := by
  have hahead := Scan.bind_ok (fractionAhead_eq hf) (fun b => if b = true then
    (do let _ ← pop; skipWhile isIdentifierByte : Scan LexError Unit) else return ())
  cases hstarts : startsFraction f.rest with
  | false =>
    rw [fractionLength, hstarts]
    exact ⟨hahead.trans (by rw [hstarts]; rfl), hb⟩
  | true =>
    obtain ⟨b, rest, hrest⟩ : ∃ b rest, f.rest = b :: rest := by
      cases hrest : f.rest with
      | nil => rw [hrest] at hstarts; cases hstarts
      | cons b rest => exact ⟨b, rest, rfl⟩
    have hpoint : b = 46 := by
      cases rest with
      | nil => rw [hrest] at hstarts; cases hstarts
      | cons c rest =>
        rw [hrest, startsFraction, Bool.and_eq_true, beq_iff_eq] at hstarts
        exact hstarts.1
    have hnext : (f.advance 1).rest = rest := Feed.rest_advance_cons hrest 0
    have hbetween : (f.advance 1).Between :=
      (hf.between_beside (b := b) (n := 0) (by rw [hrest]; rfl) (by rw [hpoint]; decide)).2
    have hlen : f.advance (fractionLength f.rest) =
        (f.advance 1).advance ((f.advance 1).rest.takeWhile isIdentifierByte).length := by
      rw [fractionLength, hstarts, if_pos rfl, hnext, hrest, List.tail_cons, Feed.advance_add]
    rw [hlen]
    refine ⟨hahead.trans ?_, between_takeWhile (hf.advance 1) hbetween fun _ => isIdentifierByte_low⟩
    rw [hstarts, if_pos rfl, Scan.pop_bind hf hrest, Scan.skipWhile_eq (hf.advance 1)]

/-- The text since a place is that of the bytes which were passed. -/
theorem text_bind {α : Type} (hf : f.Sound) (hb : f.Between) (hn : n ≤ f.rest.length)
    (hend : (f.advance n).Between) (k : String → Scan LexError α) :
    (do let text ← look (Pointer.text f.loc.pos (← Scan.loc).pos); k text) (f.advance n).pointer =
      k (Text.ofBytes (f.rest.take n)) (f.advance n).pointer := by
  rw [Scan.loc_bind, hf.pos_advance hn]
  exact Scan.look_bind (hf.text_eq hb hn hend n) k

theorem number_eq (hf : f.Sound) (hb : f.Between) (hrest : f.rest = b :: rest)
    (hword : isIdentifierByte b = true) :
    number f.loc (f.advance (f.rest.takeWhile isIdentifierByte).length).pointer =
      landed (Lexer.number f) ∧ (Lexer.number f).2.Between := by
  have htaken : Taken f.rest (numberLength f.rest) .number := by
    rw [hrest]
    exact numberLength_taken hword
  have hwhole := between_takeWhile hf hb fun _ => isIdentifierByte_low
  obtain ⟨hfraction, hend⟩ := fraction_eq (hf.advance _) hwhole
  rw [← Feed.advance_add, Feed.advance_rest, ← numberLength_eq] at hfraction hend
  refine ⟨?_, ?_⟩
  · rw [number, Scan.bind_ok hfraction, text_bind hf hb htaken.length_le hend]
    unfold Lexer.number
    dsimp only
    cases Number.read? (Text.ofBytes (f.rest.take (numberLength f.rest))) <;> rfl
  · unfold Lexer.number
    dsimp only
    cases Number.read? (Text.ofBytes (f.rest.take (numberLength f.rest))) <;> exact hend

theorem word_eq (resolver : Resolver) (resolveNames : Bool) (hf : f.Sound) (hb : f.Between)
    (hrest : f.rest = b :: rest) (hword : isIdentifierByte b = true) :
    let r := if isDigitByte b then Lexer.number f
      else
        let word := f.rest.takeWhile isIdentifierByte
        let (kind, payload) := classify resolver resolveNames (Text.ofBytes word)
        let (token, g) := take f word.length kind payload
        (.ok token, g)
    word resolver resolveNames f.loc f.pointer = landed r ∧ r.2.Between := by
  have hbyte := hf.byte_eq hrest (f.rest.takeWhile isIdentifierByte).length
  rw [word, Scan.bind_ok (Scan.skipWhile_eq hf _), Scan.look_bind hbyte]
  dsimp only
  cases hdigit : isDigitByte b with
  | true =>
    rw [if_pos rfl, if_pos rfl]
    exact number_eq hf hb hrest hword
  | false =>
    have hend := between_takeWhile hf hb fun _ => isIdentifierByte_low
    refine ⟨?_, hend⟩
    rw [if_neg Bool.false_ne_true, if_neg Bool.false_ne_true,
      text_bind hf hb (List.takeWhile_prefix _).length_le hend,
      ← List.prefix_iff_eq_take.1 (List.takeWhile_prefix isIdentifierByte)]
    rfl

/-! ## Tokens -/

theorem fenceAhead_eq (hf : f.Sound) (hrest : f.rest = b :: rest) :
    (fenceAhead : Scan ε (Option Fence)) f.pointer =
      .ok (.ok (rest.head?.bind (Fence.ofBytes? b)), f.pointer) := by
  rw [fenceAhead, Scan.peek_bind hf hrest]
  cases rest.head? with
  | none => rfl
  | some c => exact Scan.current_bind hf hrest _

theorem token_eq (resolver : Resolver) (resolveNames : Bool) (hf : f.Sound) (hb : f.Between)
    (hrest : f.rest = b :: rest) :
    token resolver resolveNames f.pointer = landed (tokenHere resolver resolveNames f b) ∧
    (tokenHere resolver resolveNames f b).2.Between := by
  have hfirst : f.rest[0]? = some b := by rw [hrest]; rfl
  rw [token, Scan.loc_bind, Scan.bind_ok (fenceAhead_eq hf hrest), tokenHere,
    Feed.peek?_cons hrest]
  cases hfence : rest.head?.bind (Fence.ofBytes? b) with
  | some fence =>
    obtain ⟨c, hc, hbc⟩ := Option.bind_eq_some_iff.1 hfence
    have hsecond : f.rest[1]? = some c := by
      rw [hrest, List.getElem?_cons_succ, ← List.head?_eq_getElem?, hc]
    exact ⟨pop_pop_bind hf hrest hc _, (hf.between_beside hsecond (Guest.lt_of_ofBytes? hbc).2).2⟩
  | none =>
    dsimp only
    rw [Scan.current_bind hf hrest]
    cases hpunct : Punct.ofByte? b with
    | some p => exact ⟨Scan.pop_bind hf hrest _, (hf.between_beside hfirst (punct_low hpunct)).2⟩
    | none =>
      dsimp only
      rw [Scan.current_bind hf hrest]
      cases hword : isIdentifierByte b with
      | true =>
        have hscan := word_eq resolver resolveNames hf hb hrest hword
        simpa using hscan
      | false =>
        have hdigit : isDigitByte b = false := by
          rw [Bool.eq_false_iff]
          intro hdigit
          rw [isIdentifierByte_of_isDigitByte hdigit] at hword
          cases hword
        rw [hdigit]
        exact ⟨Scan.look_bind (hf.char_eq hb) _, hb⟩

theorem exists_skipBlank (f : Feed) : ∃ n, (Lexer.skipBlank f).2 = f.advance n := by
  rw [skipBlank_eq_blankEnd]
  generalize scanBlank .outside 0 f.rest = scanned
  obtain ⟨n, mode⟩ := scanned
  cases mode <;> exact ⟨n, rfl⟩

/-- The next token is scanned without a trap. -/
theorem next_eq (resolver : Resolver) (resolveNames : Bool) (hf : f.Sound) (hb : f.Between) :
    next resolver resolveNames f.pointer = landed (Lexer.next resolver resolveNames f) ∧
      (Lexer.next resolver resolveNames f).2.Between := by
  have hskip := skipBlank_eq hf
  have hsound : (Lexer.skipBlank f).2.Sound := by
    obtain ⟨n, hn⟩ := exists_skipBlank f
    exact hn ▸ hf.advance n
  have hbetween := between_skipBlank hf hb
  rw [Lexer.next]
  generalize Lexer.skipBlank f = skipped at hskip hsound hbetween
  obtain ⟨result, g⟩ := skipped
  cases result with
  | error e => exact ⟨Scan.bind_error hskip _, hbetween⟩
  | ok =>
    rw [next, Scan.bind_ok hskip]
    dsimp only at hsound hbetween ⊢
    cases hrest : g.rest with
    | nil =>
      have hcurrent : g.current? = none := by rw [Feed.current?, hrest]; rfl
      rw [Scan.eof_nil hsound hrest, hcurrent]
      exact ⟨Scan.loc_bind _, hbetween⟩
    | cons b rest =>
      have hcurrent : g.current? = some b := by rw [Feed.current?, hrest]; rfl
      rw [Scan.eof_cons hsound hrest, hcurrent]
      exact token_eq resolver resolveNames hsound hbetween hrest

/-! ## Strings -/

theorem rounds_string (hf : f.Sound) {m : Nat} (hm : m ≤ f.rest.length) (hn : m < n) :
    Scan.rounds (stringRound (f.loc.pos + m)) n () f.pointer =
      .ok (.ok (), (f.advance m).pointer) := by
  induction n generalizing f m with
  | zero => omega
  | succ n ih =>
    cases m with
    | zero =>
      refine Scan.rounds_inr ?_
      rw [stringRound, Scan.loc_bind, if_neg (by omega)]
      rfl
    | succ m =>
      obtain ⟨b, rest, hrest⟩ := List.exists_cons_of_length_pos (Nat.lt_of_lt_of_le (Nat.succ_pos m) hm)
      have hround : stringRound (f.loc.pos + (m + 1)) () f.pointer =
          .ok (.ok (.inl ()), (f.advance 1).pointer) := by
        rw [stringRound, Scan.loc_bind, if_pos (by omega), Scan.pop_bind hf hrest]
        rfl
      have hpos : f.loc.pos + (m + 1) = (f.advance 1).loc.pos + m := by
        rw [hf.pos_advance (by omega)]
        omega
      have hlen : m ≤ (f.advance 1).rest.length := by
        rw [Feed.advance_rest, List.length_drop]
        omega
      rw [Scan.rounds_inl hround, hpos, ih (hf.advance 1) hlen (by omega), ← Feed.advance_add,
        Nat.add_comm 1]

/-- A string is scanned without a trap, up to a quote that is below 128. -/
theorem scanString_eq {quote : UInt8} (hquote : quote < 0x80) (hf : f.Sound) (hb : f.Between) :
    scanString quote f.pointer = landed (Lexer.scanString quote f) ∧
      (Lexer.scanString quote f).2.Between := by
  have hfind := hf.find_eq quote
  rw [scanString, Scan.loc_bind, Scan.look_bind hfind, Lexer.scanString]
  cases hclose : f.rest.findIdx? (· == quote) with
  | none => exact ⟨rfl, hb⟩
  | some n =>
    obtain ⟨hn, hget, -⟩ := List.findIdx?_eq_some_iff_getElem.1 hclose
    have hbyte : f.rest[n]? = some quote := by
      rw [List.getElem?_eq_getElem hn]
      exact congrArg some (by simpa using hget)
    have hend := (hf.between_beside hbyte hquote).1
    have hloop := (Scan.loop_eq hf (stringRound (f.loc.pos + n)) ()).trans
      (rounds_string hf hn.le (by omega))
    have htext : f.pointer.text f.loc.pos (f.loc.pos + n) = .ok (Text.ofBytes (f.rest.take n)) :=
      hf.text_eq hb hn.le hend 0
    exact ⟨(Scan.look_bind htext _).trans (Scan.bind_ok hloop _), hend⟩

/-! ## Bodies -/

/-- A round at a byte: where one brace is open, it is the last one that is closed. -/
theorem braceRound_cons (hf : f.Sound) (hrest : f.rest = b :: rest) (start : Location) (depth : Nat) :
    braceRound start (depth + 1) f.pointer =
      if b = 123 then .ok (.ok (.inl (depth + 2)), (f.advance 1).pointer)
      else if b = 125 then
        match depth with
        | 0 => .ok (.ok (.inr ()), f.pointer)
        | depth + 1 => .ok (.ok (.inl (depth + 1)), (f.advance 1).pointer)
      else .ok (.ok (.inl (depth + 1)), (f.advance 1).pointer) := by
  rw [braceRound, Scan.eof_cons hf hrest, Scan.current_bind hf hrest]
  by_cases hopen : b = 123
  · rw [if_pos hopen, if_pos (by simpa using hopen)]
    exact Scan.pop_bind hf hrest _
  rw [if_neg hopen, if_neg (by simpa using hopen)]
  by_cases hclose : b = 125
  · rw [if_pos hclose, if_pos (by simpa using hclose)]
    cases depth with
    | zero => rfl
    | succ depth => exact Scan.pop_bind hf hrest _
  · rw [if_neg hclose, if_neg (by simpa using hclose)]
    exact Scan.pop_bind hf hrest _

/-- From any place in a body the rounds lead to the brace that closes it, or to the end. -/
theorem rounds_brace (hf : f.Sound) (start : Location) (depth : Nat) {k : Nat}
    (hk : k ≤ f.rest.length) (hn : f.rest.length - k < n) :
    Scan.rounds (braceRound start) n (depth + 1) (f.advance k).pointer =
      match closingBrace depth k (f.rest.drop k) with
      | none => .ok (.error ⟨.missingBrace, start⟩, (f.advance f.rest.length).pointer)
      | some m => .ok (.ok (), (f.advance m).pointer) := by
  induction n generalizing k depth with
  | zero => omega
  | succ n ih =>
    have hg := hf.advance k
    have hgrest : (f.advance k).rest = f.rest.drop k := Feed.advance_rest f k
    cases hrest : f.rest.drop k with
    | nil =>
      rw [hrest] at hgrest
      have hlast : k = f.rest.length := Nat.le_antisymm hk (List.drop_eq_nil_iff.1 hrest)
      rw [closingBrace, ← hlast]
      refine Scan.rounds_error ?_
      rw [braceRound, Scan.eof_nil hg hgrest]
      rfl
    | cons b rest =>
      rw [hrest] at hgrest
      have hlt : k < f.rest.length := by
        by_contra hge
        rw [List.drop_of_length_le (by omega)] at hrest
        cases hrest
      have hdrop : f.rest.drop (k + 1) = rest := by
        rw [← List.drop_drop, hrest]
        rfl
      -- a round that takes a byte leaves the rest to the others
      have onward {depth' : Nat} (hround : braceRound start (depth + 1) (f.advance k).pointer =
            .ok (.ok (.inl (depth' + 1)), ((f.advance k).advance 1).pointer)) :
          Scan.rounds (braceRound start) (n + 1) (depth + 1) (f.advance k).pointer =
            match closingBrace depth' (k + 1) rest with
            | none => .ok (.error ⟨.missingBrace, start⟩, (f.advance f.rest.length).pointer)
            | some m => .ok (.ok (), (f.advance m).pointer) := by
        rw [Scan.rounds_inl hround, ← Feed.advance_add, ih _ (by omega) (by omega), hdrop]
      have hround := braceRound_cons hg hgrest start depth
      rw [closingBrace.eq_def]
      dsimp only
      by_cases hopen : b = 123
      · rw [if_pos hopen] at hround ⊢
        exact onward hround
      rw [if_neg hopen] at hround ⊢
      by_cases hclose : b = 125
      · rw [if_pos hclose] at hround ⊢
        cases depth with
        | zero => exact Scan.rounds_inr hround
        | succ depth => exact onward hround
      · rw [if_neg hclose] at hround ⊢
        exact onward hround

/-- A body is captured without a trap; what is captured is a view of the same text. -/
theorem captureBraces_eq (hf : f.Sound) (hb : f.Between) :
    captureBraces f.pointer = landed (Lexer.captureBraces f) ∧
      (Lexer.captureBraces f).2.Between ∧
      ∀ body, (Lexer.captureBraces f).1 = .ok body → body.Textual := by
  have hrounds := rounds_brace hf f.loc 0 (Nat.zero_le _) (n := f.rest.length + 1) (by omega)
  have hloop := (Scan.loop_eq hf (braceRound f.loc) 1).trans hrounds
  rw [captureBraces, Scan.loc_bind, Lexer.captureBraces]
  rw [List.drop_zero] at hloop
  cases hclose : closingBrace 0 0 f.rest with
  | none =>
    rw [hclose] at hloop
    refine ⟨Scan.bind_error hloop _, hf.between_end, ?_⟩
    rintro _ ⟨⟩
  | some n =>
    rw [hclose] at hloop
    obtain ⟨-, rest, hrest⟩ := closingBrace_drop hclose
    obtain ⟨-, hn⟩ := closingBrace_append hclose []
    rw [Nat.sub_zero] at hrest
    have hbyte : f.rest[n]? = some 125 := by
      rw [← Nat.add_zero n, ← List.getElem?_drop, hrest]
      rfl
    have hend := (hf.between_beside hbyte (by decide)).1
    have hlen := hf.length_rest
    refine ⟨?_, hend, ?_⟩
    · rw [Scan.bind_ok hloop, Scan.loc_bind, Scan.view_bind, hf.pos_advance (by omega), Feed.advance_view]
      rfl
    · rintro _ ⟨⟩
      rw [Feed.Between, Feed.advance_view, hf.pos_advance (by omega)] at hend
      exact hf.view.slice hf.on.loc (by omega) hb hend

end Bytewise

end Lexer
end Ditlang
