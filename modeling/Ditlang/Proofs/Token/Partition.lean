import Ditlang.Proofs.Token.Found

/-!
# Ditlang.Proofs.Token.Partition

Tokens partition a source. A run of scans, each with a resolver and a choice of its own, cuts the
source into gaps and tokens: `Tiled` says so token by token. The invariant of the run is that its
cursor is the first one, moved over all the bytes cut off so far.
-/

namespace Ditlang
namespace Lexer

open Source (Location View Feed)

/-! ## Runs of scans -/

/-- What one scan is asked for. -/
structure Ask where
  resolver : Resolver
  resolveNames : Bool

/-- How a run of scans stops: when nothing more is asked for, at the end of the source, or at an
error. -/
inductive Halt where
  | asked
  | ended
  | failed (e : LexError)

/-- Scans token after token, up to the end of the source or an error. -/
def scanAll : List Ask → Feed → List Token × Halt
  | [], _ => ([], .asked)
  | ask :: asks, f =>
    match next ask.resolver ask.resolveNames f with
    | (.error e, _) => ([], .failed e)
    | (.ok t, g) =>
      if t.kind = .eof then ([], .ended)
      else
        let (ts, halt) := scanAll asks g
        (t :: ts, halt)

/-- Words, keywords and numbers: the kinds that are scanned as far as identifier bytes go. -/
def isWordy : TokenKind → Bool
  | .keyword _ | .word | .newName | .number | .value _ => true
  | .fence _ | .punct _ | .eof => false

/-! ## One scan -/

/-- A token of some bytes, and what stands after it. -/
structure Taken (bs : List UInt8) (length : Nat) (kind : TokenKind) : Prop where
  kind_ne : kind ≠ .eof
  length_pos : 0 < length
  length_le : length ≤ bs.length
  edge : isWordy kind = true → ∀ b, bs[length]? = some b → isIdentifierByte b = false

section

variable {bs rest : List UInt8} {b : UInt8} {resolver : Resolver} {resolveNames : Bool}

theorem isIdentifierByte_of_isDigitByte (hb : isDigitByte b = true) : isIdentifierByte b = true := by
  rw [isDigitByte] at hb
  simp [isIdentifierByte, hb]

theorem edge_takeWhile (hb : bs[(bs.takeWhile isIdentifierByte).length]? = some b) :
    isIdentifierByte b = false := by
  induction bs with
  | nil => simp at hb
  | cons c bs ih =>
    rw [List.takeWhile_cons] at hb
    split at hb
    · exact ih (by simpa using hb)
    · simp_all

theorem length_takeWhile_pos (rest : List UInt8) (hb : isIdentifierByte b = true) :
    0 < ((b :: rest).takeWhile isIdentifierByte).length := by
  simp [hb]

theorem length_takeWhile_le (bs : List UInt8) : (bs.takeWhile isIdentifierByte).length ≤ bs.length :=
  (List.takeWhile_prefix _).length_le

/-- Numbers end where identifier bytes end, before or after a point. -/
theorem numberLength_taken (hb : isIdentifierByte b = true) :
    Taken (b :: rest) (numberLength (b :: rest)) .number := by
  have hpos := length_takeWhile_pos rest hb
  have hle := length_takeWhile_le (b :: rest)
  have hwhole : Taken (b :: rest) ((b :: rest).takeWhile isIdentifierByte).length .number :=
    ⟨by simp, hpos, hle, fun _ _ => edge_takeWhile⟩
  generalize b :: rest = bs at *
  rw [numberLength]
  split
  · rename_i c d rest hdrop
    split
    · -- a point and a digit: the fraction is a word of its own, after the point
      have hrest : bs.drop ((bs.takeWhile isIdentifierByte).length + 1) = d :: rest := by
        rw [← List.drop_drop, hdrop, List.drop_succ_cons, List.drop_zero]
      have hlen := congrArg List.length hrest
      have hfraction := length_takeWhile_le (d :: rest)
      rw [List.length_drop, List.length_cons] at hlen
      rw [List.length_cons] at hfraction
      refine ⟨by simp, by omega, by omega, fun _ e he => ?_⟩
      rw [← List.getElem?_drop, hrest] at he
      exact edge_takeWhile he
    · exact hwhole
  · exact hwhole

theorem isWordy_classify (resolver : Resolver) (resolveNames : Bool) (word : String) :
    isWordy (classify resolver resolveNames word).1 = true := by
  rw [classify]
  split
  · rfl
  · split
    · split <;> rfl
    · rfl

/-- Where bytes that are not blank begin with a token, they are at an end or the token takes some. -/
theorem findHere_taken {skipped length : Nat} {kind : TokenKind} {payload : Payload}
    (hfind : findHere resolver resolveNames bs = .token skipped length kind payload) :
    skipped = 0 ∧ (kind = .eof ∧ bs = [] ∨ Taken bs length kind) := by
  cases bs with
  | nil =>
    cases hfind
    exact ⟨rfl, .inl ⟨rfl, rfl⟩⟩
  | cons b rest =>
    rw [findHere] at hfind
    split at hfind
    · rename_i fence hfence
      cases hfind
      have hrest : rest ≠ [] := by
        rintro rfl
        cases hfence
      have hlen : 0 < rest.length := List.length_pos_iff.mpr hrest
      exact ⟨rfl, .inr ⟨by simp, by simp, by rw [List.length_cons]; omega, by simp [isWordy]⟩⟩
    · split at hfind
      · cases hfind
        exact ⟨rfl, .inr ⟨by simp, by simp, by simp, by simp [isWordy]⟩⟩
      · split at hfind
        · rename_i hdigit
          dsimp only at hfind
          split at hfind
          · cases hfind
            exact ⟨rfl, .inr (numberLength_taken (isIdentifierByte_of_isDigitByte hdigit))⟩
          · cases hfind
        · split at hfind
          · rename_i hword
            have hwordy := isWordy_classify resolver resolveNames
              (Text.ofBytes ((b :: rest).takeWhile isIdentifierByte))
            cases hfind
            refine ⟨rfl, .inr ⟨?_, length_takeWhile_pos rest hword, length_takeWhile_le _,
              fun _ _ => edge_takeWhile⟩⟩
            intro heof
            rw [heof] at hwordy
            cases hwordy
          · cases hfind

/-- Where bytes begin with a token, blank text stands before it: all of the bytes at an end, a gap
before another token. -/
theorem find_taken {skipped length : Nat} {kind : TokenKind} {payload : Payload}
    (hfind : find resolver resolveNames bs = .token skipped length kind payload) :
    kind = .eof ∧ BlankEnd bs ∨
      ∃ gap rest, bs = gap ++ rest ∧ gap.length = skipped ∧ Gap gap ∧ Taken rest length kind := by
  have hpassed := scanBlank_passed .outside 0 bs
  rw [find] at hfind
  generalize scanBlank .outside 0 bs = scanned at hpassed hfind
  obtain ⟨n, mode⟩ := scanned
  obtain ⟨gap, rest, rfl, hn, hmode⟩ := hpassed
  obtain rfl : n = gap.length := by omega
  cases mode with
  | outside =>
    obtain ⟨k, hhere, rfl⟩ := Found.shift_eq_token hfind
    rw [List.drop_left] at hhere
    obtain ⟨rfl, ⟨rfl, rfl⟩ | htaken⟩ := findHere_taken hhere
    · rw [List.append_nil]
      exact .inl ⟨rfl, .inl hmode⟩
    · exact .inr ⟨gap, rest, rfl, rfl, hmode, htaken⟩
  | line =>
    obtain ⟨k, hhere, rfl⟩ := Found.shift_eq_token hfind
    obtain ⟨rfl, hopen⟩ := hmode
    rw [List.drop_left] at hhere
    cases hhere
    refine .inl ⟨rfl, .inr ?_⟩
    rw [List.append_nil]
    obtain ⟨hline, -⟩ | hopen := hopen
    · cases hline
    · exact hopen
  | block start => cases hfind

end

/-! ## A whole run -/

def placeAt (bs : List UInt8) (n : Nat) : Location :=
  ⟨n, 1 + (bs.take n).count 10, 1 + ((bs.take n).reverse.takeWhile (· ≠ 10)).length⟩

theorem foldl_after_start (bs : List UInt8) :
    bs.foldl Location.after .start = placeAt bs bs.length := by
  induction bs using List.reverseRecOn with
  | nil => rfl
  | append_singleton bs b ih =>
    rw [List.foldl_append, ih]
    simp only [placeAt, List.take_length, List.foldl_cons, List.foldl_nil, Location.after]
    split
    · rename_i hb
      simp [hb, Nat.add_assoc]
    · rename_i hb
      have hc : List.count 10 [b] = 0 := List.count_eq_zero.mpr (by simpa using Ne.symm hb)
      simp [hb, hc]
      omega

def cursor (bs : List UInt8) (n : Nat) : Feed :=
  (Feed.ofView (.ofBytes bs)).advance n

section

variable {bs : List UInt8} {n : Nat}

theorem rest_cursor : (cursor bs n).rest = bs.drop n := by
  simp [cursor, Feed.ofView, View.ofBytes, View.bytes]

theorem advance_cursor (k : Nat) : (cursor bs n).advance k = cursor bs (n + k) :=
  (Feed.advance_add _ n k).symm

theorem loc_cursor (hn : n ≤ bs.length) : (cursor bs n).loc = placeAt bs n := by
  have hrest : (Feed.ofView (.ofBytes bs)).rest = bs := rest_cursor (n := 0)
  have hstart : (Feed.ofView (.ofBytes bs)).loc = .start := rfl
  rw [cursor, Feed.advance_loc, hrest, hstart, foldl_after_start, List.length_take_of_le hn,
    placeAt, placeAt, List.take_take, Nat.min_self]

/-- A token that comes next after what has been cut off up to an offset. -/
structure Follows (bs : List UInt8) (n : Nat) (t : Token) : Prop where
  kind_ne : t.kind ≠ .eof
  le_pos : n ≤ t.loc.pos
  gap : Gap (bs.extract n t.loc.pos)
  pos_lt : t.loc.pos < t.stop
  stop_le : t.stop ≤ bs.length
  edge : isWordy t.kind = true → ∀ b, bs[t.stop]? = some b → isIdentifierByte b = false
  loc_eq : t.loc = placeAt bs t.loc.pos

/-- One scan of a run. -/
theorem next_follows (hn : n ≤ bs.length) {resolver : Resolver} {resolveNames : Bool} {t : Token}
    {g : Feed} (hnext : next resolver resolveNames (cursor bs n) = (.ok t, g)) :
    t.kind = .eof ∧ BlankEnd (bs.drop n) ∨ Follows bs n t ∧ g = cursor bs t.stop := by
  rw [next_eq, rest_cursor] at hnext
  cases hfind : find resolver resolveNames (bs.drop n) with
  | fault why place stop => simp [hfind, Found.at_] at hnext
  | token skipped length kind payload =>
    rw [hfind, Found.at_, take, advance_cursor, advance_cursor] at hnext
    cases hnext
    obtain hend | ⟨gap, rest, hbs, rfl, hgap, htaken⟩ := find_taken hfind
    · exact .inl hend
    · right
      have hlen : bs.length = n + gap.length + rest.length := by
        have := congrArg List.length hbs
        rw [List.length_drop, List.length_append] at this
        omega
      have hlength := htaken.length_le
      have hpos := htaken.length_pos
      have hloc : (cursor bs (n + gap.length)).loc = placeAt bs (n + gap.length) :=
        loc_cursor (by omega)
      have hstop : (cursor bs (n + gap.length + length)).loc =
          placeAt bs (n + gap.length + length) := loc_cursor (by omega)
      have hrest : bs.drop (n + gap.length) = rest := by
        rw [← List.drop_drop, hbs, List.drop_left]
      simp only [hloc, hstop]
      refine ⟨⟨htaken.kind_ne, ?_, ?_, ?_, ?_, ?_, rfl⟩, rfl⟩
      · exact Nat.le_add_right n _
      · simpa [List.extract_eq_take_drop, placeAt, hbs] using hgap
      · simpa [placeAt] using hpos
      · simp only [placeAt]
        omega
      · intro hwordy b hb
        refine htaken.edge hwordy b ?_
        rw [← hrest, List.getElem?_drop]
        exact hb

end

/-- Tokens one after the other, from an offset on, and the offset after the last one. -/
def Tiled (bs : List UInt8) : Nat → List Token → Nat → Prop
  | n, [], m => m = n
  | n, t :: ts, m => Follows bs n t ∧ Tiled bs t.stop ts m

/-- What a run of scans cuts off, where it stops, and that it comes to an end when more tokens are
asked for than there are bytes. -/
theorem scanAll_tiled (bs : List UInt8) (asks : List Ask) {n : Nat} (hn : n ≤ bs.length) :
    ∃ m, Tiled bs n (scanAll asks (cursor bs n)).1 m ∧
      ((scanAll asks (cursor bs n)).2 = .ended → BlankEnd (bs.drop m)) ∧
      (bs.length < n + asks.length → (scanAll asks (cursor bs n)).2 ≠ .asked) := by
  induction asks generalizing n with
  | nil => exact ⟨n, rfl, by simp [scanAll], by simp; omega⟩
  | cons ask asks ih =>
    rw [scanAll]
    split
    · exact ⟨n, rfl, by simp, by simp⟩
    · rename_i t g hnext
      obtain ⟨heof, hend⟩ | ⟨hfollows, rfl⟩ := next_follows hn hnext
      · rw [if_pos heof]
        exact ⟨n, rfl, fun _ => hend, by simp⟩
      · obtain ⟨m, htiled, hended, hasked⟩ := ih hfollows.stop_le
        have hle := hfollows.le_pos
        have hlt := hfollows.pos_lt
        rw [if_neg hfollows.kind_ne]
        refine ⟨m, ⟨hfollows, htiled⟩, hended, fun hmore => hasked ?_⟩
        rw [List.length_cons] at hmore
        omega

/-- The texts before the tokens of a run, each from the end of the token before it. -/
def gaps (bs : List UInt8) : Nat → List Token → List (List UInt8)
  | _, [] => []
  | n, t :: ts => bs.extract n t.loc.pos :: gaps bs t.stop ts

def spans (bs : List UInt8) (ts : List Token) : List (List UInt8) :=
  ts.map fun t => bs.extract t.loc.pos t.stop

def remainder (bs : List UInt8) (ts : List Token) : List UInt8 :=
  bs.drop ((ts.getLast?.map Token.stop).getD 0)

namespace Tiled

variable {bs : List UInt8} {n m : Nat} {ts : List Token}

theorem follows (h : Tiled bs n ts m) : ∀ t ∈ ts, n ≤ t.loc.pos ∧ ∃ k, Follows bs k t := by
  induction ts generalizing n with
  | nil => simp
  | cons t ts ih =>
    obtain ⟨ht, hts⟩ := h
    have hle := ht.le_pos
    have hlt := ht.pos_lt
    intro u hu
    obtain rfl | hu := List.mem_cons.mp hu
    · exact ⟨hle, n, ht⟩
    · obtain ⟨hpos, hfollows⟩ := ih hts u hu
      exact ⟨by omega, hfollows⟩

theorem pairwise (h : Tiled bs n ts m) : ts.Pairwise fun t u => t.stop ≤ u.loc.pos := by
  induction ts generalizing n with
  | nil => exact .nil
  | cons t ts ih => exact .cons (fun u hu => (h.2.follows u hu).1) (ih h.2)

theorem gap (h : Tiled bs n ts m) : ∀ g ∈ gaps bs n ts, Gap g := by
  induction ts generalizing n with
  | nil => simp [gaps]
  | cons t ts ih =>
    intro g hg
    obtain rfl | hg := List.mem_cons.mp hg
    · exact h.1.gap
    · exact ih h.2 g hg

theorem end_eq (h : Tiled bs n ts m) : m = (ts.getLast?.map Token.stop).getD n := by
  induction ts generalizing n with
  | nil => exact h
  | cons t ts ih =>
    rw [ih h.2, List.getLast?_cons]
    cases ts.getLast? <;> rfl

theorem remainder_eq (h : Tiled bs 0 ts m) : remainder bs ts = bs.drop m := by
  rw [h.end_eq, remainder]

/-- Gaps and tokens, in turn, are the text. -/
theorem flatten (h : Tiled bs n ts m) :
    (List.zipWith (· ++ ·) (gaps bs n ts) (spans bs ts)).flatten ++ bs.drop m = bs.drop n := by
  induction ts generalizing n with
  | nil => rw [show m = n from h]; rfl
  | cons t ts ih =>
    have hgap : bs.extract n t.loc.pos ++ bs.drop t.loc.pos = bs.drop n := by
      have hadd : t.loc.pos = n + (t.loc.pos - n) := by have := h.1.le_pos; omega
      rw [List.extract_eq_take_drop, hadd, Nat.add_sub_cancel_left, ← List.drop_drop,
        List.take_append_drop]
    have hspan : bs.extract t.loc.pos t.stop ++ bs.drop t.stop = bs.drop t.loc.pos := by
      have hadd : t.stop = t.loc.pos + (t.stop - t.loc.pos) := by have := h.1.pos_lt; omega
      rw [List.extract_eq_take_drop, hadd, Nat.add_sub_cancel_left, ← List.drop_drop,
        List.take_append_drop]
    have hrest := ih h.2
    rw [spans] at hrest
    rw [spans, gaps, List.map_cons, List.zipWith_cons_cons, List.flatten_cons, List.append_assoc,
      hrest, List.append_assoc, hspan, hgap]

end Tiled

/-- Tokens partition their source: a run of scans, whatever each of them looks words up in, comes to
the end of the source or to an error, and the tokens before that are not empty, in order and apart
from each other, with nothing but white space and whole comments between them. -/
theorem tokens_partition_source (bs : List UInt8) (asks : List Ask) :
    let (ts, halt) := scanAll asks (.ofView (.ofBytes bs))
    (bs.length < asks.length → halt ≠ .asked) ∧
    (∀ t ∈ ts, t.kind ≠ .eof ∧ t.loc.pos < t.stop ∧ t.stop ≤ bs.length) ∧
    ts.Pairwise (fun t u => t.stop ≤ u.loc.pos) ∧
    (∀ g ∈ gaps bs 0 ts, Gap g) ∧
    (halt = .ended → BlankEnd (remainder bs ts)) ∧
    (List.zipWith (· ++ ·) (gaps bs 0 ts) (spans bs ts)).flatten ++ remainder bs ts = bs ∧
    (∀ t ∈ ts, isWordy t.kind = true → ∀ b, bs[t.stop]? = some b → isIdentifierByte b = false) ∧
    ∀ t ∈ ts, t.loc.line = 1 + (bs.take t.loc.pos).count 10 ∧
      t.loc.col = 1 + ((bs.take t.loc.pos).reverse.takeWhile (· ≠ 10)).length := by
  obtain ⟨m, htiled, hended, hasked⟩ := scanAll_tiled bs asks (Nat.zero_le _)
  have hstart : cursor bs 0 = .ofView (.ofBytes bs) := rfl
  rw [hstart] at htiled hended hasked
  rw [Nat.zero_add] at hasked
  generalize scanAll asks _ = run at htiled hended hasked
  obtain ⟨ts, halt⟩ := run
  refine ⟨hasked, ?_, htiled.pairwise, htiled.gap, ?_, ?_, ?_, ?_⟩
  · intro t ht
    obtain ⟨-, k, hfollows⟩ := htiled.follows t ht
    exact ⟨hfollows.kind_ne, hfollows.pos_lt, hfollows.stop_le⟩
  · rw [htiled.remainder_eq]
    exact hended
  · rw [htiled.remainder_eq]
    exact htiled.flatten
  · intro t ht
    obtain ⟨-, k, hfollows⟩ := htiled.follows t ht
    exact hfollows.edge
  · intro t ht
    obtain ⟨-, k, hfollows⟩ := htiled.follows t ht
    have hline := congrArg Location.line hfollows.loc_eq
    have hcol := congrArg Location.col hfollows.loc_eq
    exact ⟨hline, hcol⟩

end Lexer
end Ditlang
