import Ditlang.Guest.Fencing
import Ditlang.Proofs.Token.Continued

/-!
# Ditlang.Proofs.Token.Places

Places in views. A body is a range of bytes of a buffer, and so is a body that is captured inside it.
Offsets count from the start of the range; lines and columns are those of the whole buffer.

A view is `Placed` when its first place is that of its first byte in the buffer. A slice of a placed
view is placed (`View.Placed.slice`). A cursor that starts at the first byte stays `On` the view
(`Feed.On.advance`); so what is scanned there, its end and every fault stands at a place of the whole
buffer. The line that is quoted with a place is the line of that number (`lineOf_placeAt`).

* `next_ends`, `scanString_ends`, `captureBraces_ends`: how a scan of a placed view ends.
* `next_contained`, `next_laden`: no scan takes more bytes than there are, and a token carries what its
  kind stands for.
* `preprocess_on`: faults in the text of a guest function stand at places of it.
-/

namespace Ditlang
namespace Source

open Lexer (placeAt)

/-! ## Lines -/

/-- A line of a buffer by its number, from 1. -/
def lineOf (buffer : List UInt8) (number : Nat) : Option (List UInt8) :=
  (buffer.splitOn 10)[number - 1]?

/-- The bytes after the last line feed. -/
def lastLine (bs : List UInt8) : List UInt8 :=
  (bs.reverse.takeWhile (· ≠ 10)).reverse

theorem lastLine_of_not_mem {bs : List UInt8} (h : 10 ∉ bs) : lastLine bs = bs := by
  rw [lastLine, List.takeWhile_eq_self_iff.2, List.reverse_reverse]
  intro b hb
  have hne : b ≠ 10 := fun he => h (he ▸ List.mem_reverse.1 hb)
  simpa using hne

theorem lastLine_cons_of_mem {b : UInt8} {bs : List UInt8} (h : 10 ∈ bs) :
    lastLine (b :: bs) = lastLine bs := by
  have hlt : ¬ (bs.reverse.takeWhile (· ≠ 10)).length = bs.reverse.length := by
    intro hlen
    have hall := (List.takeWhile_prefix (· ≠ (10 : UInt8))).eq_of_length hlen
    have := List.mem_takeWhile_imp (hall ▸ List.mem_reverse.2 h)
    simp at this
  rw [lastLine, List.reverse_cons, List.takeWhile_append, if_neg hlt, lastLine]

theorem lastLine_feed (bs : List UInt8) : lastLine (10 :: bs) = lastLine bs := by
  by_cases h : 10 ∈ bs
  · exact lastLine_cons_of_mem h
  · have hall : bs.reverse.takeWhile (· ≠ 10) = bs.reverse := by
      have := congrArg List.reverse (lastLine_of_not_mem h)
      rwa [lastLine, List.reverse_reverse] at this
    rw [lastLine, List.reverse_cons, List.takeWhile_append, if_pos (by rw [hall]), lastLine, hall]
    simp

theorem head_splitOn (bs : List UInt8) :
    (bs.splitOn 10)[0]? = some (bs.takeWhile (· ≠ 10)) := by
  induction bs with
  | nil => rfl
  | cons b bs ih =>
    rw [List.splitOn] at ih ⊢
    rw [List.splitOnP_cons_eq_if_modifyHead]
    by_cases hb : b = 10
    · simp [hb]
    · have hne : (b == 10) = false := by simpa using hb
      simp [hne, hb, List.getElem?_modifyHead, ih]

/-- The line after so many line feeds goes on from the bytes before to those after. -/
theorem getElem?_splitOn_append (xs ys : List UInt8) :
    ((xs ++ ys).splitOn 10)[xs.count 10]? = some (lastLine xs ++ ys.takeWhile (· ≠ 10)) := by
  induction xs with
  | nil => exact head_splitOn ys
  | cons x xs ih =>
    rw [List.splitOn] at ih ⊢
    rw [List.cons_append, List.splitOnP_cons_eq_if_modifyHead]
    by_cases hx : x = 10
    · subst hx
      simp [ih, lastLine_feed]
    · have hne : (x == 10) = false := by simpa using hx
      by_cases h : 10 ∈ xs
      · have hpos : xs.count 10 ≠ 0 := by simpa [List.count_eq_zero] using h
        simp [hne, List.getElem?_modifyHead, List.count_cons_of_ne hx, hpos, ih,
          lastLine_cons_of_mem h]
      · have hzero : xs.count 10 = 0 := List.count_eq_zero.2 h
        have hall : 10 ∉ x :: xs := by simpa [Ne.symm hx] using h
        rw [hzero, lastLine_of_not_mem h] at ih
        simp [hne, List.getElem?_modifyHead, List.count_cons_of_ne hx, hzero, ih,
          lastLine_of_not_mem hall]

/-- The line around an offset of a buffer is the line of its number. -/
theorem lineOf_placeAt (buffer : List UInt8) (n : Nat) :
    lineOf buffer (placeAt buffer n).line = some (View.lineBytes buffer n) := by
  have hline := getElem?_splitOn_append (buffer.take n) (buffer.drop n)
  rw [List.take_append_drop] at hline
  rw [lineOf, placeAt, Nat.add_sub_cancel_left, hline]
  rfl

/-! ## Places -/

/-- The place at an offset of a view. -/
def View.place (v : View) (n : Nat) : Location :=
  { placeAt v.buffer (v.first + n) with pos := n }

/-- A place of a view: an offset in it, with the line and the column that it has in the buffer. -/
structure Location.On (v : View) (l : Location) : Prop where
  le : l.pos ≤ v.length
  eq : l = v.place l.pos

/-- A view lies in its buffer, and its first place is that of its first byte there. -/
structure View.Placed (v : View) : Prop where
  first_le : v.first ≤ v.last
  last_le : v.last ≤ v.buffer.length
  start : v.startLoc = v.place 0

/-- A cursor at a place of a view. -/
structure Feed.On (v : View) (f : Feed) : Prop where
  view : f.view = v
  rest : f.rest = v.bytes.drop f.loc.pos
  loc : f.loc.On v

namespace View.Placed

variable {v : View}

theorem length_bytes (hv : v.Placed) : v.bytes.length = v.length := by
  have hle := hv.first_le
  have hlast := hv.last_le
  simp [View.bytes, View.length]
  omega

theorem getElem?_bytes {n : Nat} (hn : n < v.length) : v.bytes[n]? = v.buffer[v.first + n]? := by
  rw [View.length] at hn
  simp [View.bytes, hn]

theorem ofBytes (bs : List UInt8) : (View.ofBytes bs).Placed :=
  ⟨Nat.zero_le _, Nat.le_refl _, rfl⟩

theorem ofText (s : String) : (View.ofText s).Placed :=
  ofBytes _

/-- A slice of a placed view, from one of its places on, is placed. -/
theorem slice (hv : v.Placed) {l : Location} (hl : l.On v) {n : Nat} (hn : l.pos + n ≤ v.length) :
    (v.slice l.pos (l.pos + n) l).Placed where
  first_le := by simp [View.slice]
  last_le := by
    have hlast := hv.last_le
    have hfirst := hv.first_le
    rw [View.length] at hn
    simp only [View.slice]
    omega
  start := by
    have hline := congrArg Location.line hl.eq
    have hcol := congrArg Location.col hl.eq
    simp only [View.slice, View.place, Nat.add_zero] at *
    rw [hline, hcol]

theorem on_start (hv : v.Placed) : v.startLoc.On v := by
  refine ⟨?_, ?_⟩
  · rw [hv.start]
    exact Nat.zero_le _
  · have hpos : v.startLoc.pos = 0 := by rw [hv.start, View.place]
    rw [hpos]
    exact hv.start

theorem on_ofView (hv : v.Placed) : (Feed.ofView v).On v where
  view := rfl
  rest := by
    have hpos : (Feed.ofView v).loc.pos = 0 := by rw [Feed.ofView, hv.start, View.place]
    rw [hpos]
    rfl
  loc := hv.on_start

end View.Placed

/-! ## Cursors -/

theorem placeAt_succ {bs : List UInt8} {n : Nat} {b : UInt8} (hb : bs[n]? = some b) :
    (placeAt bs n).after b = placeAt bs (n + 1) := by
  have hn : n < bs.length := (List.getElem?_eq_some_iff.1 hb).1
  have hall (k : Nat) (hk : k ≤ bs.length) :
      (bs.take k).foldl Location.after .start = placeAt bs k := by
    rw [Lexer.foldl_after_start, List.length_take_of_le hk, placeAt, placeAt, List.take_take,
      Nat.min_self]
  rw [← hall n hn.le, ← hall (n + 1) hn, List.take_add_one, hb, List.foldl_append]
  rfl

theorem View.place_succ {v : View} {n : Nat} {b : UInt8} (hb : v.buffer[v.first + n]? = some b) :
    (v.place n).after b = v.place (n + 1) := by
  have hsucc := placeAt_succ hb
  rw [View.place, View.place, ← Nat.add_assoc, ← hsucc]
  unfold Location.after
  split <;> rfl

theorem View.place_add {v : View} {n k : Nat} {bs : List UInt8}
    (hbs : (v.buffer.drop (v.first + n)).take k = bs) (hlen : bs.length = k) (hfeed : 10 ∉ bs) :
    v.place (n + k) = ⟨n + k, (v.place n).line, (v.place n).col + k⟩ := by
  induction k generalizing n bs with
  | zero => rfl
  | succ k ih =>
    cases hd : v.buffer.drop (v.first + n) with
    | nil =>
      rw [hd, List.take_nil] at hbs
      subst hbs
      cases hlen
    | cons b rest =>
      rw [hd, List.take_succ_cons] at hbs
      subst hbs
      have hb : v.buffer[v.first + n]? = some b := by
        have := congrArg (·[0]?) hd
        simpa using this
      have hrest : v.buffer.drop (v.first + (n + 1)) = rest := by
        rw [← Nat.add_assoc, ← List.drop_drop, hd]
        rfl
      have hne : b ≠ 10 := fun he => hfeed (he ▸ List.mem_cons_self)
      have hnext := View.place_succ hb
      rw [Location.after, if_neg hne] at hnext
      have htail := ih (n := n + 1) (by rw [hrest]) (by simpa using hlen)
        (fun hin => hfeed (List.mem_cons_of_mem _ hin))
      rw [Nat.add_right_comm, Nat.add_assoc] at htail
      rw [htail, ← hnext]
      simp only [Nat.add_assoc, Nat.add_comm 1 k]

namespace Feed.On

variable {v : View} {f : Feed}

theorem length_rest (hv : v.Placed) (hf : f.On v) : f.loc.pos + f.rest.length = v.length := by
  have hle := hf.loc.le
  rw [hf.rest, List.length_drop, hv.length_bytes]
  omega

theorem getElem?_buffer (hv : v.Placed) (hf : f.On v) {b : UInt8} {rest : List UInt8}
    (hrest : f.rest = b :: rest) : v.buffer[v.first + f.loc.pos]? = some b := by
  have hlen := hf.length_rest hv
  rw [hrest, List.length_cons] at hlen
  rw [← View.Placed.getElem?_bytes (by omega)]
  have := congrArg (·[0]?) (hf.rest.symm.trans hrest)
  simpa using this

/-- A cursor that takes a byte stays on its view. -/
theorem pop (hv : v.Placed) (hf : f.On v) {b : UInt8} {rest : List UInt8}
    (hrest : f.rest = b :: rest) : Feed.On v { f with rest := rest, loc := f.loc.after b } where
  view := hf.view
  rest := by
    have hdrop := hf.rest.symm.trans hrest
    rw [Location.after_pos, ← List.drop_drop, hdrop]
    rfl
  loc := by
    have hlen := hf.length_rest hv
    rw [hrest, List.length_cons] at hlen
    have hnext := View.place_succ (hf.getElem?_buffer hv hrest)
    rw [← hf.loc.eq] at hnext
    refine ⟨?_, ?_⟩
    · rw [Location.after_pos]
      omega
    · rw [hnext]
      rfl

theorem advance (hv : v.Placed) (hf : f.On v) (n : Nat) : (f.advance n).On v := by
  induction n generalizing f with
  | zero => exact hf
  | succ n ih =>
    rw [Feed.advance]
    split
    · exact hf
    · rename_i b rest hrest
      exact ih (hf.pop hv hrest)

end Feed.On

/-- Takes bytes one by one; none if there are not so many. -/
def Feed.pops : Nat → Feed → Option Feed
  | 0, f => some f
  | n + 1, f => f.pop?.bind fun (_, g) => pops n g

theorem Feed.pops_eq_advance {f : Feed} {n : Nat} (hn : n ≤ f.rest.length) :
    f.pops n = some (f.advance n) := by
  induction n generalizing f with
  | zero => rfl
  | succ n ih =>
    cases hrest : f.rest with
    | nil => simp [hrest] at hn
    | cons b rest =>
      have htail : n ≤ rest.length := by simpa [hrest] using hn
      simp only [Feed.pops, Feed.pop?, Feed.advance, hrest, Option.bind_some]
      exact ih htail

end Source

open Source (Location View Feed)

/-! ## Tokens -/

/-- A token carries what its kind stands for: a number its value, a word that names something the
slot. -/
structure Token.Laden (t : Token) : Prop where
  number : t.kind = .number → ∃ x, t.payload = .number x
  value : ∀ k, t.kind = .value k → t.slot?.isSome

theorem Token.Laden.of_kind {t : Token} (hnumber : t.kind ≠ .number) (hvalue : ∀ k, t.kind ≠ .value k) :
    t.Laden :=
  ⟨fun h => absurd h hnumber, fun k h => absurd h (hvalue k)⟩

/-- A token that was scanned in a view. -/
structure Token.On (v : View) (t : Token) : Prop extends t.Laden where
  loc : t.loc.On v
  endLoc : t.endLoc.On v

theorem Token.on_eof {v : View} {l : Location} (hl : l.On v) : (Token.eof l).On v where
  toLaden := .of_kind (by simp [Token.eof]) (by simp [Token.eof])
  loc := hl
  endLoc := by simpa [Token.endLoc, Token.eof] using hl

namespace Lexer

variable {resolver : Resolver} {resolveNames : Bool} {bs : List UInt8}

theorem laden_classify (resolver : Resolver) (resolveNames : Bool) (word : String) (loc : Location)
    (stop : Nat) :
    (Token.mk (classify resolver resolveNames word).1 loc stop
      (classify resolver resolveNames word).2).Laden := by
  unfold classify
  split
  · exact ⟨nofun, nofun⟩
  · split
    · split
      · exact ⟨nofun, fun _ _ => rfl⟩
      · exact ⟨nofun, nofun⟩
    · exact ⟨nofun, nofun⟩

theorem ne_feed_of_isIdentifierByte {b : UInt8} (hb : isIdentifierByte b = true) : b ≠ 10 := by
  rintro rfl
  exact absurd hb (by decide)

theorem not_mem_takeWhile (bs : List UInt8) : 10 ∉ bs.takeWhile isIdentifierByte :=
  fun hmem => ne_feed_of_isIdentifierByte (List.mem_takeWhile_imp hmem) rfl

theorem not_mem_numberLength (bs : List UInt8) : 10 ∉ bs.take (numberLength bs) := by
  have hwhole : bs.take (bs.takeWhile isIdentifierByte).length = bs.takeWhile isIdentifierByte :=
    List.prefix_iff_eq_take.1 (List.takeWhile_prefix _) |>.symm
  have hplain := hwhole ▸ not_mem_takeWhile bs
  rw [numberLength]
  split
  · rename_i c d rest hdrop
    split
    · rename_i hpoint
      have hc : c = 46 := by simpa using (Bool.and_eq_true_iff.1 hpoint).1
      have hfraction : (d :: rest).take ((d :: rest).takeWhile isIdentifierByte).length =
          (d :: rest).takeWhile isIdentifierByte :=
        (List.prefix_iff_eq_take.1 (List.takeWhile_prefix _)).symm
      rw [Nat.add_assoc, List.take_add, hdrop, Nat.add_comm 1, List.take_succ_cons, hfraction, hc]
      intro hmem
      rcases List.mem_append.1 hmem with hmem | hmem
      · exact hplain hmem
      · rcases List.mem_cons.1 hmem with hmem | hmem
        · exact absurd hmem (by decide)
        · exact not_mem_takeWhile _ hmem
    · exact hplain
  · exact hplain

theorem fence_ne_feed {a b : UInt8} {f : Fence} (hf : Fence.ofBytes? a b = some f) :
    a ≠ 10 ∧ b ≠ 10 := by
  constructor
  · rintro rfl
    simp [Fence.ofBytes?] at hf
  · rintro rfl
    simp [Fence.ofBytes?] at hf

/-- A token that is found has no line feed in it, and carries what its kind stands for. -/
theorem findHere_whole {skipped length : Nat} {kind : TokenKind} {payload : Payload}
    (hfind : findHere resolver resolveNames bs = .token skipped length kind payload) :
    10 ∉ bs.take length ∧ ∀ loc stop, (Token.mk kind loc stop payload).Laden := by
  cases bs with
  | nil =>
    cases hfind
    exact ⟨List.not_mem_nil, fun _ _ => .of_kind (by simp) (by simp)⟩
  | cons b rest =>
    rw [findHere] at hfind
    split at hfind
    · rename_i fence hfence
      cases hfind
      obtain ⟨c, hc, hfence⟩ := Option.bind_eq_some_iff.1 hfence
      obtain ⟨hb, hc'⟩ := fence_ne_feed hfence
      cases rest with
      | nil => cases hc
      | cons d rest =>
        cases hc
        exact ⟨by simp [hb.symm, hc'.symm], fun _ _ => .of_kind (by simp) (by simp)⟩
    · split at hfind
      · rename_i p hp
        cases hfind
        have hnone : Punct.ofByte? 10 = none := by decide
        have hb : b ≠ 10 := by
          rintro rfl
          cases hnone.symm.trans hp
        exact ⟨by simp [hb.symm], fun _ _ => .of_kind (by simp) (by simp)⟩
      · split at hfind
        · dsimp only at hfind
          split at hfind
          · cases hfind
            exact ⟨not_mem_numberLength _, fun _ _ => ⟨fun _ => ⟨_, rfl⟩, by simp⟩⟩
          · cases hfind
        · split at hfind
          · have hword := laden_classify resolver resolveNames
              (Text.ofBytes ((b :: rest).takeWhile isIdentifierByte))
            cases hfind
            refine ⟨?_, hword⟩
            rw [← List.prefix_iff_eq_take.1 (List.takeWhile_prefix _)]
            exact not_mem_takeWhile _
          · cases hfind

/-- What is found where nothing is a token is not the end of the feed. -/
theorem findHere_fault {why : LexFault} {place stop : Nat}
    (hfind : findHere resolver resolveNames bs = .fault why place stop) : why ≠ .pastEnd := by
  cases bs with
  | nil => cases hfind
  | cons b rest =>
    rw [findHere] at hfind
    split at hfind
    · cases hfind
    · split at hfind
      · cases hfind
      · split at hfind
        · dsimp only at hfind
          split at hfind
          · cases hfind
          · cases hfind
            simp
        · split at hfind
          · cases hfind
          · cases hfind
            simp

theorem findHere_stop_le {why : LexFault} {place stop : Nat}
    (hfind : findHere resolver resolveNames bs = .fault why place stop) : stop ≤ bs.length := by
  cases bs with
  | nil => cases hfind
  | cons b rest =>
    rw [findHere] at hfind
    split at hfind
    · cases hfind
    · split at hfind
      · cases hfind
      · split at hfind
        · rename_i hdigit
          have htaken : Taken (b :: rest) (numberLength (b :: rest)) .number :=
            numberLength_taken (isIdentifierByte_of_isDigitByte hdigit)
          dsimp only at hfind
          split at hfind
          · cases hfind
          · cases hfind
            exact htaken.length_le
        · split at hfind
          · cases hfind
          · cases hfind
            exact Nat.zero_le _

/-- A fault after some bytes comes from the bytes that are left. -/
theorem Found.shift_eq_fault {n : Nat} {x : Found} {why : LexFault} {place stop : Nat}
    (hx : x.shift n = .fault why place stop) : ∃ p k, x = .fault why p k ∧ stop = n + k := by
  cases x with
  | token => cases hx
  | fault why' p k =>
    cases hx
    exact ⟨p, k, rfl, rfl⟩

/-- A fault is an open comment, or it is found where the blank text ends. -/
theorem find_fault_cases {why : LexFault} {place stop : Nat}
    (hfind : find resolver resolveNames bs = .fault why place stop) :
    stop ≤ bs.length ∧ why = .openComment ∨
      ∃ n p k, n ≤ bs.length ∧ stop = n + k ∧
        findHere resolver resolveNames (bs.drop n) = .fault why p k := by
  have hpassed := scanBlank_passed .outside 0 bs
  rw [find] at hfind
  generalize scanBlank .outside 0 bs = scanned at hpassed hfind
  obtain ⟨n, mode⟩ := scanned
  obtain ⟨gap, rest, hbs, hn, -⟩ := hpassed
  have hle : n ≤ bs.length := by
    rw [hbs, List.length_append]
    omega
  cases mode with
  | block start =>
    cases hfind
    exact .inl ⟨hle, rfl⟩
  | outside | line =>
    obtain ⟨p, k, hhere, hstop⟩ := Found.shift_eq_fault hfind
    exact .inr ⟨n, p, k, hle, hstop, hhere⟩

theorem find_stop_le {why : LexFault} {place stop : Nat}
    (hfind : find resolver resolveNames bs = .fault why place stop) : stop ≤ bs.length := by
  obtain ⟨hle, -⟩ | ⟨n, p, k, hn, rfl, hhere⟩ := find_fault_cases hfind
  · exact hle
  · have hk := findHere_stop_le hhere
    rw [List.length_drop] at hk
    omega

theorem find_fault {why : LexFault} {place stop : Nat}
    (hfind : find resolver resolveNames bs = .fault why place stop) : why ≠ .pastEnd := by
  obtain ⟨-, rfl⟩ | ⟨n, p, k, -, -, hhere⟩ := find_fault_cases hfind
  · simp
  · exact findHere_fault hhere

/-! ## Scans -/

/-- How a scan of a view ends: on the view, with a result of a kind or with an error at a place of the
view that is not the end of the feed. -/
def ScanEnds {α : Type} (v : View) (post : α → Prop) : Except LexError α × Feed → Prop
  | (.ok a, f) => f.On v ∧ post a
  | (.error e, f) => f.On v ∧ e.loc.On v ∧ e.fault ≠ .pastEnd

/-- The place past a token is that after its bytes. -/
theorem take_on {v : View} (hv : v.Placed) {f : Feed} (hf : f.On v) {n : Nat} (hn : n ≤ f.rest.length)
    (hplain : 10 ∉ f.rest.take n) (kind : TokenKind) (payload : Payload) :
    (take f n kind payload).1.loc.On v ∧ (take f n kind payload).1.endLoc.On v := by
  refine ⟨hf.loc, ?_⟩
  have hlen := hf.length_rest hv
  have hstop : (f.advance n).loc.pos = f.loc.pos + n := by
    have := (hf.advance hv n).length_rest hv
    rw [Feed.advance_rest, List.length_drop] at this
    omega
  have hbytes : (v.buffer.drop (v.first + f.loc.pos)).take n = f.rest.take n := by
    rw [hf.rest, View.bytes, List.drop_take, List.drop_drop, List.take_take, Nat.min_eq_left]
    rw [View.length] at hlen
    omega
  have hplace := View.place_add hbytes (List.length_take_of_le hn) hplain
  have hend : (take f n kind payload).1.endLoc =
      ⟨f.loc.pos + n, f.loc.line, f.loc.col + n⟩ := by
    simp [take, Token.endLoc, hstop]
  rw [hend]
  refine ⟨by dsimp only; omega, ?_⟩
  rw [hplace, ← hf.loc.eq]

theorem next_ends (resolver : Resolver) (resolveNames : Bool) {v : View} (hv : v.Placed) {f : Feed}
    (hf : f.On v) : ScanEnds v (Token.On v) (next resolver resolveNames f) := by
  rw [next_eq]
  cases hfind : find resolver resolveNames f.rest with
  | fault why place stop =>
    exact ⟨hf.advance hv stop, (hf.advance hv place).loc, find_fault hfind⟩
  | token skipped length kind payload =>
    obtain ⟨-, -, -, hhere⟩ := find_inv hfind
    obtain ⟨hplain, hladen⟩ := findHere_whole hhere
    have hle := find_le hfind
    have hskip := hf.advance hv skipped
    rw [← Feed.advance_rest] at hplain
    have hlen : length ≤ (f.advance skipped).rest.length := by
      rw [Feed.advance_rest, List.length_drop]
      omega
    obtain ⟨hloc, hend⟩ := take_on hv hskip hlen hplain kind payload
    exact ⟨hskip.advance hv length, hladen _ _, hloc, hend⟩

theorem scanString_ends (quote : UInt8) {v : View} (hv : v.Placed) {f : Feed} (hf : f.On v) :
    ScanEnds v (fun _ => True) (scanString quote f) := by
  rw [scanString]
  split
  · exact ⟨hf, hf.loc, by simp⟩
  · exact ⟨hf.advance hv _, trivial⟩

/-- A body that is captured in a view has the places that it has in the view. -/
theorem captureBraces_ends {v : View} (hv : v.Placed) {f : Feed} (hf : f.On v) :
    ScanEnds v View.Placed (captureBraces f) := by
  rw [captureBraces]
  split
  · exact ⟨hf.advance hv _, hf.loc, by simp⟩
  · rename_i n hclose
    obtain ⟨-, hn⟩ := closingBrace_append hclose []
    have hlen := hf.length_rest hv
    rw [hf.view]
    exact ⟨hf.advance hv n, hv.slice hf.loc (by omega)⟩

/-- A scan takes no more bytes than there are, and does not report that it did. -/
structure Contained {α : Type} (f : Feed) (r : Except LexError α × Feed) : Prop where
  pops : ∃ n, f.pops n = some r.2
  fault : ∀ e, r.1 = .error e → e.fault ≠ .pastEnd

theorem next_contained (resolver : Resolver) (resolveNames : Bool) (f : Feed) :
    Contained f (next resolver resolveNames f) := by
  rw [next_eq]
  cases hfind : find resolver resolveNames f.rest with
  | token skipped length kind payload =>
    refine ⟨⟨skipped + length, ?_⟩, nofun⟩
    rw [Feed.pops_eq_advance (find_le hfind), Feed.advance_add]
    rfl
  | fault why place stop =>
    refine ⟨⟨stop, Feed.pops_eq_advance (find_stop_le hfind)⟩, ?_⟩
    rintro _ ⟨⟩
    exact find_fault hfind

/-- Whatever names are known, a token carries what its kind stands for. -/
theorem next_laden {resolver : Resolver} {resolveNames : Bool} {f : Feed} {t : Token}
    (ht : (next resolver resolveNames f).1 = .ok t) : t.Laden := by
  rw [next_eq] at ht
  cases hfind : find resolver resolveNames f.rest with
  | token skipped length kind payload =>
    rw [hfind] at ht
    cases ht
    obtain ⟨-, -, -, hhere⟩ := find_inv hfind
    exact (findHere_whole hhere).2 _ _
  | fault why place stop =>
    rw [hfind] at ht
    cases ht

theorem scanString_contained (quote : UInt8) (f : Feed) : Contained f (scanString quote f) := by
  rw [scanString]
  split
  · refine ⟨⟨0, rfl⟩, ?_⟩
    rintro _ ⟨⟩
    exact nofun
  · rename_i n hn
    exact ⟨⟨n, Feed.pops_eq_advance (List.findIdx?_eq_some_iff_getElem.1 hn).1.le⟩, nofun⟩

theorem captureBraces_contained (f : Feed) : Contained f (captureBraces f) := by
  rw [captureBraces]
  split
  · refine ⟨⟨_, Feed.pops_eq_advance (Nat.le_refl _)⟩, ?_⟩
    rintro _ ⟨⟩
    exact nofun
  · rename_i n hclose
    obtain ⟨-, hn⟩ := closingBrace_append hclose []
    exact ⟨⟨n, Feed.pops_eq_advance (by omega)⟩, nofun⟩

end Lexer

/-! ## Guest bodies -/

namespace Guest

variable {v : View}

/-- The fences of a body stand at places of its view. -/
theorem pieces_on (hv : v.Placed) {loc : Location} {bs : List UInt8} (hf : Feed.On v ⟨v, bs, loc⟩)
    {f : Fence} {l : Location} (hl : .fence f l ∈ pieces loc bs) : l.On v := by
  fun_induction pieces loc bs with
  | case1 => cases hl
  | case2 loc b =>
    cases List.mem_singleton.1 hl
  | case3 loc a b rest f' hfence ih =>
    rcases List.mem_cons.1 hl with ⟨⟨⟩⟩ | hl
    · exact hf.loc
    · exact ih ((hf.pop hv rfl).pop hv rfl) hl
  | case4 loc a b rest hfence ih =>
    rcases List.mem_cons.1 hl with ⟨⟨⟩⟩ | hl
    exact ih (hf.pop hv rfl) hl

theorem mem_stepFence {stack stack' : List Location} {f : Fence} {loc l : Location}
    (hstep : stepFence stack f loc = some stack') (hl : l ∈ stack') : l = loc ∨ l ∈ stack := by
  unfold stepFence at hstep
  dsimp only at hstep
  split at hstep
  · split at hstep
    · cases hstep
      exact List.mem_cons.1 hl
    · cases hstep
  · split at hstep
    · cases hstep
    · cases hstep
      exact .inr (List.mem_cons_of_mem _ hl)
  · split at hstep
    · cases hstep
    · cases hstep
      exact List.mem_cons.1 hl
  · split at hstep
    · cases hstep
      exact .inr (List.mem_cons_of_mem _ hl)
    · cases hstep
  · cases hstep

/-- A fault of fences is one of their places. -/
theorem checkFences_mem {stack : List Location} {ps : List Piece} {fault : FencingFault}
    {loc : Location} (herr : checkFences stack ps = .error (fault, loc)) :
    loc ∈ stack ∨ ∃ f, .fence f loc ∈ ps := by
  fun_induction checkFences stack ps with
  | case1 => cases herr
  | case2 opener outer =>
    cases herr
    exact .inl List.mem_cons_self
  | case3 stack b rest ih =>
    rcases ih herr with hmem | ⟨f, hmem⟩
    · exact .inl hmem
    · exact .inr ⟨f, List.mem_cons_of_mem _ hmem⟩
  | case4 stack f l rest stack' hstep ih =>
    rcases ih herr with hmem | ⟨f', hmem⟩
    · rcases mem_stepFence hstep hmem with rfl | hmem
      · exact .inr ⟨f, List.mem_cons_self⟩
      · exact .inl hmem
    · exact .inr ⟨f', List.mem_cons_of_mem _ hmem⟩
  | case5 stack f l rest hstep =>
    cases herr
    exact .inr ⟨f, List.mem_cons_self⟩

/-- A fault in the text of a guest body is at a place of its view. -/
theorem preprocess_on (hv : v.Placed) {m : Markers} {d : Diagnostic}
    (herr : preprocess v m = .error d) :
    d.origin = none ∧ d.kind ≠ .critical ∧ ∃ l, d.pending = some l ∧ l.On v := by
  rw [preprocess] at herr
  split at herr
  · rename_i fault loc hcheck
    cases herr
    rcases checkFences_mem hcheck with hmem | ⟨f, hmem⟩
    · cases hmem
    · exact ⟨rfl, by simp [Diagnostic.at_, Diagnostic.malformed], loc, rfl,
        pieces_on hv hv.on_ofView hmem⟩
  · cases herr

end Guest

end Ditlang
