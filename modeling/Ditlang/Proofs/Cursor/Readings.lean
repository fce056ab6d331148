import Ditlang.Eval.Basic
import Ditlang.Proofs.Token.Continued

/-!
# Ditlang.Proofs.Cursor.Readings

Where the reading of a body stands. A reading is `Sharp` when its cursor stands right behind the token
ahead: that token is the last thing that was scanned. A reading `Reaches` another one when that is the
same reading later, and it `Passes` the token ahead when that token has been taken since. Passing takes
something away from what is `left`, so that it can be a measure for loops and for nested terms.
-/

namespace Ditlang

open Source (Location View Feed)

namespace Source.Feed

/-- A cursor stays as far from the end of its text as it has bytes left. -/
theorem end_advance (f : Feed) (n : Nat) :
    (f.advance n).loc.pos + (f.advance n).rest.length = f.loc.pos + f.rest.length := by
  induction n generalizing f with
  | zero => rfl
  | succ n ih =>
    rw [advance]
    split
    · rfl
    · rename_i b rest hrest
      rw [ih, hrest, List.length_cons]
      simp only [Location.after_pos]
      omega

theorem advance_of_rest_eq_nil {f : Feed} (hf : f.rest = []) (n : Nat) : f.advance n = f := by
  cases n with
  | zero => rfl
  | succ n => rw [advance, hf]

theorem pos_advance {f : Feed} {n : Nat} (hn : n ≤ f.rest.length) :
    (f.advance n).loc.pos = f.loc.pos + n := by
  have hend := f.end_advance n
  rw [advance_rest, List.length_drop] at hend
  omega

end Source.Feed

namespace Lexer

/-- A token that is scanned: it stands some bytes further on, and the cursor right behind it. At the end
of a text nothing is taken and nothing is left. -/
theorem next_ok {resolver : Resolver} {resolveNames : Bool} {f g : Feed} {t : Token}
    (ht : next resolver resolveNames f = (.ok t, g)) :
    ∃ k n, g = f.advance (k + n) ∧ k + n ≤ f.rest.length ∧ t.loc = (f.advance k).loc ∧
      t.stop = g.loc.pos ∧ (t.kind = .eof ∧ n = 0 ∧ g.rest = [] ∨ t.kind ≠ .eof ∧ 0 < n) := by
  rw [next_eq] at ht
  cases hfind : find resolver resolveNames f.rest with
  | fault why place stop =>
    rw [hfind] at ht
    cases ht
  | token skipped length kind payload =>
    rw [hfind] at ht
    obtain ⟨-, -, -, hhere⟩ := find_inv hfind
    cases ht
    refine ⟨skipped, length, (f.advance_add skipped length).symm, find_le hfind, rfl, rfl, ?_⟩
    obtain ⟨-, ⟨rfl, hnone⟩ | htaken⟩ := findHere_taken hhere
    · rw [hnone] at hhere
      cases hhere
      exact .inl ⟨rfl, rfl, by simpa [Feed.advance] using hnone⟩
    · exact .inr ⟨htaken.kind_ne, htaken.length_pos⟩

theorem scanString_ok {quote : UInt8} {f g : Feed} {text : String}
    (hf : scanString quote f = (.ok text, g)) : ∃ n, g = f.advance n := by
  rw [scanString] at hf
  split at hf
  · cases hf
  · cases hf
    exact ⟨_, rfl⟩

/-- After a body that is captured, its closing brace is the next token. -/
theorem next_captureBraces {resolver : Resolver} {resolveNames : Bool} {f g g' : Feed} {view : View}
    {t : Token} (hf : captureBraces f = (.ok view, g))
    (ht : next resolver resolveNames g = (.ok t, g')) :
    (∃ n, g = f.advance n) ∧ t.kind = .punct .braceRight ∧ t.loc = g.loc := by
  rw [captureBraces] at hf
  split at hf
  · cases hf
  · rename_i n hclose
    cases hf
    obtain ⟨-, rest, hrest⟩ := closingBrace_drop hclose
    rw [next_eq, Feed.advance_rest, ← Nat.sub_zero n, hrest, find_braceRight] at ht
    cases ht
    exact ⟨⟨n, rfl⟩, rfl, rfl⟩

end Lexer

namespace Reading

/-- The token ahead was scanned from a cursor, and nothing was scanned after it. -/
def ScannedFrom (r : Reading) (f : Feed) : Prop :=
  ∃ resolver resolveNames, Lexer.next resolver resolveNames f = (.ok r.next, r.feed)

/-- The cursor stands right behind the token ahead. -/
def Sharp (r : Reading) : Prop :=
  ∃ f, r.ScannedFrom f

/-- The same body is read, in the same mode. -/
structure SameBody (r r' : Reading) : Prop where
  body : r'.body = r.body
  path : r'.path = r.path
  fragment : r'.fragment = r.fragment

/-- The token that is ahead later was scanned from the cursor on, or from some bytes behind it. -/
structure Scans (r r' : Reading) : Prop extends r.SameBody r' where
  scanned : ∃ n, r'.ScannedFrom (r.feed.advance n)

/-- The token that is ahead now has been taken later. -/
structure Passes (r r' : Reading) : Prop extends r.Scans r' where
  next_ne : r.next.kind ≠ .eof

/-- The same reading, perhaps later. -/
def Reaches (r r' : Reading) : Prop :=
  (r.SameBody r' ∧ r'.feed = r.feed ∧ r'.next = r.next) ∨ r.Scans r'

/-- The next token was scanned; it is not the end, and the reading has gone on from it. -/
def StepsOn (r r' : Reading) : Prop :=
  ∃ u, r.Scans u ∧ u.next.kind ≠ .eof ∧ u.Reaches r'

/-- The number of bytes that are not taken yet; the token ahead counts as one. -/
def left (r : Reading) : Nat :=
  r.feed.rest.length + if r.next.kind = .eof then 0 else 1

/-- So little is left that terms can be nested `n` levels deep at most. It does not matter where the
fuel may run out. -/
def Fits (spent : Prop) (n : Nat) (r : Reading) : Prop :=
  ¬ spent → r.left < n

variable {r r' r'' : Reading} {f : Feed}

/-- The statement that was read ends at the token ahead: at a `;`, or with a fragment. -/
def AtTerminal (r : Reading) : Prop :=
  r.next.kind = .punct .semi ∨ r.next.kind = .eof ∧ r.fragment = true

/-- The token that is ahead later is the brace that closes a body which was opened in between. -/
def Closes (r r' : Reading) : Prop :=
  ∃ u view g, r.Reaches u ∧ u.next.kind = .punct .braceLeft ∧
    Lexer.captureBraces u.feed = (.ok view, g) ∧ r'.next.kind = .punct .braceRight ∧
    r'.next.loc = g.loc

theorem SameBody.refl (r : Reading) : r.SameBody r := ⟨rfl, rfl, rfl⟩

theorem SameBody.trans (h : r.SameBody r') (h' : r'.SameBody r'') : r.SameBody r'' :=
  ⟨h'.body.trans h.body, h'.path.trans h.path, h'.fragment.trans h.fragment⟩

theorem ScannedFrom.of_eq (h : r.ScannedFrom f) (hfeed : r'.feed = r.feed) (hnext : r'.next = r.next) :
    r'.ScannedFrom f := by
  obtain ⟨resolver, resolveNames, hscan⟩ := h
  rw [← hfeed, ← hnext] at hscan
  exact ⟨resolver, resolveNames, hscan⟩

/-! ## Sharp readings -/

theorem Sharp.rest_eq_nil (hr : r.Sharp) (heof : r.next.kind = .eof) : r.feed.rest = [] := by
  obtain ⟨f, resolver, resolveNames, hnext⟩ := hr
  obtain ⟨k, n, -, -, -, -, ⟨-, -, hrest⟩ | ⟨hne, -⟩⟩ := Lexer.next_ok hnext
  · exact hrest
  · exact absurd heof hne

theorem left_of_ne (hne : r.next.kind ≠ .eof) : r.left = r.feed.rest.length + 1 := by
  rw [left, if_neg hne]

theorem left_le (r : Reading) : r.left ≤ r.feed.rest.length + 1 := by
  rw [left]
  split <;> omega

/-! ## Scanning on -/

namespace Scans

theorem of_feed (hbody : r.SameBody r') (hscan : r'.ScannedFrom r.feed) : r.Scans r' :=
  ⟨hbody, 0, hscan⟩

theorem sharp (h : r.Scans r') : r'.Sharp := by
  obtain ⟨n, hn⟩ := h.scanned
  exact ⟨_, hn⟩

/-- The cursor has moved over some bytes that were left, to the end of the token ahead. -/
theorem exists_advance (h : r.Scans r') :
    ∃ n k, n + k ≤ r.feed.rest.length ∧ r'.feed = r.feed.advance (n + k) ∧
      r'.next.loc.pos = r.feed.loc.pos + n ∧ (r'.next.kind ≠ .eof → 0 < k) := by
  obtain ⟨m, resolver, resolveNames, hnext⟩ := h.scanned
  obtain ⟨k, n, hg, hle, hloc, -, hkind⟩ := Lexer.next_ok hnext
  rw [Feed.advance_rest, List.length_drop] at hle
  -- Behind the end of the text there is nothing to move over.
  by_cases hm : m ≤ r.feed.rest.length
  · refine ⟨m + k, n, by omega, ?_, ?_, fun hne => ?_⟩
    · rw [hg, ← Feed.advance_add, Nat.add_assoc]
    · rw [hloc, ← Feed.advance_add, Feed.pos_advance (by omega)]
    · exact hkind.elim (fun h => absurd h.1 hne) fun h => h.2
  · obtain rfl : k = 0 := by omega
    obtain rfl : n = 0 := by omega
    have hsame : r.feed.advance m = r.feed.advance r.feed.rest.length := by
      obtain ⟨x, rfl⟩ := Nat.exists_eq_add_of_le (Nat.le_of_not_le hm)
      rw [Feed.advance_add, Feed.advance_of_rest_eq_nil]
      rw [Feed.advance_rest, List.drop_length]
    refine ⟨r.feed.rest.length, 0, Nat.le_refl _, ?_, ?_, fun hne => ?_⟩
    · rw [hg, hsame]
      rfl
    · rw [hloc, hsame]
      exact Feed.pos_advance (Nat.le_refl _)
    · exact hkind.elim (fun h => absurd h.1 hne) fun h => h.2

theorem left_le (h : r.Scans r') : r'.left ≤ r.feed.rest.length := by
  obtain ⟨n, k, hle, hfeed, -, hpos⟩ := h.exists_advance
  rw [left, hfeed, Feed.advance_rest, List.length_drop]
  split
  · omega
  · rename_i hne
    have := hpos hne
    omega

theorem rest_le (h : r.Scans r') : r'.feed.rest.length ≤ r.feed.rest.length := by
  obtain ⟨n, k, -, hfeed, -⟩ := h.exists_advance
  rw [hfeed, Feed.advance_rest, List.length_drop]
  omega

theorem trans (h : r.Scans r') (h' : r'.Scans r'') : r.Scans r'' := by
  refine ⟨h.toSameBody.trans h'.toSameBody, ?_⟩
  obtain ⟨n, k, -, hfeed, -⟩ := h.exists_advance
  obtain ⟨m, hm⟩ := h'.scanned
  rw [hfeed, ← Feed.advance_add] at hm
  exact ⟨_, hm⟩

/-- What was scanned is still ahead, or it was scanned on from there. -/
theorem reaches (h : r.Scans r') (h' : r'.Reaches r'') : r.Scans r'' := by
  obtain ⟨hbody, hfeed, hnext⟩ | h' := h'
  · obtain ⟨n, hn⟩ := h.scanned
    exact ⟨h.toSameBody.trans hbody, n, hn.of_eq hfeed hnext⟩
  · exact h.trans h'

theorem next_ne (h : r.Scans r') (hr : r.Sharp) (hne : r'.next.kind ≠ .eof) :
    r.next.kind ≠ .eof := by
  intro heof
  obtain ⟨n, k, hle, -, -, hpos⟩ := h.exists_advance
  rw [hr.rest_eq_nil heof, List.length_nil] at hle
  have := hpos hne
  omega

theorem passes (h : r.Scans r') (hr : r.Sharp) (hne : r'.next.kind ≠ .eof) : r.Passes r' :=
  ⟨h, h.next_ne hr hne⟩

end Scans

namespace Reaches

theorem refl (r : Reading) : r.Reaches r := .inl ⟨.refl r, rfl, rfl⟩

theorem of_eq (h : r' = r) : r.Reaches r' := h ▸ refl r

theorem sharp (h : r.Reaches r') (hr : r.Sharp) : r'.Sharp := by
  obtain ⟨-, hfeed, hnext⟩ | h := h
  · exact hr.imp fun _ h => h.of_eq hfeed hnext
  · exact h.sharp

theorem scans (h : r.Reaches r') (h' : r'.Scans r'') : r.Scans r'' := by
  obtain ⟨hbody, hfeed, -⟩ | h := h
  · obtain ⟨n, hn⟩ := h'.scanned
    exact ⟨hbody.trans h'.toSameBody, n, hfeed ▸ hn⟩
  · exact h.trans h'

theorem trans (h : r.Reaches r') (h' : r'.Reaches r'') : r.Reaches r'' := by
  obtain ⟨hbody, hfeed, hnext⟩ | h := h
  · obtain ⟨hbody', hfeed', hnext'⟩ | h' := h'
    · exact .inl ⟨hbody.trans hbody', hfeed'.trans hfeed, hnext'.trans hnext⟩
    · exact .inr (scans (.inl ⟨hbody, hfeed, hnext⟩) h')
  · exact .inr (h.reaches h')

theorem left_le (h : r.Reaches r') : r'.left ≤ r.left := by
  obtain ⟨-, hfeed, hnext⟩ | h := h
  · rw [left, hfeed, hnext, left]
  · exact h.left_le.trans (Nat.le_add_right _ _)

theorem rest_le (h : r.Reaches r') : r'.feed.rest.length ≤ r.feed.rest.length := by
  obtain ⟨-, hfeed, -⟩ | h := h
  · rw [hfeed]
  · exact h.rest_le

theorem passes (h : r.Reaches r') (hr : r.Sharp) (h' : r'.Passes r'') : r.Passes r'' := by
  refine ⟨h.scans h'.toScans, ?_⟩
  obtain ⟨-, -, hnext⟩ | h := h
  · rw [← hnext]
    exact h'.next_ne
  · exact h.next_ne hr h'.next_ne

end Reaches

namespace Passes

theorem reaches (h : r.Passes r') : r.Reaches r' := .inr h.toScans

theorem on (h : r.Passes r') (h' : r'.Reaches r'') : r.Passes r'' :=
  ⟨h.toScans.reaches h', h.next_ne⟩

/-- Taking a token takes something away from what is left. -/
theorem left_lt (h : r.Passes r') : r'.left < r.left := by
  have hle := h.left_le
  rw [left_of_ne h.next_ne]
  omega

end Passes

/-- Bytes are taken by a token that is scanned, unless it is the end. -/
theorem StepsOn.rest_lt (h : r.StepsOn r') : r'.feed.rest.length < r.feed.rest.length := by
  obtain ⟨u, hu, hne, hreaches⟩ := h
  have hleft := hu.left_le
  have hrest := hreaches.rest_le
  rw [left_of_ne hne] at hleft
  omega

theorem Closes.of_reaches (h : r.Reaches r') (h' : r'.Closes r'') : r.Closes r'' := by
  obtain ⟨u, view, g, hu, hopen, hcapture, hclose, hloc⟩ := h'
  exact ⟨u, view, g, h.trans hu, hopen, hcapture, hclose, hloc⟩

namespace Fits

variable {spent : Prop} {n : Nat}

theorem reaches (hr : r.Fits spent n) (h : r.Reaches r') : r'.Fits spent n :=
  fun hspent => Nat.lt_of_le_of_lt h.left_le (hr hspent)

theorem passes (hr : r.Fits spent (n + 1)) (h : r.Passes r') : r'.Fits spent n :=
  fun hspent => Nat.lt_of_lt_of_le h.left_lt (Nat.le_of_lt_succ (hr hspent))

theorem succ (hr : r.Fits spent n) : r.Fits spent (n + 1) :=
  fun hspent => Nat.lt_succ_of_lt (hr hspent)

end Fits

end Reading
end Ditlang
