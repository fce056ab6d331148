import Ditlang.Proofs.Text
import Ditlang.Proofs.Token.Partition

/-!
# Ditlang.Proofs.Token.Continued

Sources that go on. When a source is continued on a new line, every token of it is still found, as
it was; and where it was at its end, the first token of what follows is found instead. A line feed
ends every word and number and every line comment, and is part of no token, so that nothing that
was scanned before it depends on what comes after it.
-/

namespace Ditlang

/-! ## Texts -/

namespace Text

/-- The bytes of a text that goes on on a new line. -/
theorem bytes_continued (a b : String) : bytes (a ++ "\n" ++ b) = bytes a ++ 10 :: bytes b := by
  have hfeed : bytes "\n" = [10] := by decide +kernel
  rw [bytes_append, bytes_append, hfeed, List.append_assoc, List.singleton_append]

end Text

namespace Lexer

open Source (Location View Feed)

theorem Found.shift_shift (m n : Nat) (x : Found) : (x.shift n).shift m = x.shift (m + n) := by
  cases x <;> simp [shift, Nat.add_assoc]

/-! ## Blank text -/

/-- The mode with its offset moved. -/
def BlankMode.shift (m : Nat) : BlankMode → BlankMode
  | .outside => .outside
  | .line => .line
  | .block start => .block (m + start)

/-- Where a scan for blank text starts to count does not matter. -/
theorem scanBlank_add (m : Nat) (mode : BlankMode) (n : Nat) (bs : List UInt8) :
    scanBlank (mode.shift m) (m + n) bs =
      (m + (scanBlank mode n bs).1, (scanBlank mode n bs).2.shift m) := by
  fun_induction scanBlank mode n bs with
  | case1 mode n => cases mode <;> rfl
  | case2 n b hb => simp [BlankMode.shift, scanBlank, hb, Nat.add_assoc]
  | case3 n b hb => simp [BlankMode.shift, scanBlank, hb]
  | case4 n b c rest hb ih => simpa [BlankMode.shift, scanBlank, hb, Nat.add_assoc] using ih
  | case5 n b c rest hb hslash ih =>
    obtain ⟨rfl, rfl⟩ := hslash
    simpa [BlankMode.shift, scanBlank, hb, Nat.add_assoc] using ih
  | case6 n b c rest hb hslash hopen ih =>
    obtain ⟨rfl, rfl⟩ := hopen
    simpa [BlankMode.shift, scanBlank, hb, Nat.add_assoc] using ih
  | case7 n b c rest hb hslash hopen => simp [BlankMode.shift, scanBlank, hb, hslash, hopen]
  | case8 n rest ih => simpa [BlankMode.shift, scanBlank, Nat.add_assoc] using ih
  | case9 n b rest hb ih => simpa [BlankMode.shift, scanBlank, hb, Nat.add_assoc] using ih
  | case10 n start b => simp [BlankMode.shift, scanBlank, Nat.add_assoc]
  | case11 n start b c rest hclose ih =>
    simpa [BlankMode.shift, scanBlank, hclose, Nat.add_assoc] using ih
  | case12 n start b c rest hclose ih =>
    simpa [BlankMode.shift, scanBlank, hclose, Nat.add_assoc] using ih

/-- What a scan for blank text does on a text that goes on: it ends where it ended, or goes on past
the line feed. -/
theorem scanBlank_append {mode ended : BlankMode} {n k : Nat} {bs : List UInt8} (more : List UInt8)
    (hscan : scanBlank mode n bs = (k, ended)) (hended : ∀ start, ended ≠ .block start) :
    (k = n + bs.length ∧ scanBlank mode n (bs ++ 10 :: more) = scanBlank .outside (k + 1) more) ∨
      (k < n + bs.length ∧ ended = .outside ∧
        scanBlank mode n (bs ++ 10 :: more) = (k, .outside)) := by
  have hfeed : ∀ m, scanBlank .outside m (10 :: more) = scanBlank .outside (m + 1) more := by
    intro m
    cases more <;> rfl
  fun_induction scanBlank mode n bs with
  | case1 mode n =>
    cases hscan
    refine .inl ⟨rfl, ?_⟩
    cases ended with
    | outside => exact hfeed k
    | line => simp [scanBlank]
    | block start => exact absurd rfl (hended start)
  | case2 n b hb =>
    cases hscan
    refine .inl ⟨rfl, ?_⟩
    simp [scanBlank, hb, hfeed]
  | case3 n b hb =>
    cases hscan
    exact .inr ⟨by simp, rfl, by simp [scanBlank, hb]⟩
  | case4 n b c rest hb ih =>
    simpa [scanBlank, hb, Nat.add_assoc, Nat.add_comm, Nat.add_left_comm] using ih hscan
  | case5 n b c rest hb hslash ih =>
    obtain ⟨rfl, rfl⟩ := hslash
    simpa [scanBlank, hb, Nat.add_assoc, Nat.add_comm, Nat.add_left_comm] using ih hscan
  | case6 n b c rest hb hslash hopen ih =>
    obtain ⟨rfl, rfl⟩ := hopen
    simpa [scanBlank, hb, Nat.add_assoc, Nat.add_comm, Nat.add_left_comm] using ih hscan
  | case7 n b c rest hb hslash hopen =>
    cases hscan
    exact .inr ⟨by simp, rfl, by simp [scanBlank, hb, hslash, hopen]⟩
  | case8 n rest ih =>
    simpa [scanBlank, Nat.add_assoc, Nat.add_comm, Nat.add_left_comm] using ih hscan
  | case9 n b rest hb ih =>
    simpa [scanBlank, hb, Nat.add_assoc, Nat.add_comm, Nat.add_left_comm] using ih hscan
  | case10 n start b =>
    cases hscan
    exact absurd rfl (hended _)
  | case11 n start b c rest hclose ih =>
    simpa [scanBlank, hclose, Nat.add_assoc, Nat.add_comm, Nat.add_left_comm] using ih hscan
  | case12 n start b c rest hclose ih =>
    simpa [scanBlank, hclose, Nat.add_assoc, Nat.add_comm, Nat.add_left_comm] using ih hscan

/-! ## Words and numbers -/

section

variable {resolver : Resolver} {resolveNames : Bool} {bs : List UInt8}

theorem takeWhile_append_feed {p : UInt8 → Bool} (hp : p 10 = false) (bs more : List UInt8) :
    (bs ++ 10 :: more).takeWhile p = bs.takeWhile p := by
  induction bs with
  | nil => simp [hp]
  | cons b bs ih => rw [List.cons_append, List.takeWhile_cons, List.takeWhile_cons, ih]

/-- A number ends before the line feed, also where it would go on after a point. -/
theorem numberLength_append (bs more : List UInt8) :
    numberLength (bs ++ 10 :: more) = numberLength bs := by
  have hword (bs : List UInt8) := takeWhile_append_feed (p := isIdentifierByte) rfl bs more
  rw [numberLength, numberLength, hword]
  rw [List.drop_append_of_le_length (length_takeWhile_le bs)]
  rcases bs.drop (bs.takeWhile isIdentifierByte).length with _ | ⟨b, _ | ⟨c, rest⟩⟩
  · cases more <;> rfl
  · simp [isDigitByte]
  · have hfraction := hword (c :: rest)
    rw [List.cons_append] at hfraction
    rw [List.cons_append, List.cons_append]
    dsimp only
    rw [hfraction]

theorem fence_append (b : UInt8) (rest more : List UInt8) :
    (rest ++ 10 :: more).head?.bind (Fence.ofBytes? b) = rest.head?.bind (Fence.ofBytes? b) := by
  cases rest with
  | nil => simp [Fence.ofBytes?]
  | cons c rest => rfl

theorem findHere_append {skipped length : Nat} {kind : TokenKind} {payload : Payload}
    (hfind : findHere resolver resolveNames bs = .token skipped length kind payload) (hbs : bs ≠ [])
    (more : List UInt8) :
    findHere resolver resolveNames (bs ++ 10 :: more) = .token skipped length kind payload := by
  cases bs with
  | nil => exact absurd rfl hbs
  | cons b rest =>
    have hnumber := numberLength_append (b :: rest) more
    have hword := takeWhile_append_feed (p := isIdentifierByte) rfl (b :: rest) more
    rw [List.cons_append] at hnumber hword
    rw [List.cons_append, findHere, fence_append, hnumber, hword]
    rw [findHere] at hfind
    revert hfind
    cases rest.head?.bind (Fence.ofBytes? b) with
    | some fence => exact id
    | none =>
      cases Punct.ofByte? b with
      | some p => exact id
      | none =>
        cases hdigit : isDigitByte b with
        | true =>
          have htaken : Taken (b :: rest) (numberLength (b :: rest)) .number :=
            numberLength_taken (isIdentifierByte_of_isDigitByte hdigit)
          have htext : (b :: (rest ++ 10 :: more)).take (numberLength (b :: rest)) =
              (b :: rest).take (numberLength (b :: rest)) := by
            rw [← List.cons_append, List.take_append_of_le_length htaken.length_le]
          dsimp only
          rw [htext]
          exact id
        | false =>
          simp only [Bool.false_eq_true, if_false]
          cases isIdentifierByte b with
          | true => exact id
          | false =>
            simp only [Bool.false_eq_true, if_false]
            intro hfind
            cases hfind

/-! ## Tokens -/

theorem find_of_scanBlank {ended : BlankMode} {k : Nat}
    (hscan : scanBlank .outside 0 bs = (k, ended)) (hended : ∀ start, ended ≠ .block start) :
    find resolver resolveNames bs = (findHere resolver resolveNames (bs.drop k)).shift k := by
  rw [find, hscan]
  cases ended with
  | outside => rfl
  | line => rfl
  | block start => exact absurd rfl (hended start)

theorem find_inv {skipped length : Nat} {kind : TokenKind} {payload : Payload}
    (hfind : find resolver resolveNames bs = .token skipped length kind payload) :
    ∃ ended, scanBlank .outside 0 bs = (skipped, ended) ∧ (∀ start, ended ≠ .block start) ∧
      findHere resolver resolveNames (bs.drop skipped) = .token 0 length kind payload := by
  cases hscan : scanBlank .outside 0 bs with | mk k ended
  have hended : ∀ start, ended ≠ .block start := by
    rintro start rfl
    rw [find, hscan] at hfind
    cases hfind
  rw [find_of_scanBlank hscan hended] at hfind
  obtain ⟨skip, hhere, rfl⟩ := Found.shift_eq_token hfind
  obtain ⟨rfl, -⟩ := findHere_taken hhere
  exact ⟨ended, rfl, hended, hhere⟩

/-- A source that goes on has the tokens it had. -/
theorem find_append {skipped length : Nat} {kind : TokenKind} {payload : Payload}
    (hfind : find resolver resolveNames bs = .token skipped length kind payload)
    (hkind : kind ≠ .eof) (more : List UInt8) :
    skipped + length ≤ bs.length ∧ 0 < length ∧
      find resolver resolveNames (bs ++ 10 :: more) = .token skipped length kind payload := by
  obtain ⟨ended, hscan, hended, hhere⟩ := find_inv hfind
  obtain ⟨-, ⟨rfl, -⟩ | htaken⟩ := findHere_taken hhere
  · exact absurd rfl hkind
  have hlen := htaken.length_le
  have hpos := htaken.length_pos
  rw [List.length_drop] at hlen
  obtain ⟨hk, -⟩ | ⟨-, -, hmore⟩ := scanBlank_append more hscan hended
  · omega
  have hdrop : (bs ++ 10 :: more).drop skipped = bs.drop skipped ++ 10 :: more :=
    List.drop_append_of_le_length (by omega)
  have hne : bs.drop skipped ≠ [] := by
    rw [ne_eq, List.drop_eq_nil_iff]
    omega
  rw [find_of_scanBlank hmore (by simp), hdrop, findHere_append hhere hne, Found.shift]
  exact ⟨by omega, hpos, rfl⟩

/-- Where a source is at its end, what is found in it when it goes on is what it goes on with. -/
theorem find_append_eof {skipped length : Nat} {payload : Payload}
    (hfind : find resolver resolveNames bs = .token skipped length .eof payload)
    (more : List UInt8) :
    skipped = bs.length ∧ find resolver resolveNames (bs ++ 10 :: more) =
      (find resolver resolveNames more).shift (bs.length + 1) := by
  obtain ⟨ended, hscan, hended, hhere⟩ := find_inv hfind
  obtain ⟨-, ⟨-, hend⟩ | htaken⟩ := findHere_taken hhere
  · have hle := List.drop_eq_nil_iff.1 hend
    obtain ⟨hk, hmore⟩ | ⟨hk, -⟩ := scanBlank_append more hscan hended
    · rw [Nat.zero_add] at hk
      subst hk
      refine ⟨rfl, ?_⟩
      have hadd := scanBlank_add (bs.length + 1) .outside 0 more
      rw [BlankMode.shift, Nat.add_zero, ← hmore] at hadd
      cases hscan' : scanBlank .outside 0 more with | mk n mode
      rw [hscan'] at hadd
      cases mode with
      | block start =>
        rw [find, find, hadd, hscan']
        rfl
      | outside | line =>
        rw [find_of_scanBlank hadd (by simp [BlankMode.shift]), find_of_scanBlank hscan' (by simp),
          Found.shift_shift, ← List.drop_drop]
        simp
    · omega
  · exact absurd rfl htaken.kind_ne

theorem find_nil : find resolver resolveNames [] = .token 0 0 .eof .none := rfl

/-- No token reaches beyond the source. -/
theorem find_le {skipped length : Nat} {kind : TokenKind} {payload : Payload}
    (hfind : find resolver resolveNames bs = .token skipped length kind payload) :
    skipped + length ≤ bs.length := by
  by_cases hkind : kind = .eof
  · subst hkind
    obtain ⟨hskipped, -⟩ := find_append_eof hfind []
    obtain ⟨-, -, -, hhere⟩ := find_inv hfind
    rw [hskipped, List.drop_length] at hhere
    cases hhere
    omega
  · exact (find_append hfind hkind []).1

end

/-! ## Bodies -/

/-- A body that is closed is captured as it was. -/
theorem closingBrace_append {depth n k : Nat} {bs : List UInt8}
    (hclose : closingBrace depth n bs = some k) (more : List UInt8) :
    closingBrace depth n (bs ++ more) = some k ∧ k ≤ n + bs.length := by
  fun_induction closingBrace depth n bs with
  | case1 => cases hclose
  | case2 depth n rest ih =>
    obtain ⟨hmore, hle⟩ := ih hclose
    exact ⟨by simpa [closingBrace] using hmore, by rw [List.length_cons]; omega⟩
  | case3 n rest =>
    cases hclose
    exact ⟨by simp [closingBrace], by omega⟩
  | case4 n rest depth hb ih =>
    obtain ⟨hmore, hle⟩ := ih hclose
    exact ⟨by simpa [closingBrace] using hmore, by rw [List.length_cons]; omega⟩
  | case5 depth n b rest hopen hclosed ih =>
    obtain ⟨hmore, hle⟩ := ih hclose
    exact ⟨by simpa [closingBrace, hopen, hclosed] using hmore, by rw [List.length_cons]; omega⟩

/-- What is captured ends before a closing brace. -/
theorem closingBrace_drop {depth n k : Nat} {bs : List UInt8}
    (hclose : closingBrace depth n bs = some k) :
    n ≤ k ∧ ∃ rest, bs.drop (k - n) = 125 :: rest := by
  have further {b : UInt8} {bs : List UInt8} (n : Nat)
      (hbs : n + 1 ≤ k ∧ ∃ rest, bs.drop (k - (n + 1)) = 125 :: rest) :
      n ≤ k ∧ ∃ rest, (b :: bs).drop (k - n) = 125 :: rest := by
    have hshift : k - n = k - (n + 1) + 1 := by omega
    exact ⟨by omega, by rw [hshift, List.drop_succ_cons]; exact hbs.2⟩
  fun_induction closingBrace depth n bs with
  | case1 => cases hclose
  | case3 n rest =>
    cases hclose
    exact ⟨Nat.le_refl _, rest, by simp⟩
  | case2 depth n rest ih => exact further n (ih hclose)
  | case4 n rest depth hb ih => exact further n (ih hclose)
  | case5 depth n b rest hopen hclosed ih => exact further n (ih hclose)

theorem find_braceRight (resolver : Resolver) (resolveNames : Bool) (rest : List UInt8) :
    find resolver resolveNames (125 :: rest) = .token 0 1 (.punct .braceRight) .none := by
  have hblank : scanBlank .outside 0 (125 :: rest) = (0, .outside) := by
    cases rest <;> simp [scanBlank, isBlankByte]
  have hfence : rest.head?.bind (Fence.ofBytes? 125) = none := by
    cases rest <;> simp [Fence.ofBytes?]
  rw [find_of_scanBlank hblank (by simp), List.drop_zero, findHere, hfence]
  rfl

end Lexer
end Ditlang
