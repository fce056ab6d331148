import Ditlang.Proofs.Token.Partition

/-!
# Ditlang.Proofs.Token.Resolution

How a source is cut into tokens does not depend on what is declared. Every scan first takes what the
bytes ahead begin with, without a look at any name, and then looks the word up that it took
(`next_lookUp`). So two runs over one source, whatever each of them is asked for, stay together: they
leave the same cursor after every call, and their tokens differ at most in what a lookup adds.
-/

namespace Ditlang

namespace TokenKind

/-- The kinds of words that are not keywords: one that was not looked up, one that nothing declares,
and one that names a value. -/
inductive OfName : TokenKind → Prop where
  | word : OfName .word
  | newName : OfName .newName
  | value (k : ValueKind) : OfName (.value k)

end TokenKind

namespace Token

/-- Two tokens are the same but for a lookup: they have the same place, end, word and number, and the
same kind, unless both are of a word that is not a keyword. -/
structure SameText (t u : Token) : Prop where
  loc : t.loc = u.loc
  stop : t.stop = u.stop
  word : t.word? = u.word?
  number : ∀ x, t.payload = .number x ↔ u.payload = .number x
  kind : t.kind = u.kind ∨
    t.kind.OfName ∧ u.kind.OfName ∧ ∃ w, t.word? = some w ∧ Keyword.ofWord? w = none

end Token

namespace Lexer

open Source (Feed)

/-- Scans as often as it is asked to, also past errors and past the end of the source. -/
def scans : List Ask → Feed → List (Except LexError Token)
  | [], _ => []
  | ask :: asks, f =>
    let (result, g) := next ask.resolver ask.resolveNames f
    result :: scans asks g

theorem scans_cons (ask : Ask) (asks : List Ask) (f : Feed) :
    scans (ask :: asks) f = (next ask.resolver ask.resolveNames f).1 ::
      scans asks (next ask.resolver ask.resolveNames f).2 := rfl

/-- Two calls give the same error, or tokens that are the same but for a lookup. -/
inductive SameScan : Except LexError Token → Except LexError Token → Prop where
  | failed (e : LexError) : SameScan (.error e) (.error e)
  | token {t u : Token} : t.SameText u → SameScan (.ok t) (.ok u)

/-! ## Lookup comes last -/

/-- What a lookup makes of a kind and a payload: only words change that are no keywords. -/
def lookUp (ask : Ask) : TokenKind × Payload → TokenKind × Payload
  | (.word, .word w) => classify ask.resolver ask.resolveNames w
  | other => other

/-- What a lookup makes of a token. -/
def lookUpToken (ask : Ask) (t : Token) : Token :=
  { t with
    kind := (lookUp ask (t.kind, t.payload)).1
    payload := (lookUp ask (t.kind, t.payload)).2 }

def unresolved : Ask := ⟨fun _ => none, false⟩

variable (ask : Ask)

theorem classify_lookUp (word : String) :
    classify ask.resolver ask.resolveNames word =
      lookUp ask (classify unresolved.resolver unresolved.resolveNames word) := by
  cases hk : Keyword.ofWord? word with
  | some k => simp only [classify, hk, lookUp]
  | none =>
    have hraw : classify unresolved.resolver unresolved.resolveNames word = (.word, .word word) := by
      simp [classify, hk, unresolved]
    rw [hraw, lookUp]

def Found.lookUp (ask : Ask) : Found → Found
  | .token skipped length kind payload =>
    let looked := Lexer.lookUp ask (kind, payload)
    .token skipped length looked.1 looked.2
  | .fault why place stop => .fault why place stop

theorem Found.lookUp_shift (n : Nat) (x : Found) :
    (x.lookUp ask).shift n = (x.shift n).lookUp ask := by
  cases x <;> rfl

theorem findHere_lookUp (bs : List UInt8) :
    findHere ask.resolver ask.resolveNames bs =
      (findHere unresolved.resolver unresolved.resolveNames bs).lookUp ask := by
  cases bs with
  | nil => rfl
  | cons b rest =>
    rw [findHere, findHere]
    cases rest.head?.bind (Fence.ofBytes? b) with
    | some fence => rfl
    | none =>
      cases Punct.ofByte? b with
      | some p => rfl
      | none =>
        dsimp only
        split
        · split <;> rfl
        · split
          · rw [classify_lookUp ask]
            rfl
          · rfl

theorem find_lookUp (bs : List UInt8) :
    find ask.resolver ask.resolveNames bs =
      (find unresolved.resolver unresolved.resolveNames bs).lookUp ask := by
  rw [find, find]
  generalize scanBlank .outside 0 bs = scanned
  obtain ⟨n, mode⟩ := scanned
  cases mode with
  | block start => rfl
  | outside | line =>
    dsimp only
    rw [findHere_lookUp, Found.lookUp_shift]

/-- Every scan is one that looks nothing up, and then a lookup; the cursor is left where the bytes
say. -/
theorem next_lookUp (f : Feed) :
    next ask.resolver ask.resolveNames f =
      ((next unresolved.resolver unresolved.resolveNames f).1.map (lookUpToken ask),
        (next unresolved.resolver unresolved.resolveNames f).2) := by
  rw [next_eq, next_eq, find_lookUp]
  cases find unresolved.resolver unresolved.resolveNames f.rest <;> rfl

/-! ## Two runs -/

/-- A word that is no keyword stays the word that it is, and becomes the name of something or of
nothing. -/
theorem classify_name {word : String} (hk : Keyword.ofWord? word = none) :
    (classify ask.resolver ask.resolveNames word).1.OfName ∧
      ((classify ask.resolver ask.resolveNames word).2 = .word word ∨
        ∃ s, (classify ask.resolver ask.resolveNames word).2 = .resolved word s) := by
  rw [classify, hk]
  dsimp only
  split
  · cases ask.resolver word with
    | some r => exact ⟨.value _, .inr ⟨_, rfl⟩⟩
    | none => exact ⟨.newName, .inl rfl⟩
  · exact ⟨.word, .inl rfl⟩

theorem word?_lookUpToken {t : Token} {w : String} (hkind : t.kind = .word)
    (hpayload : t.payload = .word w) (hk : Keyword.ofWord? w = none) :
    (lookUpToken ask t).kind.OfName ∧ (lookUpToken ask t).word? = some w ∧
      ∀ x, (lookUpToken ask t).payload ≠ .number x := by
  obtain ⟨hname, hpay⟩ := classify_name ask hk
  rw [lookUpToken, hkind, hpayload, lookUp, Token.word?]
  refine ⟨hname, ?_⟩
  rcases hpay with hpay | ⟨s, hpay⟩ <;> simp [hpay]

/-- Two lookups of one token give the same token but for the lookup. -/
theorem lookUpToken_sameText (ask ask' : Ask) (t : Token) :
    (lookUpToken ask t).SameText (lookUpToken ask' t) := by
  by_cases hword : ∃ w, t.kind = .word ∧ t.payload = .word w
  · obtain ⟨w, hkind, hpayload⟩ := hword
    cases hk : Keyword.ofWord? w with
    | some k =>
      have hsame : lookUpToken ask t = lookUpToken ask' t := by
        simp only [lookUpToken, hkind, hpayload, lookUp, classify, hk]
      rw [hsame]
      exact ⟨rfl, rfl, rfl, fun _ => .rfl, .inl rfl⟩
    | none =>
      obtain ⟨hname, hw, hnum⟩ := word?_lookUpToken ask hkind hpayload hk
      obtain ⟨hname', hw', hnum'⟩ := word?_lookUpToken ask' hkind hpayload hk
      exact ⟨rfl, rfl, hw.trans hw'.symm, fun x => iff_of_false (hnum x) (hnum' x),
        .inr ⟨hname, hname', w, hw, hk⟩⟩
  · have hother : ∀ a : Ask, lookUpToken a t = t := by
      intro a
      rw [lookUpToken, lookUp]
      · intro w hpair
        exact hword ⟨w, congrArg Prod.fst hpair, congrArg Prod.snd hpair⟩
    rw [hother, hother]
    exact ⟨rfl, rfl, rfl, fun _ => .rfl, .inl rfl⟩

/-- One call of each run, at the same cursor: the results are the same but for a lookup, and so are
the cursors they leave. -/
theorem next_sameScan (ask ask' : Ask) (f : Feed) :
    SameScan (next ask.resolver ask.resolveNames f).1 (next ask'.resolver ask'.resolveNames f).1 ∧
      (next ask.resolver ask.resolveNames f).2 = (next ask'.resolver ask'.resolveNames f).2 := by
  rw [next_lookUp ask, next_lookUp ask']
  refine ⟨?_, rfl⟩
  cases (next unresolved.resolver unresolved.resolveNames f).1 with
  | error e => exact .failed e
  | ok t => exact .token (lookUpToken_sameText ask ask' t)

/-- Tokenization is independent of what is declared: in two runs over one source, whatever names are
known to each of them at every call and wherever each of them looks words up, call by call one fails
exactly when the other does, with the same error, and the tokens have the same places, ends, words and
numbers, and the same kinds except for words that are no keywords. -/
theorem scans_independent (asks : List (Ask × Ask)) (f : Feed) :
    List.Forall₂ SameScan (scans (asks.map Prod.fst) f) (scans (asks.map Prod.snd) f) := by
  induction asks generalizing f with
  | nil => exact .nil
  | cons pair asks ih =>
    obtain ⟨hsame, hfeed⟩ := next_sameScan pair.1 pair.2 f
    rw [List.map_cons, List.map_cons, scans_cons, scans_cons, ← hfeed]
    exact .cons hsame (ih _)

end Lexer
end Ditlang
