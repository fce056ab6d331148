import Ditlang.Proofs.Eval.Soundness
import Ditlang.Proofs.Files.Workers
import Ditlang.Proofs.Session.Signatures

/-!
# Ditlang.Proofs.Files.Law

The law of guest files. A state is `Clear` when it is sound and no path separator is in the word ahead or
in the name of a function or a Lang. A computation that obeys the law (`courseLaw`) starts and ends in
clear states, and what it does to files is a part of their course, whether it succeeds or fails.

What a program does to the store makes no file (`Heap.Edits.unfiled`): a name that is declared is one of
a slot, so that it matters to no file, and a Lang that is merged keeps its name. A computation that does
nothing to files obeys the law as soon as it takes steps (`Obeys.of_works`).
-/

namespace Ditlang

open Host (Slashless)
open Source (Location View Feed)

/-! ## Words -/

theorem Text.slashless_ofBytes {bs : List UInt8} (hbs : 47 ∉ bs) : Slashless (ofBytes bs) := by
  rw [ofBytes]
  cases h : ofBytes? bs with
  | none =>
    show Slashless ""
    decide
  | some s =>
    intro hmem
    refine hbs ?_
    rw [← bytes_of_ofBytes? h, bytes_eq_encode, encode]
    exact List.mem_flatMap.2 ⟨'/', hmem, by decide⟩

/-- No path separator is in the word of a token. -/
def Token.Worded (t : Token) : Prop :=
  ∀ word, t.word? = some word → Slashless word

theorem Token.Worded.of_name? {t : Token} (ht : t.Worded) {name : String} (hn : t.name? = some name) :
    Slashless name := by
  unfold name? at hn
  split at hn
  · exact ht name hn
  · exact ht name hn
  · exact ht name hn
  · cases hn

theorem Token.Worded.word {t : Token} (ht : t.Worded) : Slashless t.word := by
  rw [Token.word]
  cases hw : t.word? with
  | none =>
    show Slashless ""
    decide
  | some word => exact ht word hw

namespace Lexer

theorem worded_classify {resolver : Resolver} {resolveNames : Bool} {text : String} {loc : Location}
    {stop : Nat} (ht : Slashless text) : (Token.mk (classify resolver resolveNames text).1 loc stop
      (classify resolver resolveNames text).2).Worded := by
  intro word hw
  unfold classify at hw
  split at hw
  · cases hw
  · split at hw
    · split at hw
      · cases hw
        exact ht
      · cases hw
        exact ht
    · cases hw
      exact ht

theorem worded_number {f g : Feed} {t : Token} (ht : number f = (.ok t, g)) : t.Worded := by
  unfold number at ht
  dsimp only at ht
  split at ht
  · cases ht
    exact nofun
  · cases ht

theorem worded_next {resolver : Resolver} {resolveNames : Bool} {f g : Feed} {t : Token}
    (ht : next resolver resolveNames f = (.ok t, g)) : t.Worded := by
  unfold next at ht
  split at ht
  · cases ht
  · split at ht
    · cases ht
      exact nofun
    · unfold tokenHere at ht
      split at ht
      · cases ht
        exact nofun
      · split at ht
        · cases ht
          exact nofun
        · split at ht
          · exact worded_number ht
          · split at ht
            · cases ht
              refine worded_classify (Text.slashless_ofBytes fun hmem => ?_)
              exact absurd (List.mem_takeWhile_imp hmem) (by decide)
            · cases ht

end Lexer

/-! ## The law -/

/-- The state is sound, and no path separator is in the word ahead or in the name of a function or a
Lang. -/
structure EvalState.Clear (s : EvalState) : Prop where
  sound : s.Sound
  worded : s.reading.next.Worded
  named : s.session.heap.SlashlessNames

def courseClauses : Law.Clauses where
  stands := EvalState.Clear
  fallen := EvalState.Clear
  course _ := Session.Course
  reports _ _ := True
  lenient := True
  place _ := True
  view _ := True
  word := Slashless

/-- What does nothing to files, and leaves the token ahead, keeps a state clear. -/
theorem EvalState.Clear.works {s t : EvalState} (hs : s.Clear) (ht : t.Sound)
    (hw : s.session.Works t.session) (hnext : t.reading.next = s.reading.next) :
    t.Clear ∧ s.session.Course t.session :=
  ⟨⟨ht, hnext ▸ hs.worded, hw.heap.named hs.named⟩, .single (.work hw)⟩

theorem Outcome.Leads.works {α : Type} {s : EvalState} {post : Heap → α → Prop} {o : Outcome α}
    (ho : o.Leads s.session post) (hs : s.Clear)
    (hw : o.Leaves fun t => s.session.Works t.session ∧ t.reading.next = s.reading.next) :
    o.Obeys courseClauses s.session post := by
  cases o with
  | done a t =>
    obtain ⟨ht, hcourse⟩ := hs.works ho.1 hw.1 hw.2
    exact ⟨ht, ho.2.1, hcourse, ho.2.2.2⟩
  | failed e t =>
    obtain ⟨ht, hcourse⟩ := hs.works ho.1 hw.1 hw.2
    exact ⟨ht, ho.2.1, hcourse, trivial⟩
  | outOfFuel => trivial

namespace EvalState.Clear

variable {s : EvalState} (hs : s.Clear)

include hs

/-- The token that is scanned has no path separator in its word. -/
theorem advance (resolveNames : Bool) : (Eval.advance resolveNames s).Obeys courseClauses s.session
    fun h _ => h = s.session.heap := by
  have hsound := Eval.runs_advance resolveNames s hs.sound rfl
  have hworded : ∀ t feed, Lexer.next (s.session.heap.resolver s.reading.body) resolveNames
      s.reading.feed = (.ok t, feed) → t.Worded := fun _ _ => Lexer.worded_next
  unfold Eval.advance at hsound ⊢
  revert hsound hworded
  dsimp only
  generalize Lexer.next _ _ _ = x
  obtain ⟨⟨e⟩ | ⟨t⟩, feed⟩ := x
  · exact fun hsound _ => ⟨⟨hsound.1, hs.worded, hs.named⟩, .refl, .refl, trivial⟩
  · exact fun hsound hworded => ⟨⟨hsound.1, hworded _ _ rfl, hs.named⟩, .refl, .refl, rfl⟩

theorem scan {α : Type} (f : Feed → Except LexError α × Feed) :
    (Eval.scan f s).Obeys courseClauses s.session fun h _ => h = s.session.heap := by
  refine (Eval.runs_scan s hs.sound rfl).works hs ?_
  unfold Eval.scan
  split
  · exact ⟨.refl _, rfl⟩
  · exact ⟨.refl _, rfl⟩

end EvalState.Clear

def courseLaw : Law where
  toClauses := courseClauses
  sound hs := hs.sound
  falls := id
  refl _ _ := .refl
  trans := .trans
  prev _ := trivial
  curr _ := ⟨trivial, trivial, .inl trivial⟩
  ahead hs := ⟨⟨trivial, trivial, .inl trivial⟩, hs.sound.reading.next, hs.worded.word,
    fun _ => hs.worded.of_name?⟩
  advance resolveNames hs := hs.advance resolveNames
  captureBraces hs := Outcome.Obeys.mono (hs.scan _) fun _ _ _ hh => ⟨hh, trivial⟩
  scanString _ hs := hs.scan _
  keepValue hs hv := ⟨soundLaw.keepValue hs.sound hv, hs.worded, hs.named⟩
  sourced _ := .inl trivial
  viewed _ _ := trivial
  ofText _ := trivial
  anonymous := by
    show Slashless "anonymous"
    decide
  setHeap hs hsteps hedits :=
    hs.works (hs.sound.setHeap hsteps) (.of_same hedits.unfiled rfl rfl rfl rfl rfl) rfl
  setHost {s host} hs hfiles := by
    have hsound : EvalState.Sound { s with session := { s.session with host } } :=
      ⟨⟨hs.sound.session.heap, hs.sound.session.prelude, hs.sound.session.main⟩, hs.sound.reading⟩
    exact hs.works hsound (.of_same (.refl _) rfl rfl hfiles rfl rfl) rfl
  raises _ _ := trivial
  traced _ _ _ _ := trivial

namespace Eval

variable {α : Type} {h : Heap} {Q : Heap → α → Prop}

/-- A computation that does nothing to files, and leaves the token ahead. -/
theorem Obeys.of_works {x : Eval α} (hr : Runs h x Q) (hx : ∀ s : EvalState, s.session.heap = h →
    (x s).Leaves fun t => s.session.Works t.session ∧ t.reading.next = s.reading.next) :
    Obeys courseLaw h x Q :=
  fun s hs hh => (hr s hs.sound hh).works hs (hx s hh)

/-- An event that is kept has nothing to do with files. -/
theorem follows_note (e : BodyEvent) : Obeys courseLaw h (note e) fun h' _ => h' = h :=
  .of_works (runs_note e) fun _ _ => ⟨.of_same (.refl _) rfl rfl rfl rfl rfl, rfl⟩

end Eval
end Ditlang
