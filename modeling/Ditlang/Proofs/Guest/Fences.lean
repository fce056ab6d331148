import Ditlang.Proofs.Guest.Nesting
import Ditlang.Proofs.Text

/-!
# Ditlang.Proofs.Guest.Fences

The file of a guest function. A body is `Cut` at its fences, leftmost first, in exactly one way
(`Cut.Leftmost.eq_cut`), and the file is written when the fences form guest code. It is then the same
cut with the marker of the Lang for every fence (`Cut.fill`), inside the texts that the Lang puts around
a function. Otherwise the fault is placed at the first fence that cannot be continued, or at the
innermost opener that is left open.

The bytes of a body are scanned, and characters are meant: all bytes of fences are below 128, so a fence
never begins inside another character.
-/

namespace Ditlang

open Source (Location View)

namespace Guest

/-- A text cut at fences: each fence with the text before it, and the text after the last one. -/
structure Cut where
  parts : List (List Char × Fence)
  last : List Char
deriving DecidableEq, Repr

/-- There is no fence in a text. -/
def Plain (cs : List Char) : Prop := ∀ f : Fence, ¬ f.text.toList <:+: cs

namespace Cut

def fences (c : Cut) : List Fence := c.parts.map (·.2)

/-- The text of a cut with something in place of each fence. -/
def fill (mark : Fence → String) (c : Cut) : List Char :=
  c.parts.flatMap (fun p => p.1 ++ (mark p.2).toList) ++ c.last

/-- No fence begins before the one at which the text is cut. -/
structure Leftmost (c : Cut) : Prop where
  parts : ∀ p ∈ c.parts, Plain (p.1 ++ p.2.text.toList.dropLast)
  last : Plain c.last

/-- A cut with one more character in front. -/
def push (a : Char) : Cut → Cut
  | ⟨[], last⟩ => ⟨[], a :: last⟩
  | ⟨(t, f) :: parts, last⟩ => ⟨(a :: t, f) :: parts, last⟩

end Cut

/-- The fence that two characters spell. -/
def fenceOfChars? (a b : Char) : Option Fence :=
  [.triangleLeft, .triangleRight, .circleLeft, .circleRight].find? fun f => f.text.toList = [a, b]

/-- Cuts a text at its fences from left to right. -/
def cut : List Char → Cut
  | [] => ⟨[], []⟩
  | [a] => ⟨[], [a]⟩
  | a :: b :: rest =>
    match fenceOfChars? a b with
    | some f => ⟨([], f) :: (cut rest).parts, (cut rest).last⟩
    | none => (cut (b :: rest)).push a

/-- A character does not begin a fence in front of a text. -/
def Apart (a : Char) (cs : List Char) : Prop := ∀ b, cs.head? = some b → fenceOfChars? a b = none

theorem fenceOfChars?_eq_some_iff {a b : Char} {f : Fence} :
    fenceOfChars? a b = some f ↔ f.text.toList = [a, b] := by
  constructor
  · intro h
    simpa using List.find?_some h
  · intro h
    cases f <;> cases h <;> decide

theorem fenceOfChars?_eq_none_iff {a b : Char} :
    fenceOfChars? a b = none ↔ ∀ f : Fence, f.text.toList ≠ [a, b] := by
  constructor
  · intro h f hf
    rw [fenceOfChars?_eq_some_iff.2 hf] at h
    cases h
  · intro h
    cases hf : fenceOfChars? a b with
    | none => rfl
    | some f => exact absurd (fenceOfChars?_eq_some_iff.1 hf) (h f)

theorem exists_text_eq (f : Fence) : ∃ a b, f.text.toList = [a, b] := by
  cases f <;> exact ⟨_, _, rfl⟩

theorem plain_nil : Plain [] := by
  intro f hf
  obtain ⟨a, b, hab⟩ := exists_text_eq f
  rw [hab, List.infix_nil] at hf
  cases hf

theorem plain_cons_iff {a : Char} {cs : List Char} : Plain (a :: cs) ↔ Apart a cs ∧ Plain cs := by
  have hbegins : ∀ f : Fence, f.text.toList <+: a :: cs ↔
      ∃ b, cs.head? = some b ∧ f.text.toList = [a, b] := by
    intro f
    obtain ⟨x, y, hxy⟩ := exists_text_eq f
    rw [hxy]
    cases cs with
    | nil => simp
    | cons c cs => simp [List.cons_prefix_cons, eq_comm]
  constructor
  · intro h
    refine ⟨fun b hb => fenceOfChars?_eq_none_iff.2 fun f hf => ?_, fun f hf => ?_⟩
    · exact h f (List.infix_cons_iff.2 (.inl ((hbegins f).2 ⟨b, hb, hf⟩)))
    · exact h f (List.infix_cons_iff.2 (.inr hf))
  · rintro ⟨hapart, hplain⟩ f hf
    rcases List.infix_cons_iff.1 hf with hf | hf
    · obtain ⟨b, hb, hfb⟩ := (hbegins f).1 hf
      exact fenceOfChars?_eq_none_iff.1 (hapart b hb) f hfb
    · exact hplain f hf

/-! ## The cut of a text -/

theorem cut_cons {a : Char} {cs : List Char} (h : Apart a cs) : cut (a :: cs) = (cut cs).push a := by
  cases cs with
  | nil => rfl
  | cons b cs => rw [cut, h b rfl]

theorem cut_fence (f : Fence) (cs : List Char) :
    cut (f.text.toList ++ cs) = ⟨([], f) :: (cut cs).parts, (cut cs).last⟩ := by
  obtain ⟨a, b, hab⟩ := exists_text_eq f
  rw [hab]
  exact (cut.eq_3 a b cs).trans (by rw [fenceOfChars?_eq_some_iff.2 hab])

/-- A text is empty, begins with a fence, or with a character that begins no fence. -/
theorem cut_induction {motive : List Char → Prop} (nil : motive [])
    (fence : ∀ (f : Fence) cs, motive cs → motive (f.text.toList ++ cs))
    (char : ∀ a cs, Apart a cs → motive cs → motive (a :: cs)) (cs : List Char) : motive cs := by
  fun_induction cut cs with
  | case1 => exact nil
  | case2 a => exact char a [] (fun _ hb => nomatch hb) nil
  | case3 a b rest f hf ih =>
    have := fence f rest ih
    rwa [fenceOfChars?_eq_some_iff.1 hf] at this
  | case4 a b rest hf ih =>
    refine char a _ ?_ ih
    rintro _ ⟨⟩
    exact hf

namespace Cut

theorem fill_push (mark : Fence → String) (a : Char) (c : Cut) :
    (c.push a).fill mark = a :: c.fill mark := by
  obtain ⟨_ | ⟨⟨t, f⟩, parts⟩, last⟩ := c <;> rfl

theorem fill_cons (mark : Fence → String) (t : List Char) (f : Fence)
    (parts : List (List Char × Fence)) (last : List Char) :
    fill mark ⟨(t, f) :: parts, last⟩ = t ++ (mark f).toList ++ fill mark ⟨parts, last⟩ := by
  simp [fill]

theorem Leftmost.push {a : Char} {c : Cut} (hc : c.Leftmost) (ha : Apart a (c.fill Fence.text)) :
    (c.push a).Leftmost := by
  obtain ⟨_ | ⟨⟨t, f⟩, parts⟩, last⟩ := c
  · exact ⟨hc.parts, plain_cons_iff.2 ⟨ha, hc.last⟩⟩
  · refine ⟨List.forall_mem_cons.2 ⟨?_, (List.forall_mem_cons.1 hc.parts).2⟩, hc.last⟩
    refine plain_cons_iff.2 ⟨fun b hb => ha b ?_, (List.forall_mem_cons.1 hc.parts).1⟩
    obtain ⟨x, y, hxy⟩ := exists_text_eq f
    rw [fill_cons, hxy]
    cases t with
    | nil => simpa [hxy] using hb
    | cons z t => simpa using hb

theorem leftmost_cut (cs : List Char) : (cut cs).Leftmost ∧ (cut cs).fill Fence.text = cs := by
  induction cs using cut_induction with
  | nil => exact ⟨⟨fun _ hp => (nomatch hp), plain_nil⟩, rfl⟩
  | fence f cs ih =>
    obtain ⟨hleft, hfill⟩ := ih
    rw [cut_fence]
    refine ⟨⟨List.forall_mem_cons.2 ⟨?_, hleft.parts⟩, hleft.last⟩, ?_⟩
    · obtain ⟨a, b, hab⟩ := exists_text_eq f
      dsimp only
      rw [hab]
      exact plain_cons_iff.2 ⟨fun _ hb => (nomatch hb), plain_nil⟩
    · rw [fill_cons, List.nil_append]
      exact congrArg _ hfill
  | char a cs ha ih =>
    obtain ⟨hleft, hfill⟩ := ih
    rw [cut_cons ha]
    refine ⟨hleft.push ?_, ?_⟩
    · rwa [hfill]
    · rw [fill_push, hfill]

end Cut

theorem cut_of_plain {cs : List Char} (h : Plain cs) : cut cs = ⟨[], cs⟩ := by
  induction cs with
  | nil => rfl
  | cons a cs ih =>
    obtain ⟨ha, hcs⟩ := plain_cons_iff.1 h
    rw [cut_cons ha, ih hcs]
    rfl

theorem head?_fence_append (t : List Char) (f : Fence) (cs : List Char) :
    (t ++ f.text.toList.dropLast).head? = (t ++ (f.text.toList ++ cs)).head? := by
  obtain ⟨a, b, hab⟩ := exists_text_eq f
  rw [hab]
  cases t <;> rfl

theorem cut_fence_of_plain {t : List Char} {f : Fence} (h : Plain (t ++ f.text.toList.dropLast))
    (cs : List Char) :
    cut (t ++ (f.text.toList ++ cs)) = ⟨(t, f) :: (cut cs).parts, (cut cs).last⟩ := by
  induction t with
  | nil => exact cut_fence f cs
  | cons a t ih =>
    rw [List.cons_append] at h
    obtain ⟨ha, ht⟩ := plain_cons_iff.1 h
    rw [Apart, head?_fence_append t f cs] at ha
    rw [List.cons_append, cut_cons ha, ih ht]
    rfl

/-- There is one cut of a text that is leftmost. -/
theorem Cut.Leftmost.eq_cut {c : Cut} (hc : c.Leftmost) : c = cut (c.fill Fence.text) := by
  obtain ⟨parts, last⟩ := c
  induction parts with
  | nil => exact (cut_of_plain hc.last).symm
  | cons p parts ih =>
    obtain ⟨t, f⟩ := p
    obtain ⟨hp, hparts⟩ := List.forall_mem_cons.1 hc.parts
    rw [Cut.fill_cons, List.append_assoc, cut_fence_of_plain hp, ← ih ⟨hparts, hc.last⟩]

/-! ## The pieces of a body -/

/-- The place after some text. -/
def placeAfter (loc : Location) (cs : List Char) : Location :=
  (Text.encode cs).foldl Location.after loc

theorem placeAfter_append (loc : Location) (cs ds : List Char) :
    placeAfter loc (cs ++ ds) = placeAfter (placeAfter loc cs) ds := by
  rw [placeAfter, Text.encode_append, List.foldl_append]
  rfl

def cutPieces (last : List Char) : Location → List (List Char × Fence) → List Piece
  | _, [] => (Text.encode last).map .byte
  | loc, (t, f) :: parts => (Text.encode t).map .byte ++ .fence f (placeAfter loc t) ::
      cutPieces last (placeAfter loc (t ++ f.text.toList)) parts

theorem ofBytes?_eq_some {a b : UInt8} {f : Fence} (h : Fence.ofBytes? a b = some f) :
    Text.encode f.text.toList = [a, b] := by
  unfold Fence.ofBytes? at h
  repeat' split at h
  all_goals
    cases h
  all_goals
    rename_i hab
    rw [hab.1, hab.2]
    decide

theorem lt_of_ofBytes? {a b : UInt8} {f : Fence} (h : Fence.ofBytes? a b = some f) :
    a < 128 ∧ b < 128 := by
  unfold Fence.ofBytes? at h
  repeat' split at h
  all_goals
    cases h
  all_goals
    rename_i hab
    rw [hab.1, hab.2]
    decide

theorem pieces_cons {b : UInt8} {bs : List UInt8}
    (h : ∀ b', bs.head? = some b' → Fence.ofBytes? b b' = none) (loc : Location) :
    pieces loc (b :: bs) = .byte b :: pieces (loc.after b) bs := by
  cases bs with
  | nil => rfl
  | cons b' bs => rw [pieces, h b' rfl]

theorem pieces_append {bs : List UInt8} (h : ∀ b ∈ bs, 128 ≤ b) (loc : Location)
    (rest : List UInt8) :
    pieces loc (bs ++ rest) = bs.map .byte ++ pieces (bs.foldl Location.after loc) rest := by
  induction bs generalizing loc with
  | nil => rfl
  | cons b bs ih =>
    obtain ⟨hb, hbs⟩ := List.forall_mem_cons.1 h
    rw [List.cons_append, pieces_cons, ih hbs]
    · rfl
    · intro b' _
      rw [Option.eq_none_iff_forall_not_mem]
      exact fun f hf => absurd (lt_of_ofBytes? hf).1 (UInt8.not_lt.2 hb)

/-- Characters below 128 that are the same byte are the same. -/
theorem char_eq {a b : Char} (ha : a.toNat < 128) (hb : b.toNat < 128)
    (h : UInt8.ofNat a.toNat = UInt8.ofNat b.toNat) : a = b := by
  have hn := congrArg UInt8.toNat h
  rw [UInt8.toNat_ofNat_of_lt' (Nat.lt_trans ha (by decide)),
    UInt8.toNat_ofNat_of_lt' (Nat.lt_trans hb (by decide))] at hn
  rw [← Char.ofNat_toNat a, hn, Char.ofNat_toNat]

theorem text_eq_of_ofBytes? {a b : Char} (ha : a.toNat < 128) (hb : b.toNat < 128) {f : Fence}
    (h : Fence.ofBytes? (UInt8.ofNat a.toNat) (UInt8.ofNat b.toNat) = some f) :
    f.text.toList = [a, b] := by
  have hascii : ∀ g : Fence, ∃ x y : Char, g.text.toList = [x, y] ∧ x.toNat < 128 ∧ y.toNat < 128 ∧
      Text.encode g.text.toList = [UInt8.ofNat x.toNat, UInt8.ofNat y.toNat] := by
    intro g
    cases g <;> exact ⟨_, _, rfl, by decide, by decide, by decide⟩
  obtain ⟨x, y, htext, hx, hy, hbytes⟩ := hascii f
  rw [ofBytes?_eq_some h] at hbytes
  obtain ⟨hax, hby⟩ := List.cons.inj hbytes
  rw [htext, char_eq ha hx hax, char_eq hb hy (List.cons.inj hby).1]

theorem pieces_char {a : Char} {cs : List Char} (h : Apart a cs) (loc : Location) :
    pieces loc (String.utf8EncodeChar a ++ Text.encode cs) =
      (String.utf8EncodeChar a).map .byte ++
        pieces ((String.utf8EncodeChar a).foldl Location.after loc) (Text.encode cs) := by
  rcases Text.utf8EncodeChar_cases a with ⟨ha, hbyte⟩ | ⟨-, hhigh⟩
  · rw [hbyte, List.singleton_append, pieces_cons]
    · rfl
    · intro b' hb'
      cases cs with
      | nil => cases hb'
      | cons c cs =>
        rw [Option.eq_none_iff_forall_not_mem]
        intro f hf
        rw [Text.encode_cons] at hb'
        rcases Text.utf8EncodeChar_cases c with ⟨hc, hbyte'⟩ | ⟨-, hhigh⟩
        · rw [hbyte', List.singleton_append, List.head?_cons, Option.some.injEq] at hb'
          rw [← hb'] at hf
          exact fenceOfChars?_eq_none_iff.1 (h c rfl) f (text_eq_of_ofBytes? ha hc hf)
        · rw [List.head?_append_of_ne_nil _ String.utf8EncodeChar_ne_nil] at hb'
          exact absurd (lt_of_ofBytes? hf).2 (UInt8.not_lt.2 (hhigh _ (List.mem_of_head? hb')))
  · exact pieces_append hhigh loc _

/-- The bytes of a text have the pieces of its cut. -/
theorem pieces_encode (loc : Location) (cs : List Char) :
    pieces loc (Text.encode cs) = cutPieces (cut cs).last loc (cut cs).parts := by
  induction cs using cut_induction generalizing loc with
  | nil => rfl
  | fence f cs ih =>
    rw [cut_fence, cutPieces, ← ih]
    cases f <;> rfl
  | char a cs ha ih =>
    rw [Text.encode_cons, pieces_char ha, ih, cut_cons ha]
    obtain ⟨_ | ⟨⟨t, f⟩, parts⟩, last⟩ := cut cs
    · simp [Cut.push, cutPieces]
    · simp [Cut.push, cutPieces, placeAfter]

theorem substitute_append (m : Markers) (ps qs : List Piece) :
    substitute m (ps ++ qs) = substitute m ps ++ substitute m qs :=
  List.flatMap_append

theorem substitute_bytes (m : Markers) (bs : List UInt8) : substitute m (bs.map .byte) = bs := by
  induction bs with
  | nil => rfl
  | cons b bs ih => exact congrArg (b :: ·) ih

/-- Replacing the fences among the pieces is filling the cut with the markers. -/
theorem substitute_cutPieces (m : Markers) (loc : Location) (c : Cut) :
    substitute m (cutPieces c.last loc c.parts) = Text.encode (c.fill m.ofFence) := by
  obtain ⟨parts, last⟩ := c
  induction parts generalizing loc with
  | nil => exact substitute_bytes m _
  | cons p parts ih =>
    obtain ⟨t, f⟩ := p
    rw [cutPieces, substitute_append, substitute_bytes, Cut.fill_cons, List.append_assoc,
      Text.encode_append, Text.encode_append, ← ih, ← Text.bytes_eq_encode]
    rfl

/-! ## The check -/

/-- The fences among the pieces, with their places. -/
def marks : List Piece → List (Fence × Location)
  | [] => []
  | .byte _ :: ps => marks ps
  | .fence f loc :: ps => (f, loc) :: marks ps

theorem marks_bytes_append (bs : List UInt8) (ps : List Piece) :
    marks (bs.map .byte ++ ps) = marks ps := by
  induction bs with
  | nil => rfl
  | cons b bs ih => exact ih

theorem marks_cutPieces (last : List Char) (loc : Location) (t : List Char) (f : Fence)
    (parts : List (List Char × Fence)) :
    marks (cutPieces last loc ((t, f) :: parts)) =
      (f, placeAfter loc t) :: marks (cutPieces last (placeAfter loc (t ++ f.text.toList)) parts) := by
  rw [cutPieces, marks_bytes_append, marks]

theorem marks_cutPieces_nil (last : List Char) (loc : Location) :
    marks (cutPieces last loc []) = [] := by
  have h := marks_bytes_append (Text.encode last) []
  rwa [List.append_nil] at h

theorem map_marks_cutPieces (last : List Char) (loc : Location) (parts : List (List Char × Fence)) :
    (marks (cutPieces last loc parts)).map (·.1) = parts.map (·.2) := by
  induction parts generalizing loc with
  | nil => rw [marks_cutPieces_nil]; rfl
  | cons p parts ih =>
    rw [marks_cutPieces, List.map_cons, List.map_cons, ih]

/-- A fence stands after the text of the cut before it. -/
theorem marks_place {last : List Char} {loc place : Location} {parts : List (List Char × Fence)}
    {u v : List (Fence × Location)} {f : Fence}
    (h : marks (cutPieces last loc parts) = u ++ (f, place) :: v) :
    ∃ before t after, parts = before ++ (t, f) :: after ∧ before.map (·.2) = u.map (·.1) ∧
      after.map (·.2) = v.map (·.1) ∧
      place = placeAfter loc (Cut.fill Fence.text ⟨before, t⟩) := by
  induction parts generalizing loc u with
  | nil =>
    rw [marks_cutPieces_nil] at h
    simp at h
  | cons p parts ih =>
    obtain ⟨t, g⟩ := p
    rw [marks_cutPieces] at h
    cases u with
    | nil =>
      obtain ⟨hg, rfl⟩ := List.cons.inj h
      cases hg
      exact ⟨[], t, parts, rfl, rfl, (map_marks_cutPieces _ _ _).symm, rfl⟩
    | cons x u =>
      obtain ⟨rfl, hrest⟩ := List.cons.inj h
      obtain ⟨before, t', after, rfl, hbefore, hafter, rfl⟩ := ih hrest
      refine ⟨(t, g) :: before, t', after, rfl, ?_, hafter, ?_⟩
      · rw [List.map_cons, List.map_cons, hbefore]
      · rw [Cut.fill_cons]
        exact (placeAfter_append _ _ _).symm

/-- What a fault says about the fences of a body. -/
inductive Faulty (w : List (Fence × Location)) : FencingFault → Location → Prop where
  /-- No continuation is guest code after a fence, and one was before it. In guest code it would be
  `<|` that goes on. -/
  | unexpected {u v : List (Fence × Location)} {f : Fence} {guest : Bool} {loc : Location} :
      w = u ++ (f, loc) :: v → Viable (u.map (·.1)) → ¬ Viable (u.map (·.1) ++ [f]) →
      (guest = true ↔ Viable (u.map (·.1) ++ [.triangleLeft])) →
      Faulty w (.unexpected f guest) loc
  /-- There are continuations, and all of them close this opener first. -/
  | missing {u v : List (Fence × Location)} {l : Level} {loc : Location} :
      w = u ++ (l.opener, loc) :: v → Viable (w.map (·.1)) → InnermostOpen l (v.map (·.1)) →
      Faulty w (.missing l.closer) loc

theorem Faulty.not_nested {w : List (Fence × Location)} {fault : FencingFault} {loc : Location}
    (h : Faulty w fault loc) : ¬ Nested .guest (w.map (·.1)) := by
  intro hn
  cases h with
  | @unexpected u v f guest loc hw _ hf _ =>
    refine hf ⟨v.map (·.1), ?_⟩
    rw [hw] at hn
    simpa using hn
  | @missing u v l loc hw _ hopen =>
    refine hopen.unclosed (hn.closedIn (u := u.map (·.1)) ?_)
    rw [hw]
    simp

theorem Waiting.guest_iff {stack : List Location} {w : List (Fence × Location)}
    (h : Waiting stack w) :
    (stack.length % 2 == 0) = true ↔ Viable (w.map (·.1) ++ [.triangleLeft]) := by
  have hstep : stepFence stack .triangleLeft .start =
      if (stack.length % 2 == 0) = true then some (.start :: stack) else none := by
    cases stack <;> rfl
  constructor
  · intro hguest
    rw [if_pos hguest] at hstep
    have hv := (h.step hstep).viable
    rwa [List.map_append] at hv
  · intro hv
    by_contra hguest
    rw [if_neg hguest] at hstep
    exact h.not_viable hstep hv

/-- The check succeeds on guest code, and otherwise finds a fault. -/
theorem checkFences_spec {stack : List Location} {w : List (Fence × Location)}
    (h : Waiting stack w) (ps : List Piece) :
    match checkFences stack ps with
    | .ok () => Nested .guest ((w ++ marks ps).map (·.1))
    | .error (fault, loc) => Faulty (w ++ marks ps) fault loc := by
  induction ps generalizing stack w with
  | nil =>
    rw [marks, List.append_nil]
    cases stack with
    | nil => exact h
    | cons loc outer =>
      have hviable := h.viable
      obtain ⟨u, v, -, hv, rfl⟩ := h
      have hcloser : (if (loc :: outer).length % 2 == 1 then Fence.triangleRight else .circleRight) =
          (Level.ofDepth outer.length).closer := by
        unfold Level.ofDepth
        rw [List.length_cons]
        by_cases hpar : outer.length % 2 = 0
        · rw [if_pos hpar, if_pos (by rw [beq_iff_eq]; omega)]
          rfl
        · rw [if_neg hpar, if_neg (by rw [beq_iff_eq]; omega)]
          rfl
      dsimp only [checkFences]
      rw [hcloser]
      exact .missing rfl hviable hv.innermostOpen
  | cons p ps ih =>
    cases p with
    | byte b =>
      have hb : checkFences stack (.byte b :: ps) = checkFences stack ps := by
        cases stack <;> rfl
      rw [hb]
      exact ih h
    | fence f loc =>
      rw [marks, List.append_cons]
      cases hstep : stepFence stack f loc with
      | some stack' =>
        have hf : checkFences stack (.fence f loc :: ps) = checkFences stack' ps := by
          cases stack <;> simp only [checkFences, hstep]
        rw [hf]
        exact ih (h.step hstep)
      | none =>
        have hf : checkFences stack (.fence f loc :: ps) =
            .error (.unexpected f (stack.length % 2 == 0), loc) := by
          cases stack <;> simp only [checkFences, hstep]
        rw [hf, List.append_assoc, List.singleton_append]
        exact .unexpected rfl h.viable (h.not_viable hstep) h.guest_iff

/-- The file of a body in terms of its cut. -/
theorem preprocess_eq (view : View) (m : Markers) {body : String}
    (hbody : view.bytes = Text.bytes body) :
    preprocess view m =
      match checkFences [] (cutPieces (cut body.toList).last view.startLoc (cut body.toList).parts) with
      | .error (fault, loc) => .error ((Diagnostic.malformed fault.message).at_ loc)
      | .ok () => .ok (m.wrapLeft ++ String.ofList ((cut body.toList).fill m.ofFence) ++ "\n"
          ++ m.wrapRight ++ "\n\n" ++ m.exportText) := by
  have hpieces := pieces_encode view.startLoc body.toList
  rw [← Text.bytes_eq_encode, ← hbody] at hpieces
  have hfill : Text.ofBytes (substitute m
      (cutPieces (cut body.toList).last view.startLoc (cut body.toList).parts)) =
        String.ofList ((cut body.toList).fill m.ofFence) := by
    rw [substitute_cutPieces, ← Text.bytes_ofList, Text.ofBytes_bytes]
  unfold preprocess
  rw [hpieces]
  dsimp only
  cases checkFences [] (cutPieces (cut body.toList).last view.startLoc (cut body.toList).parts) with
  | error e => rfl
  | ok u => simp only [hfill]

end Guest

open Guest

/-- Every body is cut at its fences in exactly one way. The file of a guest function is written exactly
when the fences are guest code, and then it is the cut with a marker for each fence inside the texts of
the Lang. Otherwise the fault is placed at a fence of the cut: the first one after which nothing makes
guest code of the body, or, if there is none, the innermost opener that is left open, with its closer. -/
theorem preprocess_translates_nested (view : View) (m : Markers) {body : String}
    (hbody : view.bytes = Text.bytes body) :
    ∃ c : Cut, c.Leftmost ∧ c.fill Fence.text = body.toList ∧
      (∀ c' : Cut, c'.Leftmost → c'.fill Fence.text = body.toList → c' = c) ∧
      ((∃ out, preprocess view m = .ok out) ↔ Nested .guest c.fences) ∧
      (∀ out, preprocess view m = .ok out → out = m.wrapLeft ++ String.ofList (c.fill m.ofFence)
        ++ "\n" ++ m.wrapRight ++ "\n\n" ++ m.exportText) ∧
      (∀ d, preprocess view m = .error d → ∃ before t f after, ∃ fault : FencingFault,
        c.parts = before ++ (t, f) :: after ∧
        d = (Diagnostic.malformed fault.message).at_
          (placeAfter view.startLoc (Cut.fill Fence.text ⟨before, t⟩)) ∧
        (Viable (before.map (·.2)) ∧ ¬ Viable (before.map (·.2) ++ [f]) ∧ (∃ guest : Bool,
            fault = .unexpected f guest ∧
              (guest = true ↔ Viable (before.map (·.2) ++ [.triangleLeft]))) ∨
          Viable c.fences ∧ ∃ l : Level, f = l.opener ∧ InnermostOpen l (after.map (·.2)) ∧
            fault = .missing l.closer)) := by
  obtain ⟨hleft, hfill⟩ := Cut.leftmost_cut body.toList
  have hmap := map_marks_cutPieces (cut body.toList).last view.startLoc (cut body.toList).parts
  have hnone : Waiting [] [] := .nil _
  have hspec := checkFences_spec hnone
    (cutPieces (cut body.toList).last view.startLoc (cut body.toList).parts)
  rw [List.nil_append] at hspec
  refine ⟨cut body.toList, hleft, hfill, fun c' hc' hfill' => ?_, ?_⟩
  · rw [hc'.eq_cut, hfill']
  rw [preprocess_eq view m hbody]
  cases hcheck : checkFences [] (cutPieces (cut body.toList).last view.startLoc
    (cut body.toList).parts) with
  | ok u =>
    rw [hcheck, hmap] at hspec
    refine ⟨⟨fun _ => hspec, fun _ => ⟨_, rfl⟩⟩, ?_, ?_⟩
    · rintro _ ⟨⟩
      rfl
    · rintro _ ⟨⟩
  | error e =>
    obtain ⟨fault, loc⟩ := e
    rw [hcheck] at hspec
    have hnot := hspec.not_nested
    rw [hmap] at hnot
    refine ⟨⟨?_, fun hn => absurd hn hnot⟩, ?_, ?_⟩
    · rintro ⟨_, ⟨⟩⟩
    · rintro _ ⟨⟩
    · rintro _ ⟨⟩
      cases hspec with
      | unexpected hw hbefore hf hguest =>
        obtain ⟨before, t, after, hparts, hu, hv, rfl⟩ := marks_place hw
        rw [← hu] at hbefore hf hguest
        exact ⟨before, t, _, after, _, hparts, rfl, .inl ⟨hbefore, hf, _, rfl, hguest⟩⟩
      | missing hw hviable hopen =>
        obtain ⟨before, t, after, hparts, hu, hv, rfl⟩ := marks_place hw
        rw [hmap] at hviable
        rw [← hv] at hopen
        exact ⟨before, t, _, after, _, hparts, rfl, .inr ⟨hviable, _, rfl, hopen, rfl⟩⟩

/-- A body with both kinds of groups is written with the markers in place of the fences. -/
theorem preprocess_translates_nested_in_python :
    (View.ofText "f(<|g((|y|))|>)").bytes = Text.bytes "f(<|g((|y|))|>)" ∧
      preprocess (.ofText "f(<|g((|y|))|>)") ⟨"def ", "#", "x", "py", "ask('", "')", "\x7b", "\x7d"⟩ =
        .ok "def f(ask('g(\x7by\x7d)'))\n#\n\nx" := by
  have hbytes : (View.ofText "f(<|g((|y|))|>)").bytes = Text.bytes "f(<|g((|y|))|>)" := by
    simp [View.ofText, View.ofBytes, View.bytes]
  obtain ⟨c, -, -, hunique, hiff, hout, -⟩ := preprocess_translates_nested (.ofText "f(<|g((|y|))|>)")
    ⟨"def ", "#", "x", "py", "ask('", "')", "\x7b", "\x7d"⟩ hbytes
  obtain ⟨hleft, hfill⟩ := Cut.leftmost_cut "f(<|g((|y|))|>)".toList
  have hc := hunique _ hleft hfill
  have hfences : Nested .guest c.fences := by
    have : c.fences = [.triangleLeft, .circleLeft, .circleRight, .triangleRight] := by
      rw [← hc]
      decide +kernel
    rw [this]
    exact .group (.group (.nil _) (.nil _)) (.nil _)
  obtain ⟨out, hok⟩ := hiff.2 hfences
  have htext := hout out hok
  rw [← hc] at htext
  refine ⟨hbytes, hok.trans (congrArg Except.ok (htext.trans ?_))⟩
  decide +kernel

/-- Where fences could overlap the first one counts: `(|>` begins with `(|`, which may not stand in
guest code. -/
example : (match preprocess (.ofText "f(|>x<|") ⟨"", "", "", "py", "", "", "", ""⟩ with
    | .ok _ => none
    | .error d => d.pending) = some ⟨1, 1, 2⟩ := by decide +kernel

end Ditlang
