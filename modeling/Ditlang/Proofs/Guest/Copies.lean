import Ditlang.Proofs.Token.Bytewise

/-!
# Ditlang.Proofs.Guest.Copies

Writing the file of a guest function by copying. The body is passed byte by byte; at each fence the text
since the last one is cut out of it, and behind the last fence the text to the end. The depth is counted
along with the places of the fences that are open.

A `Draft` is the file so far. What it becomes depends on the bytes that were passed since the last copy
and on the pieces ahead (`Draft.finished`), and a round of the loop changes neither (`rounds_eq`): so
copying is never trapped, and it writes the file that `Guest.preprocess` describes (`preprocess_eq`).
-/

namespace Ditlang
namespace Guest

open Source (Location View Feed Pointer Trap Scan)

namespace Bytewise

open Source.Scan (eof loc pop look fail loop)
open Lexer.Bytewise (fenceAhead below)

/-- The file of a body as far as it is written. -/
structure Draft where
  /-- How many fences are open. -/
  depth : Nat
  /-- Where they stand, innermost first. -/
  opened : List Location
  /-- The offset up to which the body is copied. -/
  copied : Nat
  out : String

def faulty (fault : FencingFault) (loc : Location) : Diagnostic :=
  (Diagnostic.malformed fault.message).at_ loc

namespace Draft

/-- Opens or closes a level. -/
def turn (f : Fence) (here : Location) (d : Draft) : Scan Diagnostic Draft :=
  let guest := d.depth % 2 == 0
  let opening : Scan Diagnostic Draft :=
    return { d with depth := d.depth + 1, opened := here :: d.opened }
  let closing : Scan Diagnostic Draft := do
    return { d with depth := ← below d.depth, opened := d.opened.tail }
  let unexpected : Scan Diagnostic Draft := fail (faulty (.unexpected f guest) here)
  match f, guest with
  | .triangleLeft, true => opening
  | .triangleRight, false => closing
  | .circleLeft, false => opening
  | .circleRight, true => if 0 < d.depth then closing else unexpected
  | _, _ => unexpected

/-- Takes a byte, or a fence with the text before it. -/
def round (m : Markers) (d : Draft) : Scan Diagnostic (Draft ⊕ Draft) := do
  if ← eof then
    return .inr d
  else
    match ← fenceAhead with
    | none =>
      let _ ← pop
      return .inl d
    | some f =>
      let here ← loc
      let d ← d.turn f here
      let text ← look (Pointer.text d.copied here.pos)
      let _ ← pop
      let _ ← pop
      return .inl { d with copied := (← loc).pos, out := d.out ++ text ++ m.ofFence f }

/-- Adds what is left, if no fence is open. -/
def close (m : Markers) (d : Draft) : Scan Diagnostic String :=
  match d.opened with
  | opener :: _ =>
    let closer := if d.depth % 2 == 1 then Fence.triangleRight else .circleRight
    fail (faulty (.missing closer) opener)
  | [] => do
    let text ← look (Pointer.textFrom d.copied)
    return d.out ++ text ++ "\n" ++ m.wrapRight ++ "\n\n" ++ m.exportText

end Draft

def write (m : Markers) : Scan Diagnostic String := do
  let d ← loop (Draft.round m) ⟨0, [], 0, m.wrapLeft⟩
  d.close m

def preprocess (view : View) (m : Markers) : Except Trap (Except Diagnostic String) := do
  return (← write m (.ofView view)).1

/-! ## What a draft becomes -/

/-- The file that comes of a draft: some bytes were passed and not copied, and the pieces are ahead. -/
def Draft.finished (m : Markers) (d : Draft) (passed : List UInt8) (ps : List Piece) :
    Except Diagnostic String :=
  match checkFences d.opened ps with
  | .error (fault, loc) => .error (faulty fault loc)
  | .ok () =>
    .ok (d.out ++ Text.ofBytes (passed ++ substitute m ps) ++ "\n" ++ m.wrapRight ++ "\n\n"
      ++ m.exportText)

/-- A draft that was last added to at a cursor between characters. -/
structure Draft.Fits (d : Draft) (g : Feed) : Prop where
  sound : g.Sound
  between : g.Between
  /-- The depth is that of the fences that are open: it is never counted below zero. -/
  depth : d.depth = d.opened.length
  copied : d.copied = g.loc.pos

theorem substitute_pieces (m : Markers) (loc : Location) (s : String) :
    ∃ t, substitute m (pieces loc (Text.bytes s)) = Text.bytes t := by
  refine ⟨String.ofList ((cut s.toList).fill m.ofFence), ?_⟩
  rw [Text.bytes_eq_encode, pieces_encode, substitute_cutPieces, Text.bytes_ofList]

theorem pieces_ahead (g : Feed) :
    pieces g.loc g.rest =
      match g.rest with
      | [] => []
      | b :: rest =>
        match rest.head?.bind (Fence.ofBytes? b) with
        | some f => .fence f g.loc :: pieces (g.advance 2).loc (g.advance 2).rest
        | none => .byte b :: pieces (g.advance 1).loc (g.advance 1).rest := by
  obtain ⟨view, bs, loc⟩ := g
  match bs with
  | [] => rfl
  | [b] => rfl
  | b :: c :: rest =>
    show pieces loc (b :: c :: rest) = match Fence.ofBytes? b c with
      | some f => .fence f loc :: pieces ((loc.after b).after c) rest
      | none => .byte b :: pieces (loc.after b) (c :: rest)
    refine (pieces.eq_3 loc b c rest).trans ?_
    cases Fence.ofBytes? b c <;> rfl

namespace Draft

variable {m : Markers} {d : Draft} {passed : List UInt8} {ps : List Piece} {f : Fence} {here : Location}

theorem finished_byte (b : UInt8) :
    d.finished m passed (.byte b :: ps) = d.finished m (passed ++ [b]) ps := by
  have hcheck : checkFences d.opened (.byte b :: ps) = checkFences d.opened ps := by
    cases d.opened <;> rfl
  have hsub : passed ++ substitute m (.byte b :: ps) = (passed ++ [b]) ++ substitute m ps := by
    rw [List.append_assoc]
    rfl
  rw [finished, finished, hcheck, hsub]

/-- At a fence the text that was passed is copied, and its marker is put behind. -/
theorem finished_fence {opened : List Location} (hstep : stepFence d.opened f here = some opened)
    {s t : String} (hpassed : passed = Text.bytes s) (hps : substitute m ps = Text.bytes t)
    (depth copied : Nat) :
    d.finished m passed (.fence f here :: ps) =
      finished m ⟨depth, opened, copied, d.out ++ Text.ofBytes passed ++ m.ofFence f⟩ [] ps := by
  have hcheck : checkFences d.opened (.fence f here :: ps) = checkFences opened ps := by
    cases hopened : d.opened <;> simp only [checkFences, ← hopened, hstep]
  have htext : d.out ++ Text.ofBytes (passed ++ substitute m (.fence f here :: ps)) =
      d.out ++ Text.ofBytes passed ++ m.ofFence f ++ Text.ofBytes ([] ++ substitute m ps) := by
    have hsub : substitute m (.fence f here :: ps) = Text.bytes (m.ofFence f ++ t) := by
      rw [Text.bytes_append, ← hps]
      rfl
    rw [hsub, hpassed, ← Text.bytes_append, List.nil_append, hps]
    simp only [Text.ofBytes_bytes, String.append_assoc]
  rw [finished, finished, hcheck, htext]

theorem finished_unexpected (hstep : stepFence d.opened f here = none) :
    d.finished m passed (.fence f here :: ps) =
      .error (faulty (.unexpected f (d.opened.length % 2 == 0)) here) := by
  have hcheck : checkFences d.opened (.fence f here :: ps) =
      .error (.unexpected f (d.opened.length % 2 == 0), here) := by
    cases hopened : d.opened <;> simp only [checkFences, ← hopened, hstep]
  rw [finished, hcheck]

theorem turn_eq (f : Fence) (here : Location) (hd : d.depth = d.opened.length) (p : Pointer) :
    d.turn f here p =
      match stepFence d.opened f here with
      | some opened => .ok (.ok { d with depth := opened.length, opened }, p)
      | none => .ok (.error (faulty (.unexpected f (d.opened.length % 2 == 0)) here), p) := by
  obtain ⟨depth, opened, copied, out⟩ := d
  dsimp only at hd
  subst hd
  cases opened with
  | nil => cases f <;> rfl
  | cons opener outer =>
    rw [turn.eq_def, stepFence.eq_def]
    dsimp only
    cases (opener :: outer).length % 2 == 0 <;> cases f <;> rfl

/-! ## Rounds -/

variable {g : Feed} {b : UInt8} {rest : List UInt8} {k : Nat}

theorem round_byte (hg : g.Sound) (hrest : g.rest = b :: rest)
    (hfence : rest.head?.bind (Fence.ofBytes? b) = none) :
    d.round m g.pointer = .ok (.ok (.inl d), (g.advance 1).pointer) := by
  rw [round, Scan.eof_cons hg hrest, Scan.bind_ok (Lexer.Bytewise.fenceAhead_eq hg hrest), hfence]
  exact Scan.pop_bind hg hrest _

/-- At a fence: the text since the last copy is cut out between characters. -/
theorem round_fence (hd : d.Fits g) (hrest : (g.advance k).rest = b :: rest)
    (hfence : rest.head?.bind (Fence.ofBytes? b) = some f) :
    d.round m (g.advance k).pointer =
      match stepFence d.opened f (g.advance k).loc with
      | some opened =>
        .ok (.ok (.inl ⟨opened.length, opened, (g.advance (k + 2)).loc.pos,
          d.out ++ Text.ofBytes (g.rest.take k) ++ m.ofFence f⟩), (g.advance (k + 2)).pointer)
      | none =>
        .ok (.error (faulty (.unexpected f (d.opened.length % 2 == 0)) (g.advance k).loc),
          (g.advance k).pointer) := by
  have hg := hd.sound.advance k
  rw [round, Scan.eof_cons hg hrest, Scan.bind_ok (Lexer.Bytewise.fenceAhead_eq hg hrest), hfence]
  dsimp only
  rw [Scan.loc_bind]
  have hturn := turn_eq f (g.advance k).loc hd.depth (g.advance k).pointer
  cases hstep : stepFence d.opened f (g.advance k).loc with
  | none =>
    rw [hstep] at hturn
    exact Scan.bind_error hturn _
  | some opened =>
    rw [hstep] at hturn
    obtain ⟨c, hc, hbc⟩ := Option.bind_eq_some_iff.1 hfence
    have hlow := (lt_of_ofBytes? hbc).1
    have hget : g.rest[k]? = some b := by
      rw [← Nat.add_zero k, ← List.getElem?_drop, ← Feed.advance_rest, hrest]
      rfl
    have hk := (List.getElem?_eq_some_iff.1 hget).1
    have hend := (hd.sound.between_beside hget hlow).1
    have htext := hd.sound.text_eq hd.between hk.le hend k
    rw [← hd.sound.pos_advance hk.le, ← hd.copied] at htext
    rw [Scan.bind_ok hturn, Scan.look_bind htext, Lexer.Bytewise.pop_pop_bind hg hrest hc, Scan.loc_bind,
      ← Feed.advance_add]
    rfl

theorem close_eq (hd : d.Fits g) (k : Nat) :
    d.close m (g.advance k).pointer = .ok (d.finished m g.rest [], (g.advance k).pointer) := by
  have htext := hd.sound.textFrom_eq hd.between k
  rw [← hd.copied] at htext
  rw [close, finished, substitute, List.flatMap_nil, List.append_nil, hd.depth]
  cases d.opened with
  | nil => exact Scan.look_bind htext _
  | cons opener outer => rfl

/-- From any place in a body the rounds write the file that comes of the draft. -/
theorem rounds_eq {n : Nat} (hd : d.Fits g) (hk : k ≤ g.rest.length) (hn : g.rest.length - k < n) :
    ∃ p, (do (← Scan.rounds (round m) n d).close m : Scan Diagnostic String) (g.advance k).pointer =
      .ok (d.finished m (g.rest.take k) (pieces (g.advance k).loc (g.advance k).rest), p) := by
  induction n generalizing g k d with
  | zero => omega
  | succ n ih =>
    have hg := hd.sound.advance k
    have hget : g.rest[k]? = (g.advance k).rest.head? := by
      rw [Feed.advance_rest, List.head?_drop]
    have hget' : g.rest[k + 1]? = (g.advance k).rest.tail.head? := by
      rw [Feed.advance_rest, List.tail_drop, List.head?_drop]
    have hpieces := pieces_ahead (g.advance k)
    cases hrest : (g.advance k).rest with
    | nil =>
      have hend : g.rest.length ≤ k := by
        rwa [Feed.advance_rest, List.drop_eq_nil_iff] at hrest
      have hround : d.round m (g.advance k).pointer = .ok (.ok (.inr d), (g.advance k).pointer) := by
        rw [round, Scan.eof_nil hg hrest]
        rfl
      rw [Scan.bind_ok (Scan.rounds_inr hround), close_eq hd, List.take_of_length_le hend, pieces]
      exact ⟨_, rfl⟩
    | cons b rest =>
      rw [hrest, List.head?_cons] at hget
      rw [hrest, List.tail_cons] at hget'
      rw [hrest] at hpieces
      dsimp only at hpieces
      rw [hpieces]
      have hlt := (List.getElem?_eq_some_iff.1 hget).1
      cases hfence : rest.head?.bind (Fence.ofBytes? b) with
      | none =>
        have hround := round_byte (d := d) (m := m) hg hrest hfence
        have htake : g.rest.take k ++ [b] = g.rest.take (k + 1) := by
          rw [List.take_add_one, hget, Option.toList_some]
        dsimp only
        rw [← Feed.advance_add] at hround ⊢
        rw [finished_byte, htake, Scan.bind_congr (Scan.rounds_inl hround)]
        exact ih hd hlt (by omega)
      | some f =>
        have hround := round_fence (m := m) hd hrest hfence
        dsimp only
        rw [← Feed.advance_add]
        cases hstep : stepFence d.opened f (g.advance k).loc with
        | none =>
          rw [hstep] at hround
          rw [finished_unexpected hstep]
          exact ⟨_, Scan.bind_error (Scan.rounds_error hround) _⟩
        | some opened =>
          rw [hstep] at hround
          obtain ⟨c, hc, hbc⟩ := Option.bind_eq_some_iff.1 hfence
          obtain ⟨hlow, hlow'⟩ := lt_of_ofBytes? hbc
          rw [hc] at hget'
          have hbetween := (hd.sound.between_beside hget' hlow').2
          have hsound := hd.sound.advance (k + 2)
          have hlt' := (List.getElem?_eq_some_iff.1 hget').1
          -- what was passed and what is ahead are texts, so the marker stands between two texts
          obtain ⟨s, hs⟩ := hd.sound.exists_take hd.between hlt.le (hd.sound.between_beside hget hlow).1
          obtain ⟨t, ht⟩ := hsound.exists_rest hbetween
          obtain ⟨u, hu⟩ := substitute_pieces m (g.advance (k + 2)).loc t
          rw [← ht] at hu
          rw [finished_fence hstep hs hu opened.length (g.advance (k + 2)).loc.pos,
            Scan.bind_congr (Scan.rounds_inl hround)]
          have hleft : (g.advance (k + 2)).rest.length - 0 < n := by
            rw [Feed.advance_rest, List.length_drop]
            omega
          exact ih (k := 0) ⟨hsound, hbetween, rfl, rfl⟩ (Nat.zero_le _) hleft

end Draft

/-- The file of a body is written without a trap, by copies between characters. -/
theorem preprocess_eq {v : View} (hv : v.Textual) (m : Markers) :
    preprocess v m = .ok (Guest.preprocess v m) := by
  have hf := hv.sound_ofView
  have hpos : 0 = (Feed.ofView v).loc.pos := by rw [Feed.ofView, hv.start, View.place]
  obtain ⟨p, hp⟩ := Draft.rounds_eq (m := m) (d := ⟨0, [], 0, m.wrapLeft⟩) (k := 0)
    (n := (Feed.ofView v).rest.length + 1) ⟨hf, hv.between_ofView, rfl, hpos⟩ (Nat.zero_le _) (by omega)
  have hloop := Scan.loop_eq hf (Draft.round m) ⟨0, [], 0, m.wrapLeft⟩
  have hwritten : write m (.ofView v) = _ := (Scan.bind_congr hloop (Draft.close m)).trans hp
  have hfile : Draft.finished m ⟨0, [], 0, m.wrapLeft⟩ [] (pieces v.startLoc v.bytes) =
      Guest.preprocess v m := by
    rw [Draft.finished, Guest.preprocess, List.nil_append]
    rfl
  rw [preprocess, hwritten, ← hfile]
  rfl

end Bytewise
end Guest
end Ditlang
