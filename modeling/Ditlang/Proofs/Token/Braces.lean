import Ditlang.Proofs.Text
import Ditlang.Proofs.Token.Places

/-!
# Ditlang.Proofs.Token.Braces

Bodies in braces. What is captured after an opening brace is a balanced text, and the brace behind it
is the one that closes the body: the search with a counter finds the only place where that can be
(`closingBrace_eq_some_iff`, `Enclosed.unique`).

A body that is captured inside a body that is captured, and so on (`Captured`), is a range of the bytes of
the whole source, and a cursor over it has the lines and columns that a cursor over the source has at the
same bytes (`Captured.pops`).
-/

namespace Ditlang

namespace Source

/-! ## Cursors over a view -/

/-- A cursor has taken as many bytes of its view as its offset says. -/
def Feed.Aligned (f : Feed) : Prop :=
  f.rest = f.view.bytes.drop f.loc.pos

/-- The bytes left are those of the buffer from the offset on, as far as the view goes. -/
theorem Feed.Aligned.rest_eq {f : Feed} (hf : f.Aligned) :
    f.rest = (f.view.buffer.drop (f.view.first + f.loc.pos)).take
      (f.view.last - f.view.first - f.loc.pos) := by
  rw [hf, View.bytes, List.drop_take, List.drop_drop]

theorem View.aligned_ofView {v : View} (hv : v.startLoc.pos = 0) : (Feed.ofView v).Aligned := by
  rw [Feed.Aligned, Feed.ofView, hv]
  rfl

theorem Feed.Aligned.advance {f : Feed} (hf : f.Aligned) (n : Nat) : (f.advance n).Aligned := by
  induction n generalizing f with
  | zero => exact hf
  | succ n ih =>
    rw [Feed.advance]
    split
    · exact hf
    · rename_i b rest hrest
      refine ih ?_
      have hdrop := hf.symm.trans hrest
      rw [Feed.Aligned, Location.after_pos, ← List.drop_drop, hdrop]
      rfl

end Source

namespace Lexer

open Source (Location View Feed)

/-! ## Balanced texts -/

/-- What closes some braces that are open: nowhere are more closed than were opened, and at the end none
is left. -/
structure Closes (depth : Nat) (w : List UInt8) : Prop where
  closed_le : ∀ u, u <+: w → u.count 125 ≤ depth + u.count 123
  total : depth + w.count 123 = w.count 125

/-- Every beginning has at least as many opening braces as closing ones, and the whole has as many. -/
structure Balanced (w : List UInt8) : Prop where
  closed_le : ∀ u, u <+: w → u.count 125 ≤ u.count 123
  total : w.count 123 = w.count 125

/-- A balanced text at the start, with the brace behind it that closes it. -/
def Enclosed (bs w : List UInt8) : Prop :=
  Balanced w ∧ ∃ rest, bs = w ++ 125 :: rest

section

variable {depth : Nat} {b : UInt8} {bs w : List UInt8}

theorem closes_zero_iff : Closes 0 w ↔ Balanced w := by
  constructor
  · rintro ⟨hle, htotal⟩
    exact ⟨fun u hu => by simpa using hle u hu, by simpa using htotal⟩
  · rintro ⟨hle, htotal⟩
    exact ⟨fun u hu => by simpa using hle u hu, by simpa using htotal⟩

theorem closes_nil_iff : Closes depth [] ↔ depth = 0 := by
  constructor
  · rintro ⟨-, htotal⟩
    simpa using htotal
  · rintro rfl
    refine ⟨fun u hu => ?_, rfl⟩
    rw [List.prefix_nil.1 hu]
    rfl

/-- With one more byte in front, `depth` braces are open before it and `depth'` after it. -/
theorem closes_cons_iff (depth' : Nat) (hstep : depth' + [b].count 125 = depth + [b].count 123) :
    Closes depth (b :: w) ↔ [b].count 125 ≤ depth + [b].count 123 ∧ Closes depth' w := by
  have hcount (u : List UInt8) (x : UInt8) : (b :: u).count x = [b].count x + u.count x := by
    rw [← List.singleton_append, List.count_append]
  constructor
  · rintro ⟨hle, htotal⟩
    refine ⟨hle [b] (by simp), fun u hu => ?_, ?_⟩
    · have := hle (b :: u) (by simpa using hu)
      rw [hcount u, hcount u] at this
      omega
    · rw [hcount w, hcount w] at htotal
      omega
  · rintro ⟨hfirst, hle, htotal⟩
    refine ⟨fun u hu => ?_, ?_⟩
    · rcases List.prefix_cons_iff.1 hu with rfl | ⟨u, rfl, hu'⟩
      · simp
      · have := hle u hu'
        rw [hcount u, hcount u]
        omega
    · rw [hcount w, hcount w]
      omega

theorem closes_open_iff : Closes depth (123 :: w) ↔ Closes (depth + 1) w := by
  rw [closes_cons_iff (depth + 1) (by simp)]
  simp

theorem closes_close_iff : Closes (depth + 1) (125 :: w) ↔ Closes depth w := by
  rw [closes_cons_iff depth (by simp)]
  simp

theorem not_closes_close : ¬ Closes 0 (125 :: w) := by
  rintro ⟨hle, -⟩
  have := hle [125] (by simp)
  simp at this

theorem closes_other_iff (hopen : b ≠ 123) (hclose : b ≠ 125) :
    Closes depth (b :: w) ↔ Closes depth w := by
  rw [closes_cons_iff depth (by simp [hopen, hclose])]
  simp [hclose]

/-! ## The closing brace -/

/-- The search for the closing brace finds the end of a text that closes the open ones. -/
theorem closingBrace_eq_some_iff {n k : Nat} :
    closingBrace depth n bs = some k ↔
      ∃ w rest, bs = w ++ 125 :: rest ∧ Closes depth w ∧ k = n + w.length := by
  -- the first byte of the text belongs to what closes, unless it is the brace that was looked for
  have first {b : UInt8} {rest : List UInt8} {depth depth' n : Nat}
      (hend : b = 125 → ¬ Closes depth [])
      (hstep : ∀ w, Closes depth (b :: w) ↔ Closes depth' w) :
      (∃ w rest', b :: rest = w ++ 125 :: rest' ∧ Closes depth w ∧ k = n + w.length) ↔
        ∃ w rest', rest = w ++ 125 :: rest' ∧ Closes depth' w ∧ k = n + 1 + w.length := by
    constructor
    · rintro ⟨w, rest', hbs, hw, rfl⟩
      cases w with
      | nil =>
        cases hbs
        exact absurd hw (hend rfl)
      | cons x w =>
        cases hbs
        exact ⟨w, rest', rfl, (hstep w).1 hw, by rw [List.length_cons]; omega⟩
    · rintro ⟨w, rest', rfl, hw, rfl⟩
      exact ⟨b :: w, rest', rfl, (hstep w).2 hw, by rw [List.length_cons]; omega⟩
  fun_induction closingBrace depth n bs with
  | case1 depth n => simp
  | case2 depth n rest ih => exact ih.trans (first (by simp) fun w => closes_open_iff).symm
  | case3 n rest =>
    constructor
    · rintro ⟨⟩
      exact ⟨[], rest, rfl, closes_nil_iff.2 rfl, rfl⟩
    · rintro ⟨w, rest', hbs, hw, rfl⟩
      cases w with
      | nil => rfl
      | cons x w =>
        cases hbs
        exact absurd hw not_closes_close
  | case4 n rest depth hb ih =>
    exact ih.trans (first (fun _ h => by simpa using closes_nil_iff.1 h) fun w => closes_close_iff).symm
  | case5 depth n b rest hopen hclose ih =>
    exact ih.trans (first (fun h => absurd h hclose) fun w => closes_other_iff hopen hclose).symm

theorem enclosed_iff {k : Nat} :
    closingBrace 0 0 bs = some k ↔ ∃ w, Enclosed bs w ∧ k = w.length := by
  rw [closingBrace_eq_some_iff]
  simp only [closes_zero_iff, Nat.zero_add, Enclosed]
  constructor
  · rintro ⟨w, rest, hbs, hw, hk⟩
    exact ⟨w, ⟨hw, rest, hbs⟩, hk⟩
  · rintro ⟨w, ⟨hw, rest, hbs⟩, hk⟩
    exact ⟨w, rest, hbs, hw, hk⟩

/-- A text is enclosed if the search for the closing brace ends behind it. -/
theorem enclosed_of_eq (hclose : closingBrace 0 0 bs = some w.length) (rest : List UInt8)
    (hbs : bs = w ++ 125 :: rest) : Enclosed bs w := by
  obtain ⟨w', hw', hlen⟩ := enclosed_iff.1 hclose
  obtain ⟨-, rest', hbs'⟩ := id hw'
  rwa [(List.append_inj (hbs.symm.trans hbs') hlen).1]

/-- There is one body at most. -/
theorem Enclosed.unique {w' : List UInt8} (hw : Enclosed bs w) (hw' : Enclosed bs w') : w = w' := by
  have hlen : w.length = w'.length := by
    have h := enclosed_iff.2 ⟨w, hw, rfl⟩
    have h' := enclosed_iff.2 ⟨w', hw', rfl⟩
    exact Option.some.inj (h.symm.trans h')
  obtain ⟨-, rest, hbs⟩ := hw
  obtain ⟨-, rest', hbs'⟩ := hw'
  exact (List.append_inj (hbs.symm.trans hbs') hlen).1

end

variable {bs w : List UInt8}

/-- What is captured is the body that is enclosed, and the cursor rests on the brace behind it. -/
theorem captureBraces_of_enclosed {f : Feed} (hf : f.Aligned) (hw : Enclosed f.rest w) :
    ∃ body, captureBraces f = (.ok body, f.advance w.length) ∧ body.bytes = w := by
  refine ⟨_, by rw [captureBraces, enclosed_iff.2 ⟨w, hw, rfl⟩], ?_⟩
  obtain ⟨-, rest, hrest⟩ := hw
  have hlen : w.length ≤ f.view.last - f.view.first - f.loc.pos := by
    have := congrArg List.length (hf.rest_eq.symm.trans hrest)
    rw [List.length_take, List.length_append, List.length_cons] at this
    omega
  have hcut : f.view.first + (f.loc.pos + w.length) - (f.view.first + f.loc.pos) = w.length := by omega
  calc (f.view.slice f.loc.pos (f.loc.pos + w.length) f.loc).bytes
      = (f.view.buffer.drop (f.view.first + f.loc.pos)).take w.length := by
        rw [View.slice, View.bytes, hcut]
    _ = f.rest.take w.length := by rw [hf.rest_eq, List.take_take, Nat.min_eq_left hlen]
    _ = w := by rw [hrest, List.take_left]

theorem captureBraces_ok_iff {f : Feed} :
    (∃ body g, captureBraces f = (.ok body, g)) ↔ ∃ w, Enclosed f.rest w := by
  rw [captureBraces]
  constructor
  · rintro ⟨body, g, h⟩
    split at h
    · cases h
    · rename_i n hclose
      obtain ⟨w, hw, -⟩ := enclosed_iff.1 hclose
      exact ⟨w, hw⟩
  · rintro ⟨w, hw⟩
    rw [enclosed_iff.2 ⟨w, hw, rfl⟩]
    exact ⟨_, _, rfl⟩

/-- Between a boundary of a text and a brace further on there is a text. -/
theorem Enclosed.exists_text {f : Feed} (hf : f.Aligned) (hw : Enclosed f.rest w)
    (hstart : Text.Boundary f.view.buffer (f.view.first + f.loc.pos)) : ∃ s, w = Text.bytes s := by
  obtain ⟨t, ht⟩ := hstart.exists_drop
  obtain ⟨-, rest, hrest⟩ := hw
  have hfront : w ++ 125 :: rest <+: Text.bytes t := by
    rw [← hrest, hf.rest_eq, ht]
    exact List.take_prefix _ _
  obtain ⟨more, hmore⟩ := hfront
  have hbrace : (Text.bytes t)[w.length]? = some 125 := by simp [← hmore]
  obtain ⟨s, hs⟩ := (Text.Boundary.zero t).exists_between (Text.boundary_beside hbrace (by decide)).1
    (Nat.zero_le _)
  refine ⟨s, hs ▸ ?_⟩
  rw [← hmore, Nat.sub_zero, List.drop_zero, List.append_assoc, List.take_left]

/-! ## Bodies inside bodies -/

/-- The views that are captured from a source: the source itself, and what a cursor over such a view
captures, wherever it stands. -/
inductive Captured (bs : List UInt8) : View → Prop where
  | source : Captured bs (.ofBytes bs)
  | body {v body : View} {g : Feed} (n : Nat) : Captured bs v →
      captureBraces ((Feed.ofView v).advance n) = (.ok body, g) → Captured bs body

namespace Captured

variable {v : View}

theorem placed (hv : Captured bs v) : v.Placed ∧ v.buffer = bs := by
  induction hv with
  | source => exact ⟨.ofBytes bs, rfl⟩
  | @body v body g n _ hcapture ih =>
    obtain ⟨hv, rfl⟩ := ih
    have hends := captureBraces_ends hv (hv.on_ofView.advance hv n)
    rw [hcapture] at hends
    refine ⟨hends.2, ?_⟩
    rw [captureBraces] at hcapture
    split at hcapture
    · cases hcapture
    · cases hcapture
      rw [Feed.advance_view]
      rfl

/-- A cursor over a captured body that takes bytes one by one is at the same line and column as a
cursor over the whole source that takes the same bytes. -/
theorem pops (hv : Captured bs v) {n : Nat} (hn : n ≤ v.length) :
    ∃ f g, (Feed.ofView v).pops n = some f ∧ (Feed.ofView (.ofBytes bs)).pops (v.first + n) = some g ∧
      f.loc.line = g.loc.line ∧ f.loc.col = g.loc.col ∧
      (n < v.length → ∃ b, f.current? = some b ∧ g.current? = some b) := by
  obtain ⟨hplaced, rfl⟩ := hv.placed
  have hfirst := hplaced.first_le
  have hlast := hplaced.last_le
  have hle : v.first + n ≤ v.buffer.length := by
    rw [View.length] at hn
    omega
  have hrest : (Feed.ofView v).rest.length = v.length := hplaced.length_bytes
  have hsource : (Feed.ofView (.ofBytes v.buffer)).rest = v.buffer := rest_cursor (n := 0)
  have hon := hplaced.on_ofView.advance hplaced n
  have hpos : ((Feed.ofView v).advance n).loc.pos = n := by
    have := hon.length_rest hplaced
    rw [Feed.advance_rest, List.length_drop, hrest] at this
    omega
  have hloc : ((Feed.ofView v).advance n).loc = v.place n := by
    rw [hon.loc.eq, hpos]
  have hplace : ((Feed.ofView (.ofBytes v.buffer)).advance (v.first + n)).loc =
      placeAt v.buffer (v.first + n) := loc_cursor hle
  refine ⟨_, _, Feed.pops_eq_advance (by omega), Feed.pops_eq_advance (by rw [hsource]; exact hle),
    ?_, ?_, fun hlt => ?_⟩
  · rw [hloc, hplace]
    rfl
  · rw [hloc, hplace]
    rfl
  · have hb := View.Placed.getElem?_bytes hlt
    obtain ⟨b, hget⟩ : ∃ b, v.bytes[n]? = some b :=
      ⟨_, List.getElem?_eq_getElem (by rw [hplaced.length_bytes]; exact hlt)⟩
    refine ⟨b, ?_, ?_⟩
    · rw [Feed.current?, Feed.advance_rest, List.head?_drop]
      exact hget
    · rw [Feed.current?, Feed.advance_rest, List.head?_drop, hsource, ← hb, hget]

end Captured

/-- Capturing a body finds the matching brace. From every cursor over every view it succeeds exactly
when a balanced text comes next and then a closing brace. There is only one such text; it is what the
captured view shows, and the cursor rests on that brace. And however deep bodies are captured inside
bodies, a cursor over the innermost one has the lines and the columns of the whole source. -/
theorem captures_matching_brace :
    (∀ (v : View) (n : Nat), v.startLoc.pos = 0 →
      let f := (Feed.ofView v).advance n
      ((∃ body g, captureBraces f = (.ok body, g)) ↔ ∃ w, Enclosed f.rest w) ∧
      ∀ w, Enclosed f.rest w →
        (∀ w', Enclosed f.rest w' → w' = w) ∧
        ∃ body g, captureBraces f = (.ok body, g) ∧ body.bytes = w ∧
          (Text.Boundary v.buffer (v.first + f.loc.pos) → Text.bytes body.text = w) ∧
          g = f.advance w.length ∧ g.current? = some 125) ∧
    ∀ (bs : List UInt8) (v : View), Captured bs v → ∀ n ≤ v.length,
      ∃ f g, (Feed.ofView v).pops n = some f ∧
        (Feed.ofView (.ofBytes bs)).pops (v.first + n) = some g ∧
        f.loc.line = g.loc.line ∧ f.loc.col = g.loc.col ∧
        (n < v.length → ∃ b, f.current? = some b ∧ g.current? = some b) := by
  refine ⟨fun v n hv => ⟨captureBraces_ok_iff, fun w hw => ⟨fun w' hw' => hw'.unique hw, ?_⟩⟩,
    fun bs v hv n hn => hv.pops hn⟩
  have hf := (View.aligned_ofView hv).advance n
  obtain ⟨body, hcapture, hbytes⟩ := captureBraces_of_enclosed hf hw
  refine ⟨body, _, hcapture, hbytes, fun hstart => ?_, rfl, ?_⟩
  · obtain ⟨s, rfl⟩ := hw.exists_text hf (by rw [Feed.advance_view]; exact hstart)
    rw [View.text, hbytes, Text.ofBytes_bytes]
  · obtain ⟨-, rest, hrest⟩ := hw
    rw [Feed.current?, Feed.advance_rest, hrest, List.drop_left]
    rfl

/-- A body with a character of two bytes and a line feed in it, and a body inside that. -/
theorem captures_matching_brace_of_nested :
    ∃ body inner g g' f h,
      captureBraces ((Feed.ofView (.ofText "A \x7bé\n\x7b x \x7d\x7d")).advance 3) = (.ok body, g) ∧
      Text.bytes body.text = Text.bytes "é\n\x7b x \x7d" ∧
      captureBraces ((Feed.ofView body).advance 4) = (.ok inner, g') ∧
      inner.bytes = Text.bytes " x " ∧
      (Feed.ofView inner).pops 2 = some f ∧
      (Feed.ofView (.ofText "A \x7bé\n\x7b x \x7d\x7d")).pops (inner.first + 2) = some h ∧
      f.loc.line = h.loc.line ∧ f.loc.col = h.loc.col := by
  have hw : Enclosed ((Feed.ofView (.ofText "A \x7bé\n\x7b x \x7d\x7d")).advance 3).rest
      (Text.bytes "é\n\x7b x \x7d") := enclosed_of_eq (by decide +kernel) [] (by decide +kernel)
  obtain ⟨-, body, g, hbody, hbytes, htext, -⟩ :=
    (captures_matching_brace.1 (.ofText "A \x7bé\n\x7b x \x7d\x7d") 3 rfl).2 _ hw
  have hcaptured : Captured _ body := .body 3 .source hbody
  have hstart : body.startLoc.pos = 0 := by rw [hcaptured.placed.1.start]; rfl
  have hw' : Enclosed ((Feed.ofView body).advance 4).rest (Text.bytes " x ") := by
    have hrest : ((Feed.ofView body).advance 4).rest = body.bytes.drop 4 := Feed.advance_rest _ _
    rw [hrest, hbytes]
    exact enclosed_of_eq (by decide +kernel) [] (by decide +kernel)
  obtain ⟨-, inner, g', hinner, hbytes', -⟩ := (captures_matching_brace.1 body 4 hstart).2 _ hw'
  have hcaptured' : Captured _ inner := .body 4 hcaptured hinner
  have hlen : 2 ≤ inner.length := by
    rw [← hcaptured'.placed.1.length_bytes, hbytes']
    decide +kernel
  obtain ⟨f, h, hf, hh, hline, hcol, -⟩ := captures_matching_brace.2 _ inner hcaptured' 2 hlen
  exact ⟨body, inner, g, g', f, h, hbody, htext ((Text.isBoundary_iff _ _).1 (by decide +kernel)), hinner,
    hbytes', hf, hh, hline, hcol⟩

end Lexer
end Ditlang
