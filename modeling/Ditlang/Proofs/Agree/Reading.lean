import Ditlang.Proofs.Agree.Rules
import Ditlang.Proofs.Eval.Operand
import Ditlang.Proofs.Eval.Reading

/-!
# Ditlang.Proofs.Agree.Reading

Going through the tokens of a body does the same in two runs side by side. This is where a source
that goes on makes a difference: a token that is found in the first source is found in the second
(`find_append`), and at the end of the first source the first run is lost. What a path leads to is read
and written in the same way, too: paths are found again in stores that are the same but for source
coordinates.
-/

namespace Ditlang

open Source (Location View Feed)
open Lexer (Found)

/-- The reading with a cursor moved on and a token ahead. -/
def Reading.take (r : Reading) (skipped length : Nat) (kind : TokenKind) (payload : Payload) :
    Reading :=
  { r with
    feed := r.feed.advance (skipped + length)
    prev := r.curr
    curr := r.next
    next := ⟨kind, (r.feed.advance skipped).loc, (r.feed.advance (skipped + length)).loc.pos,
      payload⟩ }

section

variable {p : Pairing} {s t : EvalState}

theorem Linked.resolver (hst : Linked p s t) :
    t.session.heap.resolver t.reading.body = s.session.heap.resolver s.reading.body := by
  rw [← hst.reading.body]
  exact (hst.heap.eq (f := (·.resolver s.reading.body)) fun h => h.resolver_unplaced p.main _).symm

theorem Linked.take (hst : Linked p s t) {skipped length : Nat}
    (hlen : skipped + length ≤ s.reading.feed.rest.length) (kind : TokenKind) (payload : Payload) :
    Linked p { s with reading := Reading.take s.reading skipped length kind payload }
      { t with reading := Reading.take t.reading skipped length kind payload } where
  session := hst.session
  main := hst.main
  mainPath := hst.mainPath
  body := hst.body
  path := hst.path
  reading := ⟨hst.reading.body, hst.reading.path, hst.reading.fragment, rfl, rfl⟩
  feed := hst.feed.advance hlen
  rest := by
    have hrest := hst.rest
    simp only [Reading.take, Feed.advance_rest, List.length_drop]
    omega
  lastValue := hst.lastValue
  program := hst.program

end

namespace Eval

variable {α β : Type} {p : Pairing} {h : Heap} {P : Heap → α → Prop}

/-! ## Tokens -/

/-- Scanning a token is finding it in the bytes ahead. -/
theorem advance_apply (resolveNames : Bool) (s : EvalState) :
    advance resolveNames s =
      match Lexer.find (s.session.heap.resolver s.reading.body) resolveNames
          s.reading.feed.rest with
      | .token skipped length kind payload =>
        .done () { s with reading := Reading.take s.reading skipped length kind payload }
      | .fault why place stop =>
        .failed (.diagnostic (why.diagnostic (s.reading.feed.advance place).loc))
          { s with reading := { s.reading with feed := s.reading.feed.advance stop } } := by
  rw [advance, Lexer.next_eq]
  cases Lexer.find (s.session.heap.resolver s.reading.body) resolveNames s.reading.feed.rest with
  | token skipped length kind payload =>
    simp only [Found.at_, Lexer.take, Reading.take, Feed.advance_add]
  | fault why place stop => rfl

theorem agrees_advance (resolveNames : Bool) :
    Agrees p h (advance resolveNames) (advance resolveNames) fun h' _ => h' = h := by
  refine ⟨(runs_advance resolveNames).lands, fun s t _ _ hst => ?_, fun s _ _ hlost a t hdone => ?_⟩
  · rw [advance_apply, advance_apply, hst.resolver, hst.feed.rest, Pairing.after]
    cases hmore : p.more with
    | none =>
      rw [List.append_nil]
      cases hfind : Lexer.find (s.session.heap.resolver s.reading.body) resolveNames
          s.reading.feed.rest with
      | token skipped length kind payload =>
        exact .inr ⟨(), _, rfl, rfl, hst.take (Lexer.find_le hfind) kind payload⟩
      | fault why place stop =>
        exact fun _ => ⟨_, _, rfl, rfl, hst.session, hst.main, hst.reading.path⟩
    | some more =>
      cases hfind : Lexer.find (s.session.heap.resolver s.reading.body) resolveNames
          s.reading.feed.rest with
      | token skipped length kind payload =>
        -- Any token but the end is found in both sources; at the end the second one goes on.
        by_cases hkind : kind = .eof
        · subst hkind
          obtain ⟨hskipped, -⟩ := Lexer.find_append_eof hfind more
          have hsome : p.more ≠ none := by simp [hmore]
          exact .inl ⟨hsome, hst.program hsome, rfl, by simp [Reading.take, hskipped]⟩
        · obtain ⟨-, -, hsame⟩ := Lexer.find_append hfind hkind more
          rw [hsame]
          exact .inr ⟨(), _, rfl, rfl, hst.take (Lexer.find_le hfind) kind payload⟩
      | fault why place stop => exact fun hnone => by simp [hmore] at hnone
  · rw [advance_apply, hlost.rest, Lexer.find_nil] at hdone
    cases hdone
    exact ⟨hlost.more, hlost.program, rfl, by simp [Reading.take, hlost.rest]⟩

/-- The last token taken, after one more was scanned, is the one that was ahead. -/
theorem advance_bind_curr (resolveNames : Bool) (f : Token → Eval β) :
    (advance resolveNames >>= fun _ => curr >>= f) =
      next >>= fun t => advance resolveNames >>= fun _ => f t := by
  funext s
  simp only [bind_apply, Eval.bind, next, curr, gets, advance_apply]
  split
  · rename_i hdone
    split at hdone
    · cases hdone
      rfl
    · cases hdone
  · rename_i hfailed
    split at hfailed
    · cases hfailed
    · cases hfailed
      rfl
  · rename_i hout
    split at hout <;> cases hout

theorem agrees_nextIs (kind : TokenKind) :
    Agrees p h (nextIs kind) (nextIs kind) fun h' _ => h' = h := by
  refine (agrees_gets (q := fun _ => True) (fun _ _ _ => trivial) fun s t hst => ?_).mono
    fun _ _ _ hh => hh.1
  rw [hst.reading.next.kind]
  exact Likeness.refl _

theorem agrees_nextIsPunct (c : Punct) :
    Agrees p h (nextIsPunct c) (nextIsPunct c) fun h' _ => h' = h :=
  agrees_nextIs _

section

variable [Likeness α]

theorem agrees_failAtNext (message : String) :
    Agrees p h (failAtNext message) (failAtNext message) P :=
  agrees_next.bind fun _ _ _ _ _ _ => agrees_malformedAt _ _ _

theorem agrees_failAfterCurr (message : String) :
    Agrees p h (failAfterCurr message) (failAfterCurr message) P :=
  .bind_curr fun _ _ _ => agrees_malformedAt _ _ _

theorem agrees_undeclared {t u : Token} (htu : t.Alike u) :
    Agrees p h (undeclared t) (undeclared u) P := by
  unfold undeclared
  rw [htu.word]
  exact agrees_malformedAt _ _ _

end

theorem agrees_expectTerminal :
    Agrees p h expectTerminal expectTerminal fun h' _ => h' = h := by
  unfold expectTerminal
  refine agrees_reading.bind_same fun r q _ hrq => ?_
  rw [← hrq.next.kind, ← hrq.fragment]
  split
  · exact .done rfl
  · split
    · exact .done rfl
    · exact agrees_failAfterCurr _
  · exact agrees_failAfterCurr _

/-! ## Scans -/

/-- A scan that takes so many bytes, or fails; at an end it fails. -/
theorem agrees_scan [Likeness α] {f : Feed → Except LexError α × Feed}
    (hok : ∀ F G after a F', Feed.Linked after F G → f F = (.ok a, F') →
      ∃ n b, n ≤ F.rest.length ∧ F' = F.advance n ∧ f G = (.ok b, G.advance n) ∧
        Likeness.Alike a b)
    (herr : ∀ F G e F', Feed.Linked [] F G → f F = (.error e, F') →
      ∃ loc G', f G = (.error ⟨e.fault, loc⟩, G'))
    (hend : ∀ F a F', F.rest = [] → f F ≠ (.ok a, F')) :
    Agrees p h (scan f) (scan f) fun h' _ => h' = h := by
  refine ⟨runs_scan.lands, fun s t _ _ hst => ?_, fun s _ _ hlost a t hdone => ?_⟩
  · unfold scan
    split
    · rename_i a F' hf
      obtain ⟨n, b, hn, rfl, hg, hab⟩ := hok _ _ _ a F' hst.feed hf
      rw [hg]
      refine .inr ⟨b, _, rfl, hab, hst.session, hst.main, hst.mainPath, hst.body, hst.path, ?_,
        hst.feed.advance hn, ?_, hst.lastValue, hst.program⟩
      · exact ⟨hst.reading.body, hst.reading.path, hst.reading.fragment, hst.reading.next⟩
      · have hrest := hst.rest
        simp only [Feed.advance_rest, List.length_drop]
        omega
    · rename_i e F' hf
      intro hmore
      have hfeed := hst.feed
      rw [Pairing.after, hmore] at hfeed
      obtain ⟨loc, G', hg⟩ := herr _ _ e F' hfeed hf
      rw [hg]
      exact ⟨_, _, rfl, rfl, hst.session, hst.main, hst.reading.path⟩
  · unfold scan at hdone
    split at hdone
    · rename_i hf
      exact absurd hf (hend _ _ _ hlost.rest)
    · cases hdone

theorem agrees_scanString (quote : UInt8) :
    Agrees p h (scan (Lexer.scanString quote)) (scan (Lexer.scanString quote))
      fun h' _ => h' = h := by
  refine agrees_scan ?_ ?_ ?_
  · intro F G after a F' hfg hf
    unfold Lexer.scanString at hf ⊢
    split at hf
    · cases hf
    · rename_i n hn
      cases hf
      have hlt : n < F.rest.length := (List.findIdx?_eq_some_iff_getElem.1 hn).1
      refine ⟨n, _, hlt.le, rfl, ?_, rfl⟩
      rw [hfg.rest, List.findIdx?_append, hn, Option.some_or]
      dsimp only
      rw [List.take_append_of_le_length hlt.le]
  · intro F G e F' hfg hf
    unfold Lexer.scanString at hf ⊢
    split at hf
    · rename_i hn
      cases hf
      rw [hfg.rest, List.append_nil, hn]
      exact ⟨_, _, rfl⟩
    · cases hf
  · intro F a F' hend hf
    unfold Lexer.scanString at hf
    rw [hend] at hf
    cases hf

/-- The text of a slice that starts at the cursor. -/
theorem bytes_slice {F : Feed} (hf : F.Anchored) {n : Nat} (hn : n ≤ F.rest.length) :
    (F.view.slice F.loc.pos (F.loc.pos + n) F.loc).bytes = F.rest.take n := by
  obtain ⟨tail, htail⟩ := hf
  have hlen : F.view.first + (F.loc.pos + n) - (F.view.first + F.loc.pos) = n := by omega
  rw [View.slice, View.bytes, hlen, ← htail, List.take_append_of_le_length hn]

/-- Slices from cursors before the same bytes have the same text. -/
theorem slice_unplaced {after : List UInt8} {F G : Feed} (hfg : Feed.Linked after F G) {n : Nat}
    (hn : n ≤ F.rest.length) :
    (F.view.slice F.loc.pos (F.loc.pos + n) F.loc).unplaced =
      (G.view.slice G.loc.pos (G.loc.pos + n) G.loc).unplaced := by
  cases hfg with
  | same => rfl
  | anchored hf hg hrest =>
    have hn' : n ≤ G.rest.length := by
      rw [hrest, List.length_append]
      omega
    have hbytes : (F.view.slice F.loc.pos (F.loc.pos + n) F.loc).bytes =
        (G.view.slice G.loc.pos (G.loc.pos + n) G.loc).bytes := by
      rw [bytes_slice hf hn, bytes_slice hg hn', hrest, List.take_append_of_le_length hn]
    rw [View.unplaced, View.unplaced, hbytes]
    rfl

theorem agrees_captureBraces :
    Agrees p h (scan Lexer.captureBraces) (scan Lexer.captureBraces) fun h' _ => h' = h := by
  refine agrees_scan ?_ ?_ ?_
  · intro F G after a F' hfg hf
    unfold Lexer.captureBraces at hf ⊢
    split at hf
    · cases hf
    · rename_i n hn
      cases hf
      obtain ⟨hmore, hle⟩ := Lexer.closingBrace_append hn after
      rw [Nat.zero_add] at hle
      refine ⟨n, _, hle, rfl, ?_, slice_unplaced hfg hle⟩
      rw [hfg.rest, hmore]
  · intro F G e F' hfg hf
    unfold Lexer.captureBraces at hf ⊢
    split at hf
    · rename_i hn
      cases hf
      rw [hfg.rest, List.append_nil, hn]
      exact ⟨_, _, rfl⟩
    · cases hf
  · intro F a F' hend hf
    unfold Lexer.captureBraces at hf
    rw [hend] at hf
    cases hf

theorem agrees_captureBody (what : String) :
    Agrees p h (captureBody what) (captureBody what) fun h' _ => h' = h := by
  unfold captureBody
  refine (agrees_nextIsPunct _).bind_kept ?_
  rintro b - rfl
  refine .ite (fun _ => ?_) fun _ => agrees_failAfterCurr _
  refine agrees_captureBraces.bind_kept fun view view' hview => ?_
  exact (agrees_advance true).bind_kept fun _ _ _ => .pure rfl hview

theorem agrees_stringLiteral :
    Agrees p h stringLiteral stringLiteral fun h' _ => h' = h := by
  unfold stringLiteral
  refine (agrees_nextIsPunct _).bind_kept ?_
  rintro b - rfl
  refine (agrees_scanString _).bind_kept ?_
  rintro text - rfl
  refine (agrees_advance true).bind_kept fun _ _ _ => ?_
  exact (agrees_advance true).bind_kept fun _ _ _ => .done rfl

theorem agrees_bodySource {view view' : View} (hview : view.unplaced = view'.unplaced)
    (defLoc defLoc' : Location) :
    Agrees p h (bodySource view defLoc) (bodySource view' defLoc') fun h' _ => h' = h := by
  unfold bodySource
  refine agrees_reading.bind_same fun r q _ hrq => .pure rfl ?_
  show Body.unplaced _ = Body.unplaced _
  rw [Body.unplaced, Body.unplaced, hrq.path, hview]

/-! ## Names -/

theorem agrees_checkNewName (name : Option String) (what : String) (loc loc' : Location) :
    Agrees p h (checkNewName name what loc) (checkNewName name what loc') fun h' _ => h' = h := by
  unfold checkNewName
  split
  · exact agrees_malformedAt _ _ _
  · rename_i name
    refine .bind_heap fun k hk => ?_
    refine agrees_reading.bind_same fun r q _ hrq => ?_
    have hfind : h.findLocal? r.body name = k.findLocal? q.body name := by
      rw [← hrq.body]
      exact hk.eq (f := (·.findLocal? r.body name)) fun h => by simp
    rw [hfind]
    exact .ite (fun _ => agrees_malformedAt _ _ _) fun _ => .done rfl

/-- A declaration is a step, and its slot is there. -/
theorem agrees_declareIn (owner : ContainerId) (name : String) {d : Declared} (hd : d.Valid h)
    (loc loc' : Location) :
    Agrees p h (declareIn owner name d loc) (declareIn owner name d loc')
      fun h' s => h'.HasSlot s := by
  unfold declareIn
  refine .bind_heap fun k hk => ?_
  have hsame := hk.map (f := (·.declare owner name d))
    fun h => h.declare_unplaced p.main owner name d
  refine .bind_ofHeapAt _ hsame ?_ loc loc'
  rintro ⟨s, h'⟩ ⟨s', k'⟩ hok he
  obtain ⟨rfl, hk'⟩ := Prod.mk.inj he
  refine (agrees_setHeap (.single (.declare hd hok)) hk').bind ?_
  rintro _ _ _ - rfl -
  exact .done (Heap.hasSlot_declare hok)

theorem agrees_assignSlot {s : SlotId} (hs : h.HasSlot s) {v : Value} (hv : v.Valid h) :
    Agrees p h (assignSlot s v) (assignSlot s v) fun _ _ => True := by
  unfold assignSlot
  refine .of_reachable fun hr => .bind_heap fun k hk => ?_
  have hsame := hk.map (f := (·.assign s v)) fun h => h.assign_unplaced p.main s v
  refine .bind_ofHeap _ hsame fun h' k' hok (hk' : h'.Alike p.main k') => ?_
  have hkept := hk'.map (f := (·.warmAssign s v)) (g := (·.unplaced p.main))
    fun h => h.warmAssign_unplaced p.main s v
  have hsteps := Heap.steps_assign hr.closed hs hv hok
  exact (agrees_setHeap hsteps hkept).mono fun _ _ _ _ => trivial

theorem agrees_bindName (name : String) (ty : TypeSpec) (ht : ty.Valid h) {v : Value}
    (hv : v.Valid h) (loc loc' : Location) :
    Agrees p h (bindName name ty v loc) (bindName name ty v loc') fun _ _ => True := by
  unfold bindName
  refine agrees_reading.bind_same fun r q _ hrq => ?_
  rw [← hrq.body]
  refine (agrees_declareIn r.body name (d := .scalar ty) ht loc loc').bind ?_
  rintro h' s _ hh' hs rfl
  exact agrees_assignSlot hs (hv.mono hh'.grows)

theorem agrees_render (v : Value) : Agrees p h (render v) (render v) fun h' _ => h' = h := by
  unfold render
  refine .bind_heap fun k hk => ?_
  rw [← hk.eq (f := (·.render? v)) fun h => h.render?_unplaced p.main v]
  exact (agrees_ofOption _).mono fun _ _ _ hh => hh.1

/-! ## Where a path leads -/

theorem agrees_read {o : Operand} (ho : o.Valid h) :
    Agrees p h (read o) (read o) fun h' v => h' = h ∧ v.Valid h := by
  unfold read
  refine .of_reachable fun hr => .bind_heap fun k hk => ?_
  rw [← hk.eq (f := (·.readOperand o)) fun h => h.readOperand_unplaced p.main o]
  split
  · rename_i v hv
    exact .done ⟨rfl, Heap.valid_readOperand hr.closed ho hv⟩
  · exact .bind_curr fun _ _ _ => agrees_malformedAt _ _ _

theorem agrees_rootMap {root : JsonRoot} (hroot : root.Valid h) :
    Agrees p h (rootMap root) (rootMap root) fun _ _ => True := by
  unfold rootMap
  split
  · exact .done trivial
  · rename_i s
    refine .bind_heap fun k hk => ?_
    rw [← hk.eq (f := (·.value s)) fun _ => rfl]
    split
    · exact .done trivial
    · have hmap : h.Step (h.newMap .empty).2 := .newMap (.empty _)
      refine (agrees_withHeap (.single hmap) fun _ => rfl).bind ?_
      rintro _ m _ - ⟨rfl, rfl⟩ rfl
      refine (agrees_assignSlot (Heap.HasSlot.mono hmap.grows hroot) ?_).bind
        fun _ _ _ _ _ _ => .done trivial
      simp [Value.Valid, Heap.newMap]

theorem agrees_store {o : Operand} (ho : o.Valid h) {v : Value} (hv : v.Valid h) :
    Agrees p h (store o v) (store o v) fun _ _ => True := by
  unfold store
  split
  · exact agrees_assignSlot ho hv
  · exact agrees_assignSlot ho hv
  · rename_i s i key
    refine .of_reachable fun hr => ?_
    have hstep : h.Step (h.materialize i key s).2 := .materialize key s ho.2
    refine (agrees_withHeap (.single hstep) fun h => h.materialize_unplaced p.main i key s).bind ?_
    rintro _ own _ - ⟨rfl, rfl⟩ rfl
    exact agrees_assignSlot (Heap.hasSlot_materialize hr.closed i key s) (hv.mono hstep.grows)
  · rename_i root keys
    refine (agrees_rootMap ho).bind ?_
    rintro h₁ m _ hh₁ - rfl
    split
    · exact agrees_raise rfl
    · rename_i last _
      refine .bind_heap fun k hk => ?_
      have hsame := hk.map (f := (·.storeKeys m last v keys.dropLast))
        fun h => h.storeKeys_unplaced p.main m last v _
      cases hh : h₁.storeKeys m last v keys.dropLast with
      | ok h' =>
        cases hk' : k.storeKeys m last v keys.dropLast with
        | ok k' =>
          rw [hh, hk'] at hsame
          have hsteps := Heap.steps_storeKeys (hv.mono hh₁.grows) hh
          exact (agrees_setHeap hsteps (Except.ok.inj hsame)).mono fun _ _ _ _ => trivial
        | error f =>
          rw [hh, hk'] at hsame
          cases hsame
      | error f =>
        cases hk' : k.storeKeys m last v keys.dropLast with
        | ok k' =>
          rw [hh, hk'] at hsame
          cases hsame
        | error g =>
          rw [hh, hk'] at hsame
          rw [Except.error.inj hsame]
          exact agrees_raise rfl
  · exact .bind_curr fun _ _ _ => agrees_malformedAt _ _ _
  · exact .bind_curr fun _ _ _ => agrees_malformedAt _ _ _

end Eval
end Ditlang
