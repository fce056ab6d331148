import Ditlang.Proofs.Eval.Law

/-!
# Ditlang.Proofs.Eval.Reading

Going through the tokens of a body obeys the laws. A token that names something names a slot of the
store, because names are looked up in the store at the moment a token is scanned. The token ahead is
known to the rule that was chosen by it (`ObeysAt.take`). Declaring and assigning are steps.
-/

namespace Ditlang

open Source (Location View Feed)

namespace Heap

variable {h : Heap}

theorem Closed.hasSlot_findLocal? (hc : h.Closed) {c : ContainerId} {name : String} {s : SlotId}
    (hf : h.findLocal? c name = some s) : h.HasSlot s := by
  have hv := hc.container c
  unfold findLocal? Container.find? at hf
  cases ha : (h.container c).attrs.get? name with
  | some t =>
    rw [ha, Option.some_or] at hf
    cases hf
    exact hv.attrs.get? ha
  | none =>
    rw [ha, Option.none_or] at hf
    exact hv.aliases.get? hf

theorem Closed.hasSlot_findWithin? (hc : h.Closed) {n : Nat} {c : ContainerId} {name : String}
    {s : SlotId} (hf : h.findWithin? n c name = some s) : h.HasSlot s := by
  induction n generalizing c with
  | zero => cases hf
  | succ n ih =>
    unfold findWithin? at hf
    split at hf
    · rename_i t ht
      cases hf
      exact hc.hasSlot_findLocal? ht
    · split at hf
      · exact ih hf
      · cases hf

theorem Closed.hasSlot_resolver (hc : h.Closed) {c : ContainerId} {word : String} {r : Resolved}
    (hr : h.resolver c word = some r) : h.HasSlot r.slot := by
  obtain ⟨s, hs, rfl⟩ := Option.map_eq_some_iff.1 hr
  exact hc.hasSlot_findWithin? hs

theorem hasSlot_declare {h h' : Heap} {owner : ContainerId} {name : String} {d : Declared}
    {s : SlotId} (hok : h.declare owner name d = .ok (s, h')) : h'.HasSlot s := by
  obtain ⟨-, rfl, ⟨-, rfl⟩ | ⟨-, found, -, rfl⟩⟩ := declare_inv hok
  · simp [HasSlot, attach, newSlot]
  · simp [HasSlot, attach, newSlot, addConflicts, forgetAncestries]

end Heap

namespace Lexer

/-- A word that is scanned names what the resolver says. -/
theorem slot?_classify {resolver : Resolver} {resolveNames : Bool} {word : String} {loc : Location}
    {stop : Nat} {s : SlotId}
    (hs : (Token.mk (classify resolver resolveNames word).1 loc stop
      (classify resolver resolveNames word).2).slot? = some s) :
    ∃ r, resolver word = some r ∧ r.slot = s := by
  unfold classify at hs
  split at hs
  · cases hs
  · split at hs
    · split at hs
      · rename_i r hr
        cases hs
        exact ⟨r, hr, rfl⟩
      · cases hs
    · cases hs

theorem slot?_number {f g : Feed} {t : Token} (ht : number f = (.ok t, g)) : t.slot? = none := by
  unfold number at ht
  dsimp only at ht
  split at ht
  · cases ht
    rfl
  · cases ht

/-- A token that names a slot has it from the resolver. -/
theorem slot?_next {resolver : Resolver} {resolveNames : Bool} {f g : Feed} {t : Token} {s : SlotId}
    (ht : next resolver resolveNames f = (.ok t, g)) (hs : t.slot? = some s) :
    ∃ word r, resolver word = some r ∧ r.slot = s := by
  unfold next at ht
  split at ht
  · cases ht
  · split at ht
    · cases ht
      cases hs
    · unfold tokenHere at ht
      split at ht
      · cases ht
        cases hs
      · split at ht
        · cases ht
          cases hs
        · split at ht
          · rw [slot?_number ht] at hs
            cases hs
          · split at ht
            · cases ht
              exact ⟨_, slot?_classify hs⟩
            · cases ht

end Lexer

namespace Eval

variable {α β : Type} {L : Law} {h : Heap} {P : Heap → α → Prop}

theorem obeys_advance (resolveNames : Bool) :
    Obeys L h (advance resolveNames) fun h' _ => h' = h := by
  rintro s hs rfl
  exact L.advance resolveNames hs

/-- The token that was ahead is the one that is taken. -/
theorem ObeysAt.take {t : Token} {resolveNames : Bool} {f : Token → Eval β} {R : Heap → β → Prop}
    (hf : Obeys L h (f t) R) :
    ObeysAt L h t (advance resolveNames >>= fun _ => curr >>= f) R := by
  rintro s hs ⟨rfl, rfl⟩
  have hl := L.advance resolveNames hs
  rw [bind_apply, Eval.bind]
  revert hl
  unfold advance
  dsimp only
  generalize Lexer.next _ _ _ = x
  obtain ⟨⟨e⟩ | ⟨t⟩, feed⟩ := x
  · exact id
  · rintro ⟨hu, hsteps, hcourse, -⟩
    exact (hf _ hu rfl).after hsteps hcourse

theorem obeys_nextIs (kind : TokenKind) : Obeys L h (nextIs kind) fun h' _ => h' = h :=
  (obeys_gets (p := fun _ => True) fun _ _ _ => trivial).mono fun _ _ _ hh => hh.1

theorem obeys_nextIsPunct (p : Punct) : Obeys L h (nextIsPunct p) fun h' _ => h' = h :=
  obeys_nextIs _

theorem obeys_failAtNext (message : String) : Obeys L h (failAtNext message) P :=
  obeys_next.bind_same fun _ ht => obeys_malformedAt _ ht.loc

theorem obeys_failAfterCurr (message : String) : Obeys L h (failAfterCurr message) P :=
  obeys_curr.bind_same fun _ ht => obeys_malformedAt _ ht.endLoc

theorem obeys_undeclared {t : Token} (ht : L.Marks t) : Obeys L h (undeclared t) P :=
  obeys_malformedAt _ ht.loc

theorem obeys_expectTerminal : Obeys L h expectTerminal fun h' _ => h' = h := by
  unfold expectTerminal
  refine obeys_reading.bind_same fun r _ => ?_
  split
  · exact .pure rfl
  · split
    · exact .pure rfl
    · exact obeys_failAfterCurr _
  · exact obeys_failAfterCurr _

theorem obeys_captureBody (what : String) :
    Obeys L h (captureBody what) fun h' view => h' = h ∧ L.view view := by
  unfold captureBody
  refine (obeys_nextIsPunct _).bind_kept fun b => ?_
  refine .ite (fun _ => ?_) fun _ => obeys_failAfterCurr _
  have hscan : Obeys L h (scan Lexer.captureBraces) fun h' view => h' = h ∧ L.view view := by
    rintro s hs rfl
    exact L.captureBraces hs
  refine hscan.bind_same fun view hview => ?_
  exact (obeys_advance true).bind_kept fun _ => .pure ⟨rfl, hview⟩

theorem obeys_stringLiteral : Obeys L h stringLiteral fun h' _ => h' = h := by
  unfold stringLiteral
  refine (obeys_nextIsPunct _).bind_kept fun b => ?_
  have hscan : ∀ quote, Obeys L h (scan (Lexer.scanString quote)) fun h' _ => h' = h := by
    rintro quote s hs rfl
    exact L.scanString quote hs
  refine (hscan _).bind_kept fun text => ?_
  refine (obeys_advance true).bind_kept fun _ => ?_
  exact (obeys_advance true).bind_kept fun _ => .pure rfl

theorem obeys_bodySource (view : View) (defLoc : Location) :
    Obeys L h (bodySource view defLoc) fun h' b =>
      h' = h ∧ b.view = view ∧ b.interpreted = false := by
  unfold bodySource
  exact obeys_reading.bind_same fun _ _ => .pure ⟨rfl, rfl, rfl⟩

theorem obeys_checkNewName (name : Option String) (what : String) {loc : Location}
    (hloc : L.place loc) : Obeys L h (checkNewName name what loc) fun h' _ => h' = h := by
  unfold checkNewName
  split
  · exact obeys_malformedAt _ hloc
  · refine .bind_heap ?_
    refine obeys_reading.bind_same fun r _ => ?_
    exact .ite (fun _ => obeys_malformedAt _ hloc) fun _ => .pure rfl

/-- A declaration is a step, and its slot is there. -/
theorem obeys_declareIn (owner : ContainerId) (name : String) {d : Declared} (hd : d.Valid h)
    {loc : Location} (hloc : L.place loc) :
    Obeys L h (declareIn owner name d loc) fun h' s => h'.HasSlot s := by
  unfold declareIn
  refine .bind_heap ?_
  refine (obeys_ofHeapAt hloc fun _ => Heap.ordinary_declare).bind_same ?_
  rintro ⟨s, h'⟩ hok
  refine (obeys_setHeap (.single (.declare hd hok)) (.single (.declare hok))).bind ?_
  rintro _ _ - rfl
  exact .pure (Heap.hasSlot_declare hok)

theorem obeys_assignSlot {s : SlotId} (hs : h.HasSlot s) {v : Value} (hv : v.Valid h) :
    Obeys L h (assignSlot s v) fun h' _ => L.Edits h h' := by
  unfold assignSlot
  refine .of_reachable fun hr => .bind_heap ?_
  refine (obeys_ofHeap fun _ => Heap.ordinary_assign).bind_same fun h' hok => ?_
  have hedits : L.Edits h (h'.warmAssign s v) :=
    .trans (.single (.assign hr.closed hok)) (Heap.edits_warmAll _)
  refine (obeys_setHeap (Heap.steps_assign hr.closed hs hv hok) hedits).mono ?_
  rintro _ _ - rfl
  exact hedits

theorem obeys_bindName (name : String) (ty : TypeSpec) (ht : ty.Valid h) {v : Value}
    (hv : v.Valid h) {loc : Location} (hloc : L.place loc) :
    Obeys L h (bindName name ty v loc) fun _ _ => True := by
  unfold bindName
  refine obeys_reading.bind_same fun r _ => ?_
  refine (obeys_declareIn r.body name (d := .scalar ty) ht hloc).bind fun h' s hh' hs => ?_
  exact (obeys_assignSlot hs (hv.mono hh'.grows)).mono fun _ _ _ _ => trivial

theorem obeys_render (v : Value) : Obeys L h (render v) fun h' _ => h' = h := by
  unfold render
  refine .bind_heap ?_
  exact (obeys_ofOption _).mono fun _ _ _ hh => hh.1

end Eval
end Ditlang
