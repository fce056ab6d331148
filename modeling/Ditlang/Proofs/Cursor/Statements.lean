import Ditlang.Proofs.Agree.Statements
import Ditlang.Proofs.Cursor.Definitions

/-!
# Ditlang.Proofs.Cursor.Statements

How statements and bodies go, and with them the evaluator at every depth. A statement stops at the token
that ends it (`Completes`): at the brace that closes the body of a definition, and otherwise at a `;` or
at the end of a fragment. So each round of running statements takes bytes.
-/

namespace Ditlang

open Source (Location View Feed)

/-- The token starts the definition of a class, a function or a Lang. -/
def Token.Defines (t : Token) : Prop :=
  t.kind = .keyword .classKw ∨ t.kind = .keyword .funcKw ∨ t.kind = .keyword .langKw

/-- A statement was gone through, and the token that ends it is ahead. -/
structure Reading.Completes (r r' : Reading) : Prop extends r.Passes r' where
  definition : r.next.Defines → r.Closes r'
  other : ¬ r.next.Defines → r'.AtTerminal

namespace Eval

/-- A part of a statement that leads to its end was gone through. -/
abbrev Ended {α : Type} (s : EvalState) (_ : α) (t : EvalState) : Prop :=
  s.reading.Reaches t.reading ∧ t.reading.AtTerminal

/-- A statement that defines nothing was gone through. -/
abbrev Finished {α : Type} (s : EvalState) (_ : α) (t : EvalState) : Prop :=
  s.reading.Passes t.reading ∧ t.reading.AtTerminal

/-- A statement was gone through. -/
abbrev Complete {α : Type} (s : EvalState) (_ : α) (t : EvalState) : Prop :=
  s.reading.Completes t.reading

variable {I : ContainerId → Heap → Prop} {spent : Prop} {s : EvalState} {d : Deeper} {n : Nat}

theorem Ended.after {α β : Type} {a : α} {b : β} {t u : EvalState} (hu : Ended t a u)
    (hst : s.reading.Reaches t.reading) : Ended s b u :=
  ⟨hst.trans hu.1, hu.2⟩

theorem Ended.finished {α β : Type} {a : α} {b : β} {t u : EvalState} (hu : Ended t a u)
    (ht : s.reading.Passes t.reading) : Finished s b u :=
  ⟨ht.on hu.1, hu.2⟩

theorem Complete.of_definition {α : Type} {a : α} {t : EvalState} (hkind : s.reading.next.Defines)
    (ht : Closing s a t) : Complete s a t :=
  ⟨ht.1, fun _ => ht.2, fun h => absurd hkind h⟩

theorem Complete.of_other {α β : Type} {a : α} {b : β} {t : EvalState}
    (hkind : ¬ s.reading.next.Defines) (ht : Finished s a t) : Complete s b t :=
  ⟨ht.1, fun h => absurd h hkind, fun _ => ht.2⟩

theorem proceeds_end : Proceeds I spent s expectTerminal (Ended s) :=
  proceeds_expectTerminal.mono fun _ _ ht => ⟨.of_eq ht.1, ht.1 ▸ ht.2⟩

theorem proceeds_endFrom {t : EvalState} (hst : s.reading.Reaches t.reading) :
    Proceeds I spent t expectTerminal (Ended s) :=
  proceeds_end.mono fun _ _ hu => hu.after hst

theorem proceeds_keepValue (v : Value) : Proceeds I spent s (keepValue v) (Onward s) :=
  .of_done rfl rfl rfl (.inl ⟨⟨rfl, rfl, rfl⟩, rfl, rfl⟩)

theorem proceeds_declarationOwner (base : Value) (word : String) (loc : Location) :
    Proceeds I spent s (declarationOwner base word loc) (Still s) := by
  unfold declarationOwner
  split
  · exact .pure rfl
  · exact proceeds_malformedAt _ _

/-- The names of a dit become known in the body that is read. -/
theorem proceeds_expose (hI : Heap.Upheld I) (dit : ContainerId) (loc : Location) :
    Proceeds I spent s (expose dit loc) (Still s) := by
  unfold expose
  refine .bind_reading (.bind_heap ?_)
  refine (proceeds_forIn (J := fun t => t.reading = s.reading) _ ?_ rfl _).bind
    fun _ _ ht => .pure ht
  rintro ⟨name, slot⟩ - t ht
  refine .of_here fun hi => .bind_heap (.bind_ofHeapAt fun h hok => ?_)
  rw [ht] at hi
  exact (proceeds_setHeap (hI.insertAlias hi hok)).bind fun _ u hu => .pure ⟨hu.1.trans ht, _, rfl⟩

theorem proceeds_canReturn : Proceeds I spent s canReturn (Still s) := by
  unfold canReturn
  refine .bind_reading (.bind_heap ?_)
  split
  · exact .pure rfl
  · exact .pure rfl

section

variable [Calling d] (hd : d.Answering I spent n)

include hd

/-! ## Declarations and assignments -/

theorem proceeds_declarationTarget : Proceeds I spent s (declarationTarget d) (Past s) := by
  unfold declarationTarget
  refine .bind_next ?_
  split
  · exact proceeds_malformedAt _ _
  · rename_i hname
    refine (proceeds_take (ne_eof_of_name hname) true).bind fun _ t ht => ?_
    refine .bind_nextIsPunct fun _ _ => .ite (fun _ => ?_) fun _ => .bind_reading (.pure ht)
    split
    · exact proceeds_malformedAt _ _
    · refine .bind_heap ?_
      refine (proceeds_repeatTokens (Q := Past) ht.sharp (fun _ _ _ h => h.passes ht.sharp)
        (fun base u hu _ => ?_) _).mono fun _ _ hu => ht.on hu.reaches
      refine (proceeds_memberName hu).bind fun word v hv => ?_
      refine .bind_nextIsPunct fun _ _ => .ite (fun _ => ?_) fun _ => ?_
      · refine (proceeds_containerMember hd _ _ _).bind fun o w hw => ?_
        exact (proceeds_read o).bind fun _ x hx => .pure (hv.on (.of_eq (hx.trans hw)))
      · refine .bind_curr ((proceeds_declarationOwner _ _ _).bind fun _ w hw => .pure ?_)
        exact hv.on (.of_eq hw)

theorem proceeds_declarationRest (declared : Declared) (hw : s.reading.Fits spent n) :
    Proceeds I spent s (declarationRest d declared) (Ended s) := by
  unfold declarationRest
  refine .bind_next ((proceeds_declarationTarget hd).bind ?_)
  rintro ⟨owner, name⟩ t ht
  refine (proceeds_declareIn hd.upheld owner name declared _).bind fun slot u hu => ?_
  have hsu : s.reading.Reaches u.reading := ht.reaches.trans (.of_eq hu)
  refine .bind_nextIsPunct fun _ _ => .ite (fun _ => ?_) fun _ => proceeds_endFrom hsu
  refine (proceeds_advance true).bind fun _ v hv => ?_
  have hsv : s.reading.Reaches v.reading := hsu.trans (.inr hv)
  refine (proceeds_expression hd hv.sharp (hw.reaches hsv)).bind fun _ w hvw => ?_
  refine (proceeds_assignSlot hd.upheld _ _).bind fun _ x hx => ?_
  exact proceeds_endFrom (hsv.trans (hvw.reaches.trans (.of_eq hx)))

theorem proceeds_valueStatement (hne : s.reading.next.kind ≠ .eof)
    (hw : s.reading.Fits spent (n + 1)) :
    Proceeds I spent s (valueStatement d) (Finished s) := by
  unfold valueStatement
  refine (proceeds_operand hd hne hw).bind fun o t ht => .bind_next ?_
  refine Proceeds.mono (P := Ended t) ?_ fun _ _ hu => hu.finished ht
  have hw₁ := hw.passes ht
  -- A class before a name is a type.
  refine Proceeds.bind_ite (P := Still t) (fun _ => ?_) (fun _ => .pure rfl) fun cls u hu => ?_
  · refine (proceeds_read o).bind fun v u hu => ?_
    split
    · exact .pure hu
    · exact .pure hu
  · have htu : t.reading.Reaches u.reading := .of_eq hu
    dsimp only
    split
    · exact (proceeds_declarationRest hd _ (hw₁.reaches htu)).mono fun _ _ hv => hv.after htu
    · refine .bind_nextIsPunct fun _ _ => .ite (fun _ => ?_) fun _ => ?_
      · refine (proceeds_advance true).bind fun _ v hv => ?_
        have htv : t.reading.Reaches v.reading := htu.trans (.inr hv)
        refine (proceeds_expression hd hv.sharp (hw₁.reaches htv)).bind fun _ w hvw => ?_
        refine (proceeds_store hd.upheld _ _).bind fun _ x hx => ?_
        exact proceeds_endFrom (htv.trans (hvw.reaches.trans (.of_eq hx)))
      · refine (proceeds_read o).bind fun _ v hv => ?_
        have htv : t.reading.Reaches v.reading := htu.trans (.of_eq hv)
        refine (proceeds_continueExpression hd _ (htv.sharp ht.sharp) (hw₁.reaches htv)).bind
          fun _ w hvw => ?_
        exact (proceeds_keepValue _).bind fun _ _ hx => proceeds_endFrom (htv.trans (hvw.trans hx))

/-! ## Imports -/

theorem proceeds_importNames (path : Value) (loc : Location) :
    Proceeds I spent s (importNames d path loc) (Ended s) := by
  unfold importNames
  refine (proceeds_loadImport hd path loc).bind fun dit t ht => ?_
  refine (proceeds_expose hd.upheld dit loc).bind fun _ u hu => ?_
  exact proceeds_endFrom (.of_eq (hu.trans ht))

theorem proceeds_importStatement (hne : s.reading.next.kind ≠ .eof)
    (hw : s.reading.Fits spent (n + 1)) :
    Proceeds I spent s (importStatement d) (Finished s) := by
  unfold importStatement
  refine .bind_next ((proceeds_take hne false).bind fun _ t ht => ?_)
  refine Proceeds.mono (P := Ended t) ?_ fun _ _ hu => hu.finished ht
  have hw₁ := hw.passes ht
  have hnames (path : Value) (loc : Location) {u : EvalState} (hu : t.reading.Reaches u.reading) :
      Proceeds I spent u (importNames d path loc) (Ended t) :=
    (proceeds_importNames hd path loc).mono fun _ _ hv => hv.after hu
  refine .bind_next (.ite (fun _ => ?_) fun _ => ?_)
  · refine (proceeds_advance true).bind fun _ u hu => .bind_nextIs fun _ _ => ?_
    have htu : t.reading.Reaches u.reading := .inr hu
    refine .ite (fun _ => ?_) fun _ => .bind_heap (.bind_reading ?_)
    · refine (proceeds_checkNewName _ _ _).bind fun _ v hv => ?_
      refine (proceeds_advance true).bind fun _ w hw => ?_
      have htw : t.reading.Reaches w.reading := htu.trans ((Reading.Reaches.of_eq hv).trans (.inr hw))
      refine (proceeds_expression hd hw.sharp (hw₁.reaches htw)).bind fun path x hx => ?_
      refine (proceeds_loadImport hd path _).bind fun dit y hy => ?_
      refine (proceeds_bindName hd.upheld _ _ _ _).bind fun _ z hz => ?_
      exact proceeds_endFrom (htw.trans (hx.reaches.trans (.of_eq (hz.trans hy))))
    · split
      · exact proceeds_undeclared _
      · refine (proceeds_followPath hd _ hu.sharp (hw₁.reaches htu)).bind fun o v hv => ?_
        refine (proceeds_read o).bind fun _ w hvw => ?_
        have htw : t.reading.Reaches w.reading := htu.trans (hv.trans (.of_eq hvw))
        refine (proceeds_continueExpression hd _ (htw.sharp ht.sharp) (hw₁.reaches htw)).bind
          fun path x hx => ?_
        exact hnames path _ (htw.trans hx)
  · exact (proceeds_expression hd ht.sharp hw₁).bind fun path u hu => hnames path _ hu.reaches

/-! ## Statements -/

theorem proceeds_returnStatement (hne : s.reading.next.kind ≠ .eof)
    (hw : s.reading.Fits spent (n + 1)) :
    Proceeds I spent s (returnStatement d) (Finished s) := by
  unfold returnStatement
  refine proceeds_canReturn.bind fun _ t ht => .check (proceeds_failAtNext _) fun _ => ?_
  rw [← ht] at hne hw
  refine Proceeds.mono (P := Finished t) ?_ fun _ _ hu => ⟨ht ▸ hu.1, hu.2⟩
  refine (proceeds_take hne true).bind fun _ u hu => .bind_reading ?_
  refine Proceeds.bind_ite (P := Onward u) (fun _ => .pure (.refl _)) (fun _ => ?_) fun _ v hv => ?_
  · exact (proceeds_expression hd hu.sharp (hw.passes hu)).mono fun _ _ hv => hv.reaches
  · exact (proceeds_endFrom hv).bind fun _ _ hx => .pure (hx.finished hu)

theorem proceeds_throwStatement (hne : s.reading.next.kind ≠ .eof)
    (hw : s.reading.Fits spent (n + 1)) :
    Proceeds I spent s (throwStatement d) (Finished s) := by
  unfold throwStatement
  refine (proceeds_take hne true).bind fun _ t ht => ?_
  refine (proceeds_expression hd ht.sharp (hw.passes ht)).bind fun _ u hu => ?_
  exact (proceeds_endFrom hu.reaches).bind fun _ _ hv => .pure (hv.finished ht)

theorem proceeds_expressionStatement (hs : s.reading.Sharp) (hw : s.reading.Fits spent n) :
    Proceeds I spent s (expressionStatement d) (Finished s) := by
  unfold expressionStatement
  refine (proceeds_expression hd hs hw).bind fun v t ht => ?_
  refine (proceeds_keepValue v).bind fun _ u hu => ?_
  exact (proceeds_endFrom hu).mono fun _ _ hv => hv.finished ht

theorem proceeds_typedStatement (hs : s.reading.Sharp) (hw : s.reading.Fits spent n) :
    Proceeds I spent s (parseType d >>= declarationRest d) (Finished s) :=
  (proceeds_parseType hd hs hw).bind fun declared _ ht =>
    (proceeds_declarationRest hd declared (hw.reaches ht.reaches)).mono fun _ _ hu => hu.finished ht

theorem proceeds_plainStatement (hs : s.reading.Sharp) (hw : s.reading.Fits spent n) :
    Proceeds I spent s (plainStatement d s.reading.next) (Complete s) := by
  have hother {x : Eval Unit} (hkind : ¬ s.reading.next.Defines)
      (hx : Proceeds I spent s x (Finished s)) : Proceeds I spent s x (Complete s) :=
    hx.mono fun _ _ ht => .of_other hkind ht
  unfold plainStatement
  split
  · rename_i hkind
    exact hother (by simp [Token.Defines, hkind]) (proceeds_typedStatement hd hs hw)
  · rename_i hkind
    exact hother (by simp [Token.Defines, hkind]) (proceeds_typedStatement hd hs hw)
  · rename_i hkind
    exact hother (by simp [Token.Defines, hkind])
      (proceeds_valueStatement hd (by simp [hkind]) hw.succ)
  · rename_i hkind
    refine (proceeds_classDefinition hd true (by simp [hkind]) hw.succ).bind fun _ t ht => .pure ?_
    exact .of_definition (.inl hkind) ht
  · rename_i hkind
    refine (proceeds_funcDefinition hd true (by simp [hkind]) hw.succ).bind fun _ t ht => .pure ?_
    exact .of_definition (.inr (.inl hkind)) ht
  · rename_i hkind
    refine (proceeds_langDefinition hd (by simp [hkind])).mono fun _ t ht => ?_
    exact .of_definition (.inr (.inr hkind)) ht
  · rename_i hkind
    exact hother (by simp [Token.Defines, hkind])
      (proceeds_importStatement hd (by simp [hkind]) hw.succ)
  · exact proceeds_undeclared _
  · rename_i hclass hfunc hlang _ _
    refine .bind_reading (.ite (fun _ => ?_) fun _ => ?_)
    · refine hother ?_ (proceeds_expressionStatement hd hs hw)
      rintro (hkind | hkind | hkind)
      · exact hclass hkind
      · exact hfunc hkind
      · exact hlang hkind
    · split
      · exact proceeds_malformedAt _ _
      · exact proceeds_malformedAt _ _

theorem proceeds_statement (hs : s.reading.Sharp) (hw : s.reading.Fits spent n) :
    Proceeds I spent s (statement d) (Complete s) := by
  unfold statement
  refine .bind_next ?_
  split
  · rename_i hkind
    refine (proceeds_returnStatement hd (by simp [hkind]) hw.succ).mono fun _ t ht => ?_
    exact .of_other (by simp [Token.Defines, hkind]) ht
  · rename_i hkind
    refine (proceeds_throwStatement hd (by simp [hkind]) hw.succ).mono fun _ t ht => ?_
    exact .of_other (by simp [Token.Defines, hkind]) ht
  · exact (proceeds_plainStatement hd hs hw).bind fun _ _ ht => .pure ht

/-- What goes on was a `;` alone, or a statement. -/
theorem proceeds_statementHere (hs : s.reading.Sharp) (hw : s.reading.Fits spent n) :
    Proceeds I spent s (statementHere d) fun r t => r.elim
      (fun _ => s.reading.next.kind ≠ .eof ∧ (t = s ∨ s.reading.Passes t.reading)) fun _ => True := by
  unfold statementHere
  refine .bind_next ?_
  split
  · exact .pure trivial
  · rename_i hkind
    exact .pure ⟨by simp [hkind], .inl rfl⟩
  · refine (proceeds_statement hd hs hw).bind fun signal t ht => ?_
    split
    · exact .pure ⟨ht.next_ne, .inr ht.toPasses⟩
    · exact .pure trivial

theorem proceeds_statementStep (hw : ¬ spent → s.reading.feed.rest.length < n) :
    Proceeds I spent s (statementStep d ()) fun r t => r.elim
      (fun _ => s.reading.StepsOn t.reading) fun _ => True := by
  refine (proceeds_advance true).bind fun _ t ht => ?_
  have hwt : t.reading.Fits spent n := fun hspent => Nat.lt_of_le_of_lt ht.left_le (hw hspent)
  refine (proceeds_statementHere hd ht.sharp hwt).mono fun r u hr => ?_
  cases r with
  | inl =>
    obtain ⟨hne, rfl | hpast⟩ := hr
    · exact ⟨_, ht, hne, .refl _⟩
    · exact ⟨t.reading, ht, hne, hpast.reaches⟩
  | inr signal => trivial

/-- Running statements ends, since every round of it takes bytes. -/
theorem proceeds_statements (hw : ¬ spent → s.reading.feed.rest.length < n) :
    Proceeds I spent s (statements d) fun _ _ => True := by
  rw [statements_eq]
  refine proceeds_repeatUpTo
    (J := fun _ t => t.reading.feed.rest.length ≤ s.reading.feed.rest.length)
    (m := fun t => t.reading.feed.rest.length) ?_ _ _ _ (Nat.le_refl _) fun _ => by omega
  intro _ t ht
  refine (proceeds_statementStep hd fun hspent => Nat.lt_of_le_of_lt ht (hw hspent)).mono
    fun r u hr => ?_
  cases r with
  | inl => exact ⟨(Nat.le_of_lt hr.rest_lt).trans ht, fun _ => hr.rest_lt⟩
  | inr signal => trivial

/-! ## Bodies -/

/-- A body is read from its start, and the reading around it is as it was afterwards. -/
theorem proceeds_runBody {body : ContainerId} (hbody : I body s.session.heap) {path : String}
    {view : View} {fragment : Bool} (hw : ¬ spent → view.bytes.length < n) :
    Proceeds I spent s (runBody d body path view fragment) (Still s) := by
  intro _
  have hl := proceeds_statements (s := s.enter body path view fragment) hd hw hbody
  unfold runBody
  revert hl
  cases statements d (s.enter body path view fragment) with
  | done signal t => exact fun hl => ⟨rfl, hl.2.1, rfl⟩
  | failed e t => exact id
  | outOfFuel => exact id

end

/-! ## Every depth -/

/-- Where the fuel may run out, functions can be called as bodies can be run. -/
theorem answering (hd : d.Proceeding I True n) : d.Answering I True n :=
  ⟨hd, fun _ => proceeds_callFunction hd trivial⟩

theorem deeper_proceeding (hI : Heap.Upheld I) (rounds fuel : Nat) :
    Deeper.Proceeding I True fuel ⟨rounds, termAt fuel, bodyAt fuel⟩ := by
  induction fuel generalizing rounds with
  | zero => exact ⟨hI, fun _ _ _ _ => trivial, fun _ _ _ _ _ _ _ => trivial⟩
  | succ fuel ih =>
    have hd := answering (ih fuel)
    refine ⟨hI, fun s _ _ => proceeds_term hd fun h => absurd trivial h, ?_⟩
    intro s c path view fragment hc
    exact (proceeds_runBody hd hc fun h => absurd trivial h).mono fun _ _ ht => ⟨ht, trivial⟩

end Eval
end Ditlang
