import Ditlang.Proofs.Agree.Definitions
import Ditlang.Proofs.Eval.Statements

/-!
# Ditlang.Proofs.Agree.Statements

Terms, statements and whole bodies do the same in two runs side by side, and with them the
evaluator at every depth: the rules were shown to agree for any evaluator one level deeper that
does, and `deeper_agrees` closes the circle by induction on the depth. A body inside is the same
whole text for both runs, whatever the source around it goes on with.
-/

namespace Ditlang
namespace Eval

open Source (Location View Feed)

variable {p : Pairing} {h : Heap} {d : Deeper}

/-! ## Terms -/

theorem agrees_listLiteral (hd : d.Agrees) :
    Agrees p h (listLiteral d) (listLiteral d) fun h' v => v.Valid h' := by
  unfold listLiteral
  refine (agrees_advance true).bind_kept fun _ _ _ => ?_
  refine (agrees_expressionsUntil hd _ _).bind ?_
  rintro h' items _ - hitems rfl
  refine (agrees_withHeap (.single (.newList hitems)) fun _ => rfl).bind ?_
  rintro _ l _ - ⟨rfl, rfl⟩ rfl
  refine .done ?_
  simp [Value.Valid, Heap.newList]

theorem agrees_jsonKey : Agrees p h jsonKey jsonKey fun h' _ => h' = h := by
  unfold jsonKey
  refine agrees_next.bind_same fun t u _ htu => ?_
  rw [← htu.kind, ← htu.name?]
  split
  · exact agrees_stringLiteral
  · exact agrees_stringLiteral
  · split
    · exact (agrees_advance true).bind_kept fun _ _ _ => .done rfl
    · exact agrees_malformedAt _ _ _

theorem agrees_jsonLiteral (hd : d.Agrees) :
    Agrees p h (jsonLiteral d) (jsonLiteral d) fun h' v => v.Valid h' := by
  unfold jsonLiteral
  refine (agrees_advance true).bind_kept fun _ _ _ => ?_
  refine Agrees.bind (P := fun h' (m : OrderedMap Value) => m.All (Value.Valid h')) ?_ ?_
  · refine agrees_repeatTokens (I := fun h' (m : OrderedMap Value) => m.All (Value.Valid h')) ?_
      (.empty _)
    intro h' entries _ hentries
    refine (agrees_nextIsPunct _).bind_kept ?_
    rintro b - rfl
    refine .ite (fun _ => ?_) fun _ => ?_
    · exact (agrees_advance true).bind_kept fun _ _ _ => .done hentries
    · refine agrees_jsonKey.bind_kept ?_
      rintro key - rfl
      refine (agrees_nextIsPunct _).bind_kept ?_
      rintro colon - rfl
      refine .when (agrees_failAfterCurr _) fun _ => ?_
      refine (agrees_advance true).bind_kept fun _ _ _ => ?_
      refine (agrees_expression hd).bind ?_
      rintro h'' v _ hh'' hv rfl
      refine agrees_separator _ _ fun _ => .done ?_
      exact (hentries.imp fun _ => .mono hh''.grows).insert key hv
  · rintro h' entries _ - hentries rfl
    refine (agrees_withHeap (.single (.newMap hentries)) fun _ => rfl).bind ?_
    rintro _ m _ - ⟨rfl, rfl⟩ rfl
    refine .done ?_
    simp [Value.Valid, Heap.newMap]

theorem agrees_readPath (hd : d.Agrees) {v : Value} (hv : v.Valid h) :
    Agrees p h (followPath d (.value v) >>= read) (followPath d (.value v) >>= read)
      fun h' v => v.Valid h' := by
  have hvalue : (Operand.value v).Valid h := hv
  refine (agrees_followPath hd hvalue).bind ?_
  rintro h' o _ - ho rfl
  refine (agrees_read ho).mono ?_
  rintro _ v - ⟨rfl, hv⟩
  exact hv

theorem agrees_anonymousTail (hd : d.Agrees) {v : Value} (hv : v.Valid h) :
    Agrees p h (anonymousTail d v) (anonymousTail d v) fun h' v => v.Valid h' := by
  unfold anonymousTail
  exact (agrees_advance true).bind_kept fun _ _ _ => agrees_readPath hd hv

theorem agrees_term (hd : d.Agrees) : Agrees p h (term d) (term d) fun h' v => v.Valid h' := by
  unfold term
  refine agrees_next.bind_same fun t u _ htu => ?_
  rw [← htu.kind]
  split
  · refine agrees_stringLiteral.bind_kept ?_
    rintro text - rfl
    exact .done trivial
  · refine agrees_stringLiteral.bind_kept ?_
    rintro text - rfl
    exact .done trivial
  · rw [advance_bind_curr]
    refine agrees_next.bind_same fun t u _ htu => ?_
    refine (agrees_advance true).bind_kept fun _ _ _ => ?_
    rw [← htu.payload]
    split
    · exact .done trivial
    · exact agrees_raise rfl
  · exact (agrees_advance true).bind_kept fun _ _ _ => .done trivial
  · exact (agrees_advance true).bind_kept fun _ _ _ => .done trivial
  · exact (agrees_advance true).bind_kept fun _ _ _ => .done trivial
  · exact agrees_listLiteral hd
  · exact agrees_jsonLiteral hd
  · refine (agrees_classDefinition hd false).bind ?_
    rintro _ v _ - hv rfl
    exact agrees_anonymousTail hd hv
  · refine (agrees_funcDefinition hd false).bind ?_
    rintro _ v _ - hv rfl
    exact agrees_anonymousTail hd hv
  · refine (agrees_advance true).bind_kept fun _ _ _ => ?_
    refine (hd.term p h).bind ?_
    rintro _ path _ - - rfl
    refine (agrees_loadImport hd path _ _).bind ?_
    rintro h' dit _ - hdit rfl
    have hv : (Value.ditRef dit).Valid h' := hdit
    exact agrees_readPath hd hv
  · exact agrees_readOperand hd
  · exact agrees_undeclared htu
  · exact agrees_malformedAt _ _ _

/-! ## Declarations and assignments -/

theorem agrees_declarationOwner (base : Value) (word : String) (loc loc' : Location) :
    Agrees p h (declarationOwner base word loc) (declarationOwner base word loc')
      fun h' _ => h' = h := by
  unfold declarationOwner
  split
  · exact .done rfl
  · exact agrees_malformedAt _ _ _

theorem agrees_declarationTarget (hd : d.Agrees) :
    Agrees p h (declarationTarget d) (declarationTarget d) fun _ _ => True := by
  unfold declarationTarget
  refine agrees_next.bind_same fun t u ht htu => ?_
  rw [← htu.name?, ← htu.slot?]
  split
  · exact agrees_malformedAt _ _ _
  · refine (agrees_advance true).bind_kept fun _ _ _ => ?_
    refine (agrees_nextIsPunct _).bind_kept ?_
    rintro dot - rfl
    refine .ite (fun _ => ?_) fun _ => ?_
    · split
      · exact agrees_malformedAt _ _ _
      · rename_i s hs
        refine .of_reachable fun hr => .bind_heap fun k hk => ?_
        rw [← hk.eq (f := (·.value s)) fun _ => rfl]
        refine agrees_repeatTokens (I := fun h' (v : Value) => v.Valid h') ?_
          (hr.closed.slot s).value
        intro h' base _ hbase
        refine agrees_memberName.bind_kept ?_
        rintro word - rfl
        refine (agrees_nextIsPunct _).bind_kept ?_
        rintro dot - rfl
        refine .ite (fun _ => ?_) fun _ => ?_
        · refine (agrees_containerMember hd hbase qualifierValid_none word).bind ?_
          rintro h'' o _ - ho rfl
          refine (agrees_read ho).bind_same ?_
          rintro v _ hv rfl
          exact .done hv
        · refine .bind_curr fun t u _ => ?_
          refine (agrees_declarationOwner _ _ _ _).bind_kept ?_
          rintro owner - rfl
          exact .done trivial
    · refine agrees_reading.bind_same fun r q _ hrq => ?_
      rw [← hrq.body]
      exact .done trivial

theorem agrees_end : Agrees p h expectTerminal expectTerminal fun _ _ => True :=
  agrees_expectTerminal.mono fun _ _ _ _ => trivial

theorem agrees_declarationRest (hd : d.Agrees) {declared : Declared} (hdecl : declared.Valid h) :
    Agrees p h (declarationRest d declared) (declarationRest d declared) fun _ _ => True := by
  unfold declarationRest
  refine agrees_next.bind_same fun t u _ _ => ?_
  refine (agrees_declarationTarget hd).bind ?_
  rintro h₁ ⟨owner, name⟩ _ hh₁ - rfl
  refine (agrees_declareIn owner name (hdecl.mono hh₁.grows) _ _).bind ?_
  rintro h₂ s _ - hs rfl
  refine (agrees_nextIsPunct _).bind_kept ?_
  rintro b - rfl
  refine .ite (fun _ => ?_) fun _ => agrees_end
  refine (agrees_advance true).bind_kept fun _ _ _ => ?_
  refine (agrees_expression hd).bind ?_
  rintro h₃ v _ hh₃ hv rfl
  exact (agrees_assignSlot (Heap.HasSlot.mono hh₃.grows hs) hv).bind fun _ _ _ _ _ _ => agrees_end

theorem agrees_keepValue {v : Value} (hv : v.Valid h) :
    Agrees p h (keepValue v) (keepValue v) fun h' _ => h' = h := by
  refine ⟨(obeys_keepValue hv).runs.lands, fun s t _ _ hst => ?_, ?_⟩
  · refine .inr ⟨(), _, rfl, rfl, hst.session, hst.main, hst.mainPath, hst.body, hst.path, ?_,
      hst.feed, hst.rest, fun _ => rfl, hst.program⟩
    exact ⟨hst.reading.body, hst.reading.path, hst.reading.fragment, hst.reading.next⟩
  · rintro s - - hs a t ⟨⟩
    exact ⟨hs.more, hs.program, hs.next, hs.rest⟩

theorem agrees_valueStatement (hd : d.Agrees) :
    Agrees p h (valueStatement d) (valueStatement d) fun _ _ => True := by
  unfold valueStatement
  refine (agrees_operand hd).bind ?_
  rintro h₁ o _ - ho rfl
  refine agrees_next.bind_same fun t u _ htu => ?_
  rw [← htu.kind]
  -- A class before a name is a type; nothing has changed since it was read.
  refine Agrees.bind_ite (P := fun g cls => g = h₁ ∧ ∀ c, cls = some c → h₁.IsKind .cls c) ?_ ?_ ?_
  · refine (agrees_read ho).bind_same ?_
    rintro v _ hv rfl
    split
    · refine .done ⟨rfl, ?_⟩
      rintro _ ⟨⟩
      exact hv
    · exact .done ⟨rfl, fun _ hc => nomatch hc⟩
  · exact .done ⟨rfl, fun _ hc => nomatch hc⟩
  · rintro g cls _ - ⟨hg, hcls⟩ rfl
    subst g
    dsimp only
    split
    · rename_i c
      have hty : (Declared.scalar (.of c)).Valid h₁ := hcls c rfl
      exact agrees_declarationRest hd hty
    · refine (agrees_nextIsPunct _).bind_kept ?_
      rintro b - rfl
      refine .ite (fun _ => ?_) fun _ => ?_
      · refine (agrees_advance true).bind_kept fun _ _ _ => ?_
        refine (agrees_expression hd).bind ?_
        rintro h₂ v _ hh₂ hv rfl
        exact (agrees_store (ho.mono hh₂.grows) hv).bind fun _ _ _ _ _ _ => agrees_end
      · refine (agrees_read ho).bind_same ?_
        rintro v _ hv rfl
        refine (agrees_continueExpression hd hv).bind ?_
        rintro h₂ w _ - hw rfl
        exact (agrees_keepValue hw).bind_kept fun _ _ _ => agrees_end

/-! ## Imports -/

theorem agrees_expose (dit : ContainerId) (loc loc' : Location) :
    Agrees p h (expose dit loc) (expose dit loc') fun _ _ => True := by
  unfold expose
  refine .of_reachable fun hr => agrees_reading.bind_same fun r q _ hrq => ?_
  dsimp only
  rw [← hrq.body]
  refine .bind_heap fun k hk => ?_
  rw [← hk.eq (f := fun h => (h.container dit).attrs) fun h => by simp]
  refine (agrees_forIn (I := fun _ => True) _ ?_ trivial _).bind fun _ _ _ _ _ _ => .done trivial
  rintro h₁ ⟨name, s⟩ - hh₁ hmem -
  have hs : h₁.HasSlot s := ((hr.closed.container dit).attrs _ hmem).mono hh₁.grows
  dsimp only
  refine .bind_heap fun k₁ hk₁ => ?_
  have hsame := hk₁.map (f := (·.insertAlias r.body name s))
    fun h => h.insertAlias_unplaced p.main r.body name s
  refine .bind_ofHeapAt _ hsame (fun h₂ k₂ hok hk₂ => ?_) loc loc'
  exact (agrees_setHeap (.single (.insertAlias hs hok)) hk₂).bind
    fun _ _ _ _ _ _ => .done ⟨trivial, _, rfl⟩

theorem agrees_importNames (hd : d.Agrees) (path : Value) (loc loc' : Location) :
    Agrees p h (importNames d path loc) (importNames d path loc') fun _ _ => True := by
  unfold importNames
  refine (agrees_loadImport hd path loc loc').bind ?_
  rintro _ dit _ - - rfl
  exact (agrees_expose dit loc loc').bind fun _ _ _ _ _ _ => agrees_end

theorem agrees_importStatement (hd : d.Agrees) :
    Agrees p h (importStatement d) (importStatement d) fun _ _ => True := by
  unfold importStatement
  refine agrees_next.bind_same fun t₀ u₀ _ _ => ?_
  refine (agrees_advance false).bind_kept fun _ _ _ => ?_
  refine agrees_next.bind_same fun t u _ htu => ?_
  rw [← htu.kind, ← htu.word]
  refine .ite (fun _ => ?_) fun _ => ?_
  · refine (agrees_advance true).bind_kept fun _ _ _ => ?_
    refine (agrees_nextIs _).bind_kept ?_
    rintro b - rfl
    refine .ite (fun _ => ?_) fun _ => ?_
    · refine (agrees_checkNewName _ _ _ _).bind_kept fun _ _ _ => ?_
      refine (agrees_advance true).bind_kept fun _ _ _ => ?_
      refine (agrees_expression hd).bind ?_
      rintro _ path _ - - rfl
      refine (agrees_loadImport hd path _ _).bind ?_
      rintro h₁ dit _ - hdit rfl
      have hv : (Value.ditRef dit).Valid h₁ := hdit
      exact (agrees_bindName _ .dit trivial hv _ _).bind fun _ _ _ _ _ _ => agrees_end
    · refine .of_reachable fun hr => .bind_heap fun k hk => ?_
      refine agrees_reading.bind_same fun r q _ hrq => ?_
      rw [← hrq.body,
        ← hk.eq (f := (·.findInScope? r.body t.word)) fun h => h.findInScope?_unplaced p.main _ _]
      split
      · exact agrees_undeclared htu
      · rename_i s hs
        have hslot : (Operand.slot s).Valid h := hr.closed.hasSlot_findWithin? hs
        refine (agrees_followPath hd hslot).bind ?_
        rintro h₁ o _ - ho rfl
        refine (agrees_read ho).bind_same ?_
        rintro v _ hv rfl
        refine (agrees_continueExpression hd hv).bind ?_
        rintro _ path _ - - rfl
        exact agrees_importNames hd path _ _
  · refine (agrees_expression hd).bind ?_
    rintro _ path _ - - rfl
    exact agrees_importNames hd path _ _

/-! ## Statements -/

theorem agrees_canReturn : Agrees p h canReturn canReturn fun h' _ => h' = h := by
  unfold canReturn
  refine agrees_reading.bind_same fun r q _ hrq => .bind_heap fun k hk => ?_
  rw [← hrq.body, ← hrq.fragment, ← hk.kind]
  split
  · exact .done rfl
  · exact .done rfl

theorem agrees_returnStatement (hd : d.Agrees) :
    Agrees p h (returnStatement d) (returnStatement d) fun h' signal => signal.Valid h' := by
  unfold returnStatement
  refine agrees_canReturn.bind_kept ?_
  rintro b - rfl
  refine .when (agrees_failAtNext _) fun _ => ?_
  refine (agrees_advance true).bind_kept fun _ _ _ => ?_
  refine agrees_reading.bind_same fun r q _ hrq => ?_
  rw [← hrq.next.kind, ← hrq.fragment]
  refine Agrees.bind_ite (P := fun g (v : Value) => v.Valid g) (.done trivial)
    (agrees_expression hd) ?_
  rintro h' v _ - hv rfl
  exact agrees_expectTerminal.bind_kept fun _ _ _ => .done hv

theorem agrees_throwStatement (hd : d.Agrees) :
    Agrees p h (throwStatement d) (throwStatement d) fun h' signal => signal.Valid h' := by
  unfold throwStatement
  refine (agrees_advance true).bind_kept fun _ _ _ => ?_
  refine (agrees_expression hd).bind ?_
  rintro h' v _ - hv rfl
  exact agrees_expectTerminal.bind_kept fun _ _ _ => .done hv

theorem agrees_expressionStatement (hd : d.Agrees) :
    Agrees p h (expressionStatement d) (expressionStatement d) fun _ _ => True := by
  unfold expressionStatement
  refine (agrees_expression hd).bind ?_
  rintro h' v _ - hv rfl
  exact (agrees_keepValue hv).bind_kept fun _ _ _ => agrees_end

theorem agrees_discard {α : Type} [Likeness α] {x y : Eval α} {P : Heap → α → Prop}
    (hx : Agrees p h x y P) : Agrees p h (discard x) (discard y) fun _ _ => True :=
  hx.bind fun _ _ _ _ _ _ => .done trivial

theorem agrees_plainStatement (hd : d.Agrees) {t u : Token} (htu : t.Alike u) :
    Agrees p h (plainStatement d t) (plainStatement d u) fun _ _ => True := by
  unfold plainStatement
  rw [← htu.kind]
  split
  · refine (agrees_parseType hd).bind ?_
    rintro _ ty _ - hty rfl
    exact agrees_declarationRest hd hty
  · refine (agrees_parseType hd).bind ?_
    rintro _ ty _ - hty rfl
    exact agrees_declarationRest hd hty
  · exact agrees_valueStatement hd
  · exact agrees_discard (agrees_classDefinition hd true)
  · exact agrees_discard (agrees_funcDefinition hd true)
  · exact agrees_langDefinition hd
  · exact agrees_importStatement hd
  · exact agrees_undeclared htu
  · refine agrees_reading.bind_same fun r q _ hrq => ?_
    rw [← hrq.fragment]
    refine .ite (fun _ => agrees_expressionStatement hd) fun _ => ?_
    split
    · exact agrees_malformedAt _ _ _
    · exact agrees_malformedAt _ _ _

theorem agrees_statement (hd : d.Agrees) :
    Agrees p h (statement d) (statement d) fun h' signal => signal.Valid h' := by
  unfold statement
  refine agrees_next.bind_same fun t u _ htu => ?_
  rw [← htu.kind]
  split
  · exact agrees_returnStatement hd
  · exact agrees_throwStatement hd
  · exact (agrees_plainStatement hd htu).bind fun _ _ _ _ _ _ => .done trivial

/-- Goes through the statement whose first token is ahead, if there is one. -/
def statementHere (d : Deeper) [Calling d] : Eval (Unit ⊕ Signal) := do
  match (← next).kind with
  | .eof => return .inr .normal
  | .punct .semi => return .inl ()
  | _ =>
    match ← statement d with
    | .normal => return .inl ()
    | signal => return .inr signal

/-- One round of running statements: to the first token of the next one, and through it. -/
def statementStep (d : Deeper) [Calling d] : Unit → Eval (Unit ⊕ Signal) := fun () => do
  advance true
  statementHere d

theorem statements_eq (d : Deeper) [Calling d] : statements d = repeatTokens (statementStep d) () := rfl

abbrev StepPost (h : Heap) (r : Unit ⊕ Signal) : Prop :=
  Rounds (fun _ _ => True) (fun h' signal => signal.Valid h') h r

theorem agrees_statementHere (hd : d.Agrees) :
    Agrees p h (statementHere d) (statementHere d) StepPost := by
  unfold statementHere
  refine agrees_next.bind_same fun t u _ htu => ?_
  rw [← htu.kind]
  split
  · exact .done trivial
  · exact .done trivial
  · refine (agrees_statement hd).bind ?_
    rintro h'' signal _ - hsignal rfl
    split
    · exact .done trivial
    · exact .done hsignal

theorem agrees_statementStep (hd : d.Agrees) :
    Agrees p h (statementStep d ()) (statementStep d ()) StepPost :=
  (agrees_advance true).bind fun _ _ _ _ _ _ => agrees_statementHere hd

theorem agrees_statements (hd : d.Agrees) :
    Agrees p h (statements d) (statements d) fun h' signal => signal.Valid h' := by
  rw [statements_eq]
  exact agrees_repeatTokens (I := fun _ _ => True) (fun _ _ _ _ => agrees_statementStep hd) trivial

/-! ## Bodies -/

theorem Reading.annotate_unplaced (r : Reading) (e : Failure) :
    (r.annotate e).unplaced = e.unplaced.mapDiagnostic (·.annotate r.path .start "") := by
  cases e with
  | io reason => rfl
  | diagnostic d => exact congrArg Failure.diagnostic (d.annotate_unplaced _ _ _)

/-- How the bodies inside two runs are compared: their texts are whole. -/
def Pairing.inside (p : Pairing) (body : ContainerId) (path : String) (v : View) : Pairing :=
  ⟨p.main, p.mainPath, body, path, none, v.bytes.length, true⟩

theorem linked_start {s t : EvalState} (hst : Linked p s t) (body : ContainerId) (path : String)
    {v w : View} (hvw : v.unplaced = w.unplaced) (fragment : Bool) :
    Linked (Pairing.inside p body path v) (s.enter body path v fragment)
      (t.enter body path w fragment) :=
  ⟨hst.session.note _ _, hst.main, hst.mainPath, rfl, rfl, ⟨rfl, rfl, rfl, rfl, rfl⟩, .ofView hvw,
    Nat.le_refl _, fun _ => rfl, fun hmore => absurd rfl hmore⟩

theorem agrees_runBody (hd : d.Agrees) {body : ContainerId} (hb : body.index < h.containers.size)
    (path : String) {v w : View} (hvw : v.unplaced = w.unplaced) (fragment : Bool) :
    Agrees p h (runBody d body path v fragment) (runBody d body path w fragment)
      fun h' r => r.Valid h' := by
  refine ⟨fun s hs hh => ?_, fun s t hs hh hst => ?_, fun s hs hh hlost r t hdone => ?_⟩
  · subst hh
    have hstart : (s.enter body path v fragment).Sound :=
      ⟨hs.session.note _, Reading.valid_start hb path v fragment⟩
    have hl := (agrees_statements (p := Pairing.inside p body path v) hd).lands _ hstart rfl
    unfold runBody
    revert hl
    dsimp only
    cases statements d (s.enter body path v fragment) with
    | done signal u =>
      rintro ⟨hu, hsteps, -, hsignal⟩
      exact ⟨⟨hu.session.note _, hs.reading.mono hsteps.grows⟩, hsteps, trivial, hsignal,
        hu.reading.lastValue⟩
    | failed e u =>
      rintro ⟨hu, hsteps, -⟩
      exact ⟨⟨hu.session.note _, hs.reading.mono hsteps.grows⟩, hsteps, trivial⟩
    | outOfFuel => exact id
  · subst hh
    have hstart : (s.enter body path v fragment).Sound :=
      ⟨hs.session.note _, Reading.valid_start hb path v fragment⟩
    have ha := (agrees_statements (p := Pairing.inside p body path v) hd).agrees _ _ hstart rfl
      (linked_start hst body path hvw fragment)
    unfold runBody
    revert ha
    dsimp only
    cases statements d (s.enter body path v fragment) with
    | done signal u =>
      -- Inside, the text of the body is whole, so the first run is not lost there.
      rintro (hlost | ⟨signal', u', hdone, rfl, huu⟩)
      · exact absurd rfl hlost.more
      · rw [hdone]
        refine .inr ⟨_, _, rfl, ?_, hst.setSession (huu.session.note _ _) (huu.main.trans hst.main.symm)
          (huu.mainPath.trans hst.mainPath.symm)⟩
        exact congrArg (BodyResult.mk signal) (huu.lastValue rfl)
    | failed e u =>
      intro ha _
      obtain ⟨e', u', hfailed, hee, hsession, hmain, hpath⟩ := ha rfl
      rw [hfailed]
      refine ⟨_, _, rfl, ?_, hsession, hmain, hst.reading.path⟩
      rw [Reading.annotate_unplaced, Reading.annotate_unplaced, hee, hpath]
    | outOfFuel =>
      intro ha _
      rw [ha rfl]
  · unfold runBody at hdone
    dsimp only at hdone
    split at hdone
    · cases hdone
      exact hlost.setSession _
    · cases hdone
    · cases hdone

/-- The evaluator does the same in two runs side by side, at every depth. -/
theorem deeper_agrees (rounds fuel : Nat) : Deeper.Agrees ⟨rounds, termAt fuel, bodyAt fuel⟩ := by
  induction fuel generalizing rounds with
  | zero => exact ⟨fun _ _ => agrees_outOfFuel, fun _ _ _ _ _ _ _ _ _ => agrees_outOfFuel⟩
  | succ fuel ih =>
    refine ⟨fun p h => agrees_term (ih fuel), fun p h c path v w fragment hc hvw => ?_⟩
    exact agrees_runBody (ih fuel) hc path hvw fragment

end Eval
end Ditlang
