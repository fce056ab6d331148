import Ditlang.Eval.Calls
import Ditlang.Eval.Operand
import Ditlang.Proofs.Cursor.Proceeds
import Ditlang.Proofs.Session.Signatures

/-!
# Ditlang.Proofs.Cursor.Calls

How going through the tokens of a body goes, and reading and writing what a path leads to. What does not
scan leaves the reading alone (`Still`), and what scans leaves it sharp: it has taken the token that was
ahead (`Past`), or at least not gone back (`Onward`).

Bodies and calls leave the reading of the body around them as it was, whatever they do. What they need
fuel for is not in the text that is read, so that calls are about `spent` fuel; only a body that waits
to be interpreted may also be asked for where no body ends.
-/

namespace Ditlang

open Source (Location View Feed)

namespace Eval

variable {α β : Type}

/-- The reading is as it was. -/
abbrev Still (s : EvalState) (_ : α) (t : EvalState) : Prop := t.reading = s.reading

/-- The token that was ahead has been taken. -/
abbrev Past (s : EvalState) (_ : α) (t : EvalState) : Prop := s.reading.Passes t.reading

/-- The reading has not gone back. -/
abbrev Onward (s : EvalState) (_ : α) (t : EvalState) : Prop := s.reading.Reaches t.reading

variable {I : ContainerId → Heap → Prop} {spent : Prop} {s : EvalState} {P : α → EvalState → Prop}

/-! ## Tokens -/

theorem proceeds_failAtNext (message : String) : Proceeds I spent s (failAtNext message : Eval α) P :=
  .bind_next (proceeds_malformedAt _ _)

theorem proceeds_failAfterCurr (message : String) :
    Proceeds I spent s (failAfterCurr message : Eval α) P :=
  .bind_curr (proceeds_malformedAt _ _)

theorem proceeds_undeclared (t : Token) : Proceeds I spent s (undeclared t : Eval α) P :=
  proceeds_malformedAt _ _

/-- The next token is scanned from where the cursor stands. -/
theorem proceeds_advanceFrom (resolveNames : Bool) :
    Proceeds I spent s (advance resolveNames) fun _ t =>
      s.reading.SameBody t.reading ∧ t.reading.ScannedFrom s.reading.feed := by
  intro _
  unfold advance
  dsimp only
  split
  · rename_i t feed hnext
    exact ⟨rfl, .refl I _, ⟨rfl, rfl, rfl⟩, _, _, hnext⟩
  · exact .refl I _

theorem proceeds_advance (resolveNames : Bool) :
    Proceeds I spent s (advance resolveNames) fun _ t => s.reading.Scans t.reading :=
  (proceeds_advanceFrom resolveNames).mono fun _ _ h => .of_feed h.1 h.2

theorem proceeds_take (hne : s.reading.next.kind ≠ .eof) (resolveNames : Bool) :
    Proceeds I spent s (advance resolveNames) (Past s) :=
  (proceeds_advance resolveNames).mono fun _ _ h => ⟨h, hne⟩

theorem proceeds_scan {f : Feed → Except LexError α × Feed} : Proceeds I spent s (scan f) fun a t =>
    ∃ g, f s.reading.feed = (.ok a, g) ∧ t.reading = { s.reading with feed := g } := by
  intro _
  unfold scan
  split
  · rename_i a feed hf
    exact ⟨rfl, .refl I _, feed, hf, rfl⟩
  · exact .refl I _

theorem proceeds_expectTerminal : Proceeds I spent s expectTerminal fun _ t =>
    t.reading = s.reading ∧ s.reading.AtTerminal := by
  unfold expectTerminal
  refine .bind_reading ?_
  split
  · rename_i hsemi
    exact .pure ⟨rfl, .inl hsemi⟩
  · rename_i heof
    exact .ite (fun hfragment => .pure ⟨rfl, .inr ⟨heof, hfragment⟩⟩) fun _ => proceeds_failAfterCurr _
  · exact proceeds_failAfterCurr _

/-- A body is taken as it stands; then the brace that closes it is ahead. -/
theorem proceeds_captureBody (what : String) : Proceeds I spent s (captureBody what) fun _ t =>
    s.reading.Passes t.reading ∧ s.reading.Closes t.reading := by
  unfold captureBody
  refine .bind_nextIsPunct fun b hb => .ite (fun hopen => ?_) fun _ => proceeds_failAfterCurr _
  have hbrace := hb.1 hopen
  refine proceeds_scan.bind ?_
  rintro view t ⟨g, hcapture, ht⟩
  refine (proceeds_advanceFrom true).bind ?_
  rintro ⟨⟩ u ⟨hbody, hscan⟩
  rw [ht] at hbody hscan
  have hnext := hscan
  obtain ⟨resolver, resolveNames, hnext⟩ := hnext
  obtain ⟨⟨n, rfl⟩, hkind, hloc⟩ := Lexer.next_captureBraces hcapture hnext
  refine .pure ⟨⟨⟨⟨hbody.body, hbody.path, hbody.fragment⟩, n, hscan⟩, ?_⟩, ?_⟩
  · rw [hbrace]
    simp
  · exact ⟨s.reading, view, _, .refl _, hbrace, hcapture, hkind, hloc⟩

theorem proceeds_stringLiteral (hne : s.reading.next.kind ≠ .eof) :
    Proceeds I spent s stringLiteral (Past s) := by
  unfold stringLiteral
  refine .bind_nextIsPunct fun b _ => ?_
  refine proceeds_scan.bind ?_
  rintro text t ⟨g, hstring, ht⟩
  refine (proceeds_advanceFrom true).bind ?_
  rintro ⟨⟩ u ⟨hbody, hscan⟩
  have hquote : s.reading.Scans u.reading := by
    rw [ht] at hbody hscan
    obtain ⟨n, rfl⟩ := Lexer.scanString_ok hstring
    exact ⟨⟨hbody.body, hbody.path, hbody.fragment⟩, n, hscan⟩
  refine (proceeds_advance true).bind fun _ v hv => ?_
  exact .pure ⟨hquote.trans hv, hne⟩

theorem proceeds_bodySource (view : View) (defLoc : Location) :
    Proceeds I spent s (bodySource view defLoc) fun _ t => t.reading = s.reading :=
  .bind_reading (.pure rfl)

theorem proceeds_checkNewName (name : Option String) (what : String) (loc : Location) :
    Proceeds I spent s (checkNewName name what loc) (Still s) := by
  unfold checkNewName
  split
  · exact proceeds_malformedAt _ _
  · exact .bind_heap (.bind_reading (.ite (fun _ => proceeds_malformedAt _ _) fun _ => .pure rfl))

theorem proceeds_render (hspent : spent) (v : Value) : Proceeds I spent s (render v) (Still s) :=
  .bind_heap (proceeds_ofOption hspent fun _ _ => rfl)

/-! ## Names and slots -/

section Upheld

variable (hI : Heap.Upheld I)

include hI

theorem proceeds_setSpared {h : Heap} (hs : s.session.heap.Spares h) :
    Proceeds I spent s (setHeap h) (Still s) :=
  (proceeds_setHeap (hI.spares hs)).mono fun _ _ h => h.1

theorem proceeds_withSpared {f : Heap → α × Heap} (hs : s.session.heap.Spares (f s.session.heap).2) :
    Proceeds I spent s (withHeap f) (Still s) :=
  (proceeds_withHeap (hI.spares hs)).mono fun _ _ h => h.1

theorem proceeds_declareIn (owner : ContainerId) (name : String) (declared : Declared)
    (loc : Location) : Proceeds I spent s (declareIn owner name declared loc) (Still s) := by
  unfold declareIn
  refine .bind_heap (.bind_ofHeapAt fun r hok => ?_)
  exact (proceeds_setSpared hI (Heap.spares_declare hok)).bind fun _ _ ht => .pure ht

theorem proceeds_assignSlot (slot : SlotId) (v : Value) :
    Proceeds I spent s (assignSlot slot v) (Still s) :=
  .bind_heap (.bind_ofHeap fun _ hok =>
    proceeds_setSpared hI ((Heap.spares_assign hok).trans (Heap.spares_warmAll _)))

theorem proceeds_bindName (name : String) (ty : TypeSpec) (v : Value) (loc : Location) :
    Proceeds I spent s (bindName name ty v loc) (Still s) := by
  unfold bindName
  refine .bind_reading ((proceeds_declareIn hI _ _ _ _).bind fun _ t ht => ?_)
  exact (proceeds_assignSlot hI _ _).mono fun _ _ hu => hu.trans ht

/-! ## Operands -/

omit hI in
theorem proceeds_read (o : Operand) : Proceeds I spent s (read o) (Still s) := by
  unfold read
  refine .bind_heap ?_
  split
  · exact .pure rfl
  · exact .bind_curr (proceeds_malformedAt _ _)

theorem proceeds_rootMap (root : JsonRoot) : Proceeds I spent s (rootMap root) (Still s) := by
  unfold rootMap
  split
  · exact .pure rfl
  · refine .bind_heap ?_
    split
    · exact .pure rfl
    · refine (proceeds_withSpared hI (.of_containers rfl)).bind fun m t ht => ?_
      exact (proceeds_assignSlot hI _ _).bind fun _ u hu => .pure (hu.trans ht)

theorem proceeds_store (o : Operand) (v : Value) : Proceeds I spent s (store o v) (Still s) := by
  unfold store
  split
  · exact proceeds_assignSlot hI _ _
  · exact proceeds_assignSlot hI _ _
  · refine (proceeds_withSpared hI (Heap.spares_materialize _ _ _)).bind fun _ t ht => ?_
    exact (proceeds_assignSlot hI _ _).mono fun _ _ hu => hu.trans ht
  · refine (proceeds_rootMap hI _).bind fun m t ht => ?_
    split
    · exact proceeds_raise _
    · refine .bind_heap ?_
      split
      · rename_i hok
        exact (proceeds_setSpared hI (.of_containers (Heap.containers_storeKeys hok))).mono
          fun _ _ hu => hu.trans ht
      · exact proceeds_raise _
  · exact .bind_curr (proceeds_malformedAt _ _)
  · exact .bind_curr (proceeds_malformedAt _ _)

end Upheld

end Eval

/-- The evaluator one level deeper: a term takes tokens, if it is not nested too deeply for it, and a
body leaves the reading alone. -/
structure Deeper.Proceeding (I : ContainerId → Heap → Prop) (spent : Prop) (n : Nat) (d : Deeper) :
    Prop where
  upheld : Heap.Upheld I
  term : ∀ s : EvalState, s.reading.Sharp → s.reading.Fits spent n →
    Eval.Proceeds I spent s d.term (Eval.Past s)
  body : ∀ (s : EvalState) c path view fragment, I c s.session.heap →
    Eval.Proceeds I spent s (d.body c path view fragment) fun _ t => t.reading = s.reading ∧ spent

/-- Calls leave the reading alone, too. -/
structure Deeper.Answering (I : ContainerId → Heap → Prop) (spent : Prop) (n : Nat) (d : Deeper)
    [Eval.Calling d] : Prop extends d.Proceeding I spent n where
  call : ∀ (s : EvalState) func args,
    Eval.Proceeds I spent s (Eval.Calling.call d func args) (Eval.Still s)

namespace Eval

variable {α β : Type} {I : ContainerId → Heap → Prop} {spent : Prop} {s : EvalState}
  {P : α → EvalState → Prop} {d : Deeper} {n : Nat}

theorem proceeds_uncaught (hspent : spent) (v : Value) : Proceeds I spent s (uncaught v : Eval α) P :=
  (proceeds_render hspent v).bind fun _ _ _ => proceeds_raise _

/-! ## Bodies that wait -/

section Bodies

variable (hd : d.Proceeding I spent n)

include hd

/-- A body that waits is interpreted in its own container. -/
theorem proceeds_interpret (c : ContainerId) : Proceeds I spent s (interpret d c) (Still s) := by
  unfold interpret
  refine .of_here fun hi => .bind_heap ?_
  split
  · exact .pure rfl
  · rename_i b hwaiting
    have hbody : (s.session.heap.container c).body ≠ none := by
      intro hnone
      rw [waitingBody?, hnone] at hwaiting
      cases hwaiting
    have hc := hd.upheld.waiting hi hbody
    refine (proceeds_setHeap ?_).bind_keeps hc fun _ t ht hct => ?_
    · exact hd.upheld.describe hc fun _ => .inl rfl
    refine (proceeds_mapFailure (hd.body t c b.path b.view false hct)).bind ?_
    rintro result u ⟨hu, hspent⟩
    split
    · exact proceeds_uncaught hspent _
    · exact .pure (hu.trans ht.1)

theorem proceeds_ensureReady (c : ContainerId) : Proceeds I spent s (ensureReady d c) (Still s) :=
  (proceeds_interpret hd c).bind fun _ _ ht => (proceeds_note _).mono fun _ _ hu => hu.trans ht

end Bodies

/-! ## Calls -/

theorem proceeds_builtin (hI : Heap.Upheld I) (hspent : spent) (b : Builtin) (args : List Value) :
    Proceeds I spent s (builtin b args) (Still s) := by
  unfold builtin
  split
  · refine (proceeds_render hspent _).bind fun line t ht => ?_
    exact (proceeds_modifySession rfl).bind fun _ u hu => .pure (hu.trans ht)
  · exact (proceeds_render hspent _).bind fun _ _ ht => .pure ht
  · refine .bind_heap (.bind_ofHeap fun h hok => ?_)
    refine (proceeds_setSpared hI ?_).bind fun _ _ ht => .pure ht
    exact (Heap.spares_append hok).trans (Heap.spares_warmAll _)
  · exact proceeds_raise _
  · exact proceeds_raise _
  · dsimp only
    split
    · exact .pure rfl
    · exact .bind_heap (.pure rfl)
    · exact .bind_heap (.pure rfl)
    · exact .bind_heap (proceeds_raise _)
    · exact .pure rfl

theorem proceeds_bodyOf (c : ContainerId) : Proceeds I spent s (bodyOf c) (Still s) := by
  refine .bind_heap ?_
  split
  · exact .pure rfl
  · exact proceeds_raise _

theorem proceeds_claimFileName (fileOf : String → String) (base : String) :
    Proceeds I spent s (claimFileName fileOf base) (Still s) :=
  .bind_session ((proceeds_modifySession rfl).bind fun _ _ ht => .pure ht)

theorem proceeds_writeGuestFile (name contents : String) :
    Proceeds I spent s (writeGuestFile name contents) (Still s) := by
  refine .bind_session ((proceeds_modifySession rfl).bind fun _ t ht => ?_)
  split
  · exact .pure ht
  · exact proceeds_fail _

/-- A function that is called keeps its kind when its file is kept. -/
theorem proceeds_guestFile (hI : Heap.Upheld I) {func : ContainerId} (hfunc : I func s.session.heap)
    (data : FuncData) (lang : ContainerId) :
    Proceeds I spent s (guestFile func data lang) (Still s) := by
  unfold guestFile
  split
  · exact .pure rfl
  · refine (proceeds_bodyOf func).bind_keeps hfunc fun b t ht hfunc => ?_
    refine .bind_heap (.bind_ofHeap fun _ _ => ?_)
    refine (proceeds_note _).bind_keeps hfunc fun _ t₁ ht₁ hfunc => ?_
    refine .bind_ofDiagnostic fun _ _ => ?_
    refine (proceeds_claimFileName _ _).bind_keeps hfunc fun name t₂ ht₂ hfunc => ?_
    refine (proceeds_writeGuestFile _ _).bind_keeps hfunc fun path t₃ ht₃ hfunc => .bind_heap ?_
    refine (proceeds_setHeap (hI.describe hfunc fun _ => .inr ⟨_, rfl⟩)).bind fun _ t₄ ht₄ => ?_
    exact .pure (ht₄.1.trans (ht₃.trans (ht₂.trans (ht₁.trans ht))))

theorem proceeds_runJob (hspent : spent) (spec : Guest.LaunchSpec) (job : Guest.Job) :
    Proceeds I spent s (runJob spec job) (Still s) := by
  intro _
  rw [runJob_apply]
  cases hr : s.session.runJob spec job with
  | none => exact hspent
  | some r =>
    obtain ⟨result, s'⟩ := r
    have hheap := Session.heap_runJob hr
    have hc : s.session.heap.Carries I s'.heap := hheap ▸ .refl I _
    cases result with
    | ok j => exact ⟨rfl, hc, rfl⟩
    | error e => exact hc

section Calls

variable (hd : d.Proceeding I spent n)

include hd

theorem proceeds_callback {frame : ContainerId} (hframe : I frame s.session.heap) (code : String) :
    Proceeds I spent s (callback d frame code) (Still s) := by
  refine .bind_heap ((hd.body s frame _ _ _ hframe).bind ?_)
  rintro result t ⟨ht, hspent⟩
  split
  · exact .pure ht
  · exact proceeds_uncaught hspent _
  · exact .pure ht

theorem proceeds_converse (hspent : spent) {frame : ContainerId} (hframe : I frame s.session.heap)
    (spec : Guest.LaunchSpec) (func : String) (job : Guest.Job) :
    Proceeds I spent s (converse d frame spec func job) (Still s) := by
  refine proceeds_repeatUpTo (J := fun _ t => t.reading = s.reading ∧ I frame t.session.heap)
    (m := fun _ => 0) ?_ _ _ _ ⟨rfl, hframe⟩ fun h => absurd hspent h
  rintro job t ⟨ht, hframe⟩
  unfold converseStep
  refine (proceeds_runJob hspent spec job).bind_keeps hframe fun finished u hu hframe => ?_
  split
  · refine (proceeds_withSpared hd.upheld (.of_containers (Heap.containers_ofJson _ _))).bind
      fun v w hw => ?_
    exact .pure (hw.trans (hu.trans ht))
  · refine (proceeds_callback hd hframe _).bind_keeps hframe fun v w hw hframe => .bind_heap ?_
    refine Proceeds.bind (P := fun _ x => x = w) (proceeds_ofOption hspent fun _ _ => rfl) ?_
    rintro j x rfl
    exact .pure ⟨⟨hw.trans (hu.trans ht), hframe⟩, fun h => absurd hspent h⟩
  · exact proceeds_raise _

theorem proceeds_callGuest (hspent : spent) {func frame : ContainerId} (hfunc : I func s.session.heap)
    (hframe : I frame s.session.heap) (data : FuncData) (lang : ContainerId) :
    Proceeds I spent s (callGuest d func data frame lang) (Still s) := by
  refine (proceeds_guestFile hd.upheld hfunc data lang).bind_keeps hframe fun path t ht hframe => ?_
  refine .bind_heap (.bind_ofHeap fun _ _ => ?_)
  exact (proceeds_converse hd hspent hframe _ _ _).mono fun _ _ hu => hu.trans ht

omit hd in
theorem proceeds_newFrame (hI : Heap.Upheld I) (func : ContainerId) (params : List Param)
    (args : List Value) : Proceeds I spent s (newFrame func params args) fun frame t =>
      t.reading = s.reading ∧ I frame t.session.heap := by
  refine .bind_heap ((proceeds_alloc hI rfl (by simp [ContainerKind.valueKind?])).bind ?_)
  rintro frame t ⟨ht, hframe⟩
  refine (proceeds_forIn (J := fun u => u.reading = s.reading ∧ I frame u.session.heap) _ ?_
    ⟨ht, hframe⟩ _).bind fun _ u hu => .pure hu
  rintro ⟨param, arg⟩ - u ⟨hu, hframe⟩
  refine .bind_heap (.bind_ofHeap fun r hok => ?_)
  refine (proceeds_setSpared hI (Heap.spares_declare hok)).bind_keeps hframe fun _ v hv hframe => ?_
  refine (proceeds_assignSlot hI _ _).bind_keeps hframe fun _ w hw hframe => ?_
  exact .pure ⟨⟨hw.trans (hv.trans hu), hframe⟩, _, rfl⟩

theorem proceeds_callDitlang (func : ContainerId) {frame : ContainerId}
    (hframe : I frame s.session.heap) : Proceeds I spent s (callDitlang d func frame) (Still s) := by
  refine (proceeds_bodyOf func).bind_keeps hframe fun b t ht hframe => ?_
  refine (hd.body t frame _ _ _ hframe).bind ?_
  rintro result u ⟨hu, hspent⟩
  split
  · exact .pure (hu.trans ht)
  · exact .pure (hu.trans ht)
  · exact proceeds_uncaught hspent _

omit hd in
theorem proceeds_checkedResult (hI : Heap.Upheld I) (ret : Option Declared) (v : Value) :
    Proceeds I spent s (checkedResult ret v) (Still s) := by
  refine .bind_heap ((proceeds_setSpared hI (Heap.spares_warmAll _)).bind fun _ t ht => ?_)
  exact .bind_heap (proceeds_ofDiagnostic fun _ _ => ht)

theorem proceeds_callFunction (hspent : spent) (func : ContainerId) (args : List Value) :
    Proceeds I spent s (callFunction d func args) (Still s) := by
  unfold callFunction
  refine .of_here fun hi => .bind_heap ?_
  split
  · rename_i data hk
    have hfunc := hd.upheld.func hi hk
    refine .bind_ofDiagnostic fun _ _ => ?_
    split
    · exact proceeds_builtin hd.upheld hspent _ _
    · refine (proceeds_newFrame hd.upheld _ _ _).bind_keeps hfunc ?_
      rintro frame t ⟨ht, hframe⟩ hfunc
      dsimp only
      split
      · refine (proceeds_callDitlang hd func hframe).bind fun v u hu => ?_
        exact (proceeds_checkedResult hd.upheld _ _).mono fun _ _ hw => hw.trans (hu.trans ht)
      · refine (proceeds_callGuest hd hspent hfunc hframe data _).bind fun v u hu => .bind_pure ?_
        exact (proceeds_checkedResult hd.upheld _ _).mono fun _ _ hw => hw.trans (hu.trans ht)
  · exact proceeds_raise _

/-! ## Imports -/

omit hd in
theorem proceeds_loadSource (path : String) : Proceeds I spent s (loadSource path) (Still s) :=
  .bind_session ((proceeds_modifySession rfl).bind fun _ _ ht => proceeds_ofDiagnostic fun _ _ => ht)

theorem proceeds_importDit (target importer : String) :
    Proceeds I spent s (importDit d target importer) (Still s) := by
  refine .bind_session ((proceeds_loadSource _).bind fun source t ht => ?_)
  refine (proceeds_alloc hd.upheld rfl (by simp [ContainerKind.valueKind?])).bind ?_
  rintro dit u ⟨hu, hdit⟩
  refine (hd.body u dit _ _ _ hdit).bind ?_
  rintro result v ⟨hv, hspent⟩
  split
  · exact proceeds_uncaught hspent _
  · exact .pure (hv.trans (hu.trans ht))

end Calls

end Eval
end Ditlang
