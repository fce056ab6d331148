import Ditlang.Proofs.Agree.Joined
import Ditlang.Proofs.Session.Reached

/-!
# Ditlang.Proofs.Session.Incremental

Programs that are run in parts. A source that succeeds, and then another one in the session it
leads to, do what one source does that has the other after a line feed: with the same success or
failure, the same output and guest workers, and the same store, up to source coordinates and to
the source that the main dit records (`Reached.evalSource_append`).
-/

namespace Ditlang
namespace Session

open Source (View Location Feed)

variable {s s' : Session}

/-! ## Runs of a source -/

/-- The evaluator below the statements of a source. -/
def evaluator : Deeper :=
  ⟨defaultFuel - 1, Eval.termAt (defaultFuel - 1), Eval.bodyAt (defaultFuel - 1)⟩

theorem evaluator_agrees : evaluator.Agrees :=
  Eval.deeper_agrees _ _

theorem evaluator_stays (c : ContainerId) (path : String) (v : View) (fragment : Bool) :
    Eval.Stays (evaluator.body c path v fragment) :=
  Eval.stays_bodyAt _ c path v fragment

def uncaughtThrow (text : String) : Failure :=
  .diagnostic { kind := .thrown, message := "Uncaught throw: " ++ text }

/-- What becomes of a source in the main dit when its statements have run. -/
def conclude (main : ContainerId) : Outcome Signal → Result Unit
  | .done signal t =>
    let s := t.session.note (.finished main signal)
    match signal with
    | .thrown v => (s.heap.render? v).map fun text => (.error (uncaughtThrow text), s)
    | _ => some (.ok (), s)
  | .failed e t =>
    some (.error (t.reading.annotate e), t.session.note (.failed main (t.reading.annotate e)))
  | .outOfFuel => none

/-- The state in which the statements of a source start, below its beginning. -/
def entered (s : Session) (view : View) (fragment : Bool) : EvalState :=
  (s.opened view fragment).enter s.main s.mainPath view fragment

theorem bodyAt_opened (s : Session) (view : View) (fragment : Bool) :
    Eval.bodyAt defaultFuel s.main s.mainPath view fragment (s.opened view fragment) =
      Eval.runBody evaluator s.main s.mainPath view fragment (s.opened view fragment) := by
  have hfuel : defaultFuel = (defaultFuel - 1) + 1 := rfl
  rw [hfuel, Eval.bodyAt]
  rfl

theorem uncaught_apply {α : Type} (v : Value) (t : EvalState) :
    (Eval.uncaught v : Eval α) t =
      match t.session.heap.render? v with
      | some text => .failed (uncaughtThrow text) t
      | none => .outOfFuel := by
  simp only [Eval.uncaught, Eval.render, Eval.heap, Eval.gets, Bind.bind, Eval.bind, Eval.ofOption]
  cases t.session.heap.render? v <;> rfl

theorem evalSource_eq (s : Session) (source : String) :
    s.evalSource source =
      conclude s.main (Eval.statements evaluator (s.entered (.ofText source) false)) := by
  have hbody := s.bodyAt_opened (.ofText source) false
  rw [evalSource, runMain_eq, entered]
  simp only [Bind.bind, Eval.bind, hbody, Eval.runBody]
  cases Eval.statements evaluator _ with
  | done signal t =>
    cases signal with
    | normal => rfl
    | returned v => rfl
    | thrown v =>
      dsimp only [ending]
      rw [uncaught_apply, conclude]
      dsimp only
      cases (t.session.note (.finished s.main (.thrown v))).heap.render? v <;> rfl
  | failed e t => rfl
  | outOfFuel => rfl

/-- The result of a source without source coordinates: without the places of faults and the lines
they quote, and with the session that is left as `Session.unplaced` has it. -/
def unplacedResult (r : Except Failure Unit × Session) : Except Failure Unit × Session :=
  (r.1.mapError Failure.unplaced, r.2.unplaced)

theorem conclude_agrees {p : Pairing} (hmore : p.more = none) {o o' : Outcome Signal}
    (ho : o.AgreesWith p o') (main main' : ContainerId) :
    (conclude main o).map unplacedResult = (conclude main' o').map unplacedResult := by
  cases o with
  | done signal t =>
    rcases ho with hlost | ⟨_, t', rfl, rfl, htt⟩
    · exact absurd hmore hlost.more
    · have hsame : t.session.unplaced = t'.session.unplaced := htt.session
      cases signal with
      | normal | returned v => simp [conclude, unplacedResult, hsame]
      | thrown v =>
        have hrender := htt.heap.eq (f := (·.render? v)) fun h => h.render?_unplaced p.main v
        simp only [conclude, heap_note, hrender]
        cases t'.session.heap.render? v with
        | none => rfl
        | some text => simp [unplacedResult, hsame]
  | failed e t =>
    obtain ⟨e', t', rfl, he, hsession, -, hpath⟩ := ho hmore
    have hsame : t.session.unplaced = t'.session.unplaced := hsession
    have hplaced : (t.reading.annotate e).unplaced = (t'.reading.annotate e').unplaced := by
      rw [Eval.Reading.annotate_unplaced, Eval.Reading.annotate_unplaced, he, hpath]
    simp [conclude, unplacedResult, Except.mapError, hsame, hplaced]
  | outOfFuel =>
    rw [ho hmore]
    rfl

/-- A source that succeeds has run without an uncaught throw. -/
theorem conclude_eq_ok {o : Outcome Signal} {main : ContainerId}
    (ho : conclude main o = some (.ok (), s')) :
    ∃ signal t, o = .done signal t ∧ (∀ v, signal ≠ .thrown v) ∧
      t.session.note (.finished main signal) = s' := by
  cases o with
  | done signal t =>
    cases signal with
    | normal | returned v =>
      cases ho
      exact ⟨_, t, rfl, by simp, rfl⟩
    | thrown v =>
      simp only [conclude, heap_note] at ho
      cases hrender : t.session.heap.render? v with
      | none =>
        rw [hrender] at ho
        cases ho
      | some text =>
        rw [hrender] at ho
        cases ho
  | failed e t => cases ho
  | outOfFuel => cases ho

/-! ## The main dit -/

theorem steps_opened (s : Session) (view : View) (fragment : Bool) :
    s.heap.Steps (s.opened view fragment).session.heap := by
  have hstep : s.heap.Step (s.heap.modifyContainer s.main
      ({ · with body := some ⟨s.mainPath, view, .start, true⟩ })) := .describe s.main fun _ => rfl
  exact .single hstep

theorem sound_opened (hs : s.Sound) (view : View) (fragment : Bool) :
    (s.opened view fragment).Sound := by
  have hd := hs.setHeap (steps_opened s view fragment)
  exact ⟨hd, Reading.valid_start hd.main _ _ _⟩

theorem sound_entered (hs : s.Sound) (view : View) (fragment : Bool) :
    (s.entered view fragment).Sound :=
  ⟨(sound_opened hs view fragment).session.note _, (sound_opened hs view fragment).reading⟩

theorem agrees_whole {p : Pairing} {h : Heap} {c : ContainerId} (hc : c.index < h.containers.size)
    (fuel : Nat) (path : String) (view : View) (fragment : Bool) :
    let whole : Eval (Option Value) := do
      let result ← Eval.bodyAt fuel c path view fragment
      match result.signal with
      | .normal => pure result.lastValue
      | .returned v => pure (some v)
      | .thrown v => Eval.uncaught v
    Eval.Agrees p h whole whole fun _ _ => True := by
  refine ((Eval.deeper_agrees 0 fuel).body p h c path view view fragment hc rfl).bind ?_
  rintro h' result _ - - rfl
  split
  · exact .done trivial
  · exact .done trivial
  · exact Eval.agrees_uncaught _

theorem main_dit (hs : s.Sound) {fuel : Nat} {view : View} {fragment : Bool}
    {result : Except Failure (Option Value)}
    (hrun : s.runMain fuel view fragment = some (result, s')) (hdit : s.heap.IsKind .dit s.main) :
    s'.heap.IsKind .dit s'.main := by
  have hstart := sound_opened hs view fragment
  have hwhole := agrees_whole (p := .alone (s.opened view fragment)) hstart.session.main fuel
    s.mainPath view fragment
  have hsteps := steps_opened s view fragment
  unfold Session.runMain at hrun
  dsimp only at hrun
  split at hrun
  · rename_i hdone
    cases hrun
    obtain ⟨hmain, hrest⟩ := hwhole.main_eq hstart (.inl ⟨_, hdone⟩)
    rw [hmain]
    exact hdit.mono (hsteps.trans hrest).grows
  · rename_i hfailed
    cases hrun
    obtain ⟨hmain, hrest⟩ := hwhole.main_eq hstart (.inr ⟨_, hfailed⟩)
    rw [hmain]
    exact hdit.mono (hsteps.trans hrest).grows
  · cases hrun

theorem Reached.main_isKind (hs : s.Reached) : s.heap.IsKind .dit s.main := by
  induction hs with
  | start mainPath tmpDir launcher host => exact Heap.isKind_alloc rfl
  | runMain hs hrun ih => exact main_dit hs.sound hrun ih
  | @runFile s _ path _ hs hrun ih =>
    unfold Session.runFile at hrun
    split at hrun
    · cases hrun
      exact ih
    · obtain ⟨_, hrun⟩ := exists_runMain_of_evalSource hrun
      have hstep : s.heap.Step (s.heap.modifyContainer s.main ({ · with name := some path })) :=
        .describe s.main fun _ => rfl
      have hd := hs.sound.setHeap (.single hstep)
      refine main_dit ?_ hrun (ih.mono hstep.grows)
      exact ⟨hd.heap, hd.prelude, hd.main⟩
  | @settle s _ ih =>
    unfold Session.settle
    split
    · exact ih
    · exact ih
  | @shutdown s _ ih =>
    unfold Session.shutdown
    split
    · exact ih
    · exact ih
  | setHost host _ ih => exact ih

/-! ## One source after another -/

theorem rest_ofText (source : String) :
    (Feed.ofView (.ofText source)).rest = Text.bytes source := by
  rw [Feed.ofView, View.bytes, View.ofText, View.ofBytes]
  simp

/-- The session in which a source starts differs only in what the main dit records. -/
theorem opened_alike (hdit : s.heap.IsKind .dit s.main) (view : View) (fragment : Bool) :
    (s.opened view fragment).session.Alike s :=
  (Alike.refl s).setHeap ((Heap.Alike.refl s.heap).record hdit _)

/-- How a source is compared with the same source that goes on. -/
def continued (s : Session) (a b : String) : Pairing :=
  ⟨s.main, s.mainPath, s.main, s.mainPath, some (Text.bytes b), (Text.bytes a).length, false⟩

/-- A source and the same source with another one after it start alike. -/
theorem linked_opened (hdit : s.heap.IsKind .dit s.main) (a b : String) :
    Linked (s.continued a b) (s.entered (.ofText a) false)
      (s.entered (.ofText (a ++ "\n" ++ b)) false) where
  session := (opened_alike hdit _ false).trans (opened_alike hdit _ false).symm
  main := rfl
  mainPath := rfl
  body := rfl
  path := rfl
  reading := ⟨rfl, rfl, rfl, rfl, rfl⟩
  feed := by
    refine .anchored (Feed.anchored_ofView rfl) (Feed.anchored_ofView rfl) ?_
    refine (rest_ofText _).trans ?_
    rw [Text.bytes_continued, ← rest_ofText a]
    rfl
  rest := Nat.le_of_eq (congrArg List.length (rest_ofText a))
  lastValue := by simp [continued]
  program _ := rfl

/-- Where a source ends, what comes after the line feed starts like a source of its own. -/
theorem linked_anew {p : Pairing} {b : String} {s₁ t₁ : EvalState} (hst : Linked p s₁ t₁)
    (hmore : p.more = some (Text.bytes b)) (hbody : p.body = p.main) (hpath : p.path = p.mainPath)
    (hdit : s₁.session.heap.IsKind .dit s₁.session.main) (e : BodyEvent) :
    Linked { p with more := none, bound := (Text.bytes b).length, kept := false }
      ((s₁.session.note e).entered (.ofText b) false)
      ((t₁.skip (s₁.reading.feed.rest.length + 1)).facing (.eof .start)) where
  session := (opened_alike hdit _ false).trans hst.session
  main := hst.main
  mainPath := hst.mainPath
  body := hst.main.trans hbody.symm
  path := hst.mainPath.trans hpath.symm
  reading := by
    refine ⟨?_, ?_, ?_, rfl, rfl⟩
    · exact (hst.main.trans hbody.symm).trans (hst.body.symm.trans hst.reading.body)
    · exact (hst.mainPath.trans hpath.symm).trans (hst.path.symm.trans hst.reading.path)
    · exact (hst.program (by simp [hmore])).symm.trans hst.reading.fragment
  feed := by
    have hafter : p.after = 10 :: Text.bytes b := by rw [Pairing.after, hmore]
    have hanchored := hst.feed.anchored_right (by simp [hafter])
    refine .anchored (Feed.anchored_ofView rfl) (hanchored.advance ?_) ?_
    · rw [hst.feed.rest, hafter, List.length_append, List.length_cons]
      omega
    · refine (Eval.rest_skip hmore hst).trans ?_
      rw [← rest_ofText b]
      exact (List.append_nil _).symm
  rest := Nat.le_of_eq (congrArg List.length (rest_ofText b))
  lastValue := by simp
  program := by simp

/-- Running a source and then another one is running both at once. -/
theorem Reached.evalSource_append (hs : s.Reached) {a : String}
    (ha : s.evalSource a = some (.ok (), s')) (b : String) :
    (s.evalSource (a ++ "\n" ++ b)).map unplacedResult = (s'.evalSource b).map unplacedResult := by
  have hs' := hs.evalSource ha
  rw [evalSource_eq] at ha
  obtain ⟨signal, u, hdone, hthrown, rfl⟩ := conclude_eq_ok ha
  have hstart := sound_entered hs.sound (.ofText a) false
  have hlinked := linked_opened hs.main_isKind a b
  have hdit := hs.main_isKind.mono (steps_opened s (.ofText a) false).grows
  -- The statements of `a` run alike in both sources.
  obtain ⟨s₁, t₁, m, hst, hsession, hm, hjoint⟩ := Eval.exists_joint evaluator_agrees
    evaluator_stays rfl hstart hlinked hdit (Nat.lt_add_of_pos_right (Nat.succ_pos 3)) hdone hthrown
  -- Then those of `b` do, and it does not matter how many rounds there could be.
  have hanew := linked_anew hst rfl rfl rfl (hsession ▸ hs'.main_isKind) (.finished s.main signal)
  rw [hsession] at hanew
  have hstart' := sound_entered hs'.sound (.ofText b) false
  have hagrees := Eval.agreesWith_anew evaluator_agrees hstart' hanew m
  have hrest : ((u.session.note (.finished s.main signal)).entered (.ofText b) false).reading.feed.rest.length < m := by
    rwa [← rest_ofText b] at hm
  have halone := Eval.repeatUpTo_enough evaluator_agrees hstart'
    (Nat.lt_add_of_pos_right (Nat.succ_pos 3)) hrest
  rw [evalSource_eq, evalSource_eq, Eval.statements_eq, Eval.repeatTokens, hjoint,
    Eval.repeatTokens, halone]
  exact (conclude_agrees rfl hagrees _ _).symm

/-- A class that one source defines, and another one interprets and uses. -/
theorem evalSource_append_class :
    ∃ s, bare.evalSource "class A \x7b Num n = 1; \x7d" = some (.ok (), s) ∧
      (bare.evalSource ("class A \x7b Num n = 1; \x7d" ++ "\n" ++ "A x = A(); print(x.n);")).map
        unplacedResult = (s.evalSource "A x = A(); print(x.n);").map unplacedResult ∧
      (s.evalSource "A x = A(); print(x.n);").any (·.1.isOk) = true := by
  obtain ⟨s, hrun, -, hok⟩ := exists_reached "class A \x7b Num n = 1; \x7d"
    (p := fun s => (s.evalSource "A x = A(); print(x.n);").any (·.1.isOk)) (by decide +kernel)
  have hstart : bare.Reached := .start _ _ _ _
  exact ⟨s, hrun, hstart.evalSource_append hrun _, hok⟩

end Session
end Ditlang
