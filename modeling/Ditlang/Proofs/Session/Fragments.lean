import Ditlang.Proofs.Eval.Throughout
import Ditlang.Proofs.Session.Conversations

/-!
# Ditlang.Proofs.Session.Fragments

Input of a prompt against whole programs. Every source that succeeds as a program does the same at a
prompt: it prints the same, tells the guest workers the same, and leaves the same session
(`evalLine_of_evalSource`). The prompt takes more: the `;` of the last statement may be left out, an
expression may be a statement, and a `return` may stand outside of functions.

A computation is `Lenient` when it does in the middle of a fragment whatever it succeeds to do in a
program. This is compositional. Only the bodies that are run on the way need a word: they are read as
programs in both cases.
-/

namespace Ditlang

open Source (View)
open Guest (conversation)

namespace Eval

variable {α β : Type}

/-- What succeeds in a program succeeds in a fragment, with the same effect. -/
def Lenient (x : Eval α) : Prop :=
  ∀ s a t, x s = .done a t → x s.asFragment = .done a t.asFragment

theorem lenient_pure (a : α) : Lenient (pure a : Eval α) := by
  rintro s _ _ ⟨⟩
  rfl

theorem lenient_gets {f : EvalState → α} (hf : ∀ s, f s.asFragment = f s) : Lenient (gets f) := by
  rintro s _ _ ⟨⟩
  rw [gets, hf]

theorem lenient_modifySession (f : Session → Session) : Lenient (modifySession f) := by
  rintro s _ _ ⟨⟩
  rfl

theorem lenient_repeatUpTo {step : α → Eval (α ⊕ β)} (hstep : ∀ a, Lenient (step a)) (n : Nat)
    (a : α) : Lenient (repeatUpTo n step a) := by
  intro s b t h
  induction n generalizing a s with
  | zero => cases h
  | succ n ih =>
    rw [repeatUpTo] at h ⊢
    cases hs : step a s with
    | outOfFuel =>
      rw [hs] at h
      cases h
    | failed e u =>
      rw [hs] at h
      cases h
    | done r u =>
      rw [hs] at h
      rw [hstep a s r u hs]
      cases r with
      | inl a => exact ih a u h
      | inr b =>
        cases h
        rfl

theorem lenient_compositional : Compositional (fun _ => True) fun {_} => Lenient where
  lasting := ⟨fun _ _ _ => trivial, fun _ _ => trivial⟩
  pure := lenient_pure
  bindOf {_ _ _ x f} hx hyields hf := by
    intro s b t h
    obtain ⟨a, u, ha, hb⟩ := bind_eq_done_iff.1 h
    have hQ := hyields s (fun _ _ _ => trivial) a u ha
    exact bind_eq_done_iff.2 ⟨a, u.asFragment, hx s a u ha, hf a hQ u b t hb⟩
  fail _ _ _ _ h := nomatch h
  outOfFuel _ _ _ h := nomatch h
  gets := lenient_gets
  reading hf hw s a t h := hf _ s a t (hw s a t h)
  modifySession _ _ := lenient_modifySession _
  setHeap _ := lenient_modifySession _
  modifyReading {f} hf := by
    rintro s _ _ ⟨⟩
    rw [modifyReading, EvalState.asFragment, hf]
    rfl
  withHeap _ := by
    rintro s _ _ ⟨⟩
    rfl
  advance b := by
    intro s a t h
    unfold advance at h ⊢
    dsimp only [EvalState.asFragment, Reading.asFragment] at h ⊢
    split at h
    · cases h
      rfl
    · cases h
  scan f := by
    intro s a t h
    unfold scan at h ⊢
    dsimp only [EvalState.asFragment, Reading.asFragment] at h ⊢
    split at h
    · cases h
      rfl
    · cases h
  mapFailure {_ x} f hx := by
    intro s a t h
    unfold mapFailure at h ⊢
    cases hs : x s with
    | done b u =>
      rw [hs] at h
      cases h
      rw [hx s a t hs]
    | failed e u =>
      rw [hs] at h
      cases h
    | outOfFuel =>
      rw [hs] at h
      cases h
  repeatTokens hstep a s b t h := lenient_repeatUpTo hstep _ a s b t h

/-! ## Bodies and calls -/

/-- What the statements of a body do when it is read as a program or as a fragment. -/
theorem runBody_fragment {d : Deeper} (hd : Lenient (statements d)) {c : ContainerId} {path : String}
    {view : View} {s t : EvalState} {r : BodyResult}
    (h : runBody d c path view false s = .done r t) : runBody d c path view true s = .done r t := by
  unfold runBody at h ⊢
  dsimp only at h ⊢
  cases hs : statements d (s.enter c path view false) with
  | done signal u =>
    rw [hs] at h
    cases h
    have henter : (s.enter c path view false).asFragment = s.enter c path view true := rfl
    have hu := hd _ _ _ hs
    rw [henter] at hu
    rw [hu]
    rfl
  | failed e u =>
    rw [hs] at h
    cases h
  | outOfFuel =>
    rw [hs] at h
    cases h

/-- A body is read in the same mode wherever it is run. -/
theorem lenient_runBody (d : Deeper) (c : ContainerId) (path : String) (view : View)
    (fragment : Bool) : Lenient (runBody d c path view fragment) := by
  intro s r t h
  have henter : s.asFragment.enter c path view fragment = s.enter c path view fragment := rfl
  unfold runBody at h ⊢
  rw [henter]
  cases hs : statements d (s.enter c path view fragment) with
  | done signal u =>
    rw [hs] at h
    cases h
    rfl
  | failed e u =>
    rw [hs] at h
    cases h
  | outOfFuel =>
    rw [hs] at h
    cases h

section Calls

variable {d : Deeper} (hbody : ∀ c path view fragment, Lenient (d.body c path view fragment))

include hbody

theorem lenient_converseStep (frame : ContainerId) (spec : Guest.LaunchSpec) (func : String)
    (job : Guest.Job) : Lenient (converseStep d frame spec func job) := by
  have hP := lenient_compositional
  unfold converseStep runJob
  refine hP.bind (hP.bind hP.session fun _ => hP.bind (hP.ofOption _) fun _ => ?_) fun finished => ?_
  · exact hP.bind (lenient_modifySession _) fun _ => hP.ofDiagnostic _
  · split
    · exact hP.bind (hP.withHeap fun _ _ _ _ _ => trivial) fun _ => hP.pure _
    · refine hP.bind (hP.callback hbody _ _) fun _ => hP.bind hP.heap fun _ => ?_
      exact hP.bind (hP.ofOption _) fun _ => hP.pure _
    · exact hP.raise _

theorem lenient_callGuest (func : ContainerId) (data : FuncData) (frame lang : ContainerId) :
    Lenient (callGuest d func data frame lang) := by
  have hP := lenient_compositional
  unfold callGuest
  refine hP.bind (hP.guestFile _ trivial _) fun _ => hP.bind hP.heap fun _ => ?_
  refine hP.bind (hP.ofHeap _) fun _ => ?_
  exact lenient_repeatUpTo (lenient_converseStep hbody _ _ _) _ _

end Calls

theorem deeper_lenient (rounds fuel : Nat) :
    Deeper.Has (fun {_} => Lenient) ⟨rounds, termAt fuel, bodyAt fuel⟩ := by
  refine lenient_compositional.deeper_has (fun d _ => lenient_runBody d) (fun d hbody => ?_) _ _
  exact lenient_compositional.callFunction hbody fun _ _ _ _ _ => lenient_callGuest hbody _ _ _ _

theorem bodyAt_fragment {fuel : Nat} {c : ContainerId} {path : String} {view : View}
    {s t : EvalState} {r : BodyResult} (h : bodyAt fuel c path view false s = .done r t) :
    bodyAt fuel c path view true s = .done r t := by
  cases fuel with
  | zero => cases h
  | succ fuel =>
    exact runBody_fragment (lenient_compositional.statements (deeper_lenient fuel fuel)) h

end Eval

/-! ## Whole sources -/

namespace Session

variable {s s' : Session}

theorem lenient_ending (r : BodyResult) : Eval.Lenient (ending r) := by
  have hP := Eval.lenient_compositional
  unfold ending
  split
  · exact hP.pure _
  · exact hP.pure _
  · exact hP.uncaught _

/-- A source that succeeds as a program succeeds as a fragment, with the same value of its last
expression and the same session. -/
theorem runMain_fragment {fuel : Nat} {view : View} {v : Option Value}
    (h : s.runMain fuel view false = some (.ok v, s')) :
    s.runMain fuel view true = some (.ok v, s') := by
  rw [runMain_eq, Outcome.result_eq_ok_iff] at h ⊢
  obtain ⟨t, hdone, rfl⟩ := h
  obtain ⟨r, u, hr, hrest⟩ := Eval.bind_eq_done_iff.1 hdone
  have hbody := (Eval.deeper_lenient fuel fuel).body s.main s.mainPath view true
  refine ⟨t.asFragment, Eval.bind_eq_done_iff.2 ⟨r, u.asFragment, ?_, ?_⟩, rfl⟩
  · exact hbody _ _ _ (Eval.bodyAt_fragment hr)
  · exact lenient_ending r _ _ _ hrest

end Session

/-- Whatever the state of the session, a source that succeeds as a program succeeds as a line of the
prompt, and leaves the same session: the same store, the same output, and guest workers that were told
the same. -/
theorem evalLine_of_evalSource {s s' : Session} {source : String}
    (h : s.evalSource source = some (.ok (), s')) : ∃ v, s.evalLine source = some (.ok v, s') := by
  obtain ⟨⟨result, _⟩, hmain, he⟩ := Option.map_eq_some_iff.1 h
  cases result with
  | error e => cases he
  | ok v =>
    cases he
    exact ⟨v, Session.runMain_fragment hmain⟩

/-- A program that prints, calls a Python function and ends with an expression does the same at the
prompt. The prompt takes its last line without the `;` as well, which a program does not. -/
theorem evalLine_of_evalSource_with_guest :
    ∃ s s' v, s = Session.scripted [.plays none [.recv, .finish] false] ∧
      s.evalSource "Num x = 1; print(x); func Python void f() \x7b pass \x7d f(); x;" =
        some (.ok (), s') ∧
      s.evalLine "Num x = 1; print(x); func Python void f() \x7b pass \x7d f(); x;" =
        some (.ok v, s') ∧
      s'.host.printed = "1\n" ∧ conversation 0 s'.talk = [.callFunc, .finishFunc] ∧
      (s'.evalLine "x").any (fun r => r.1.isOk) = true ∧
      (s'.evalSource "x").any (fun r => r.1.isOk) = false := by
  obtain ⟨s', heval, hp⟩ := Session.exists_ok
    (Session.scripted [.plays none [.recv, .finish] false])
    "Num x = 1; print(x); func Python void f() \x7b pass \x7d f(); x;"
    (fun s' => s'.host.printed == "1\n" &&
      conversation 0 s'.talk == [.callFunc, .finishFunc] &&
      (s'.evalLine "x").any (fun r => r.1.isOk) && !(s'.evalSource "x").any fun r => r.1.isOk)
    (by decide +kernel)
  simp only [Bool.and_eq_true, beq_iff_eq, Bool.not_eq_true'] at hp
  obtain ⟨⟨⟨hprinted, hsaid⟩, hline⟩, hsource⟩ := hp
  obtain ⟨v, hv⟩ := evalLine_of_evalSource heval
  exact ⟨_, s', v, rfl, heval, hv, hprinted, hsaid, hline, hsource⟩

end Ditlang
