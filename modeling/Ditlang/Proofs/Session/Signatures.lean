import Ditlang.Proofs.Eval.Throughout
import Ditlang.Proofs.Session.Reached

/-!
# Ditlang.Proofs.Session.Signatures

What the functions of a session are declared with. A property of functions that definitions give them is
kept by the whole evaluator, whether a computation succeeds or fails (`deeper_keepsFuncs`). So all
functions of every session are well signed (`Reached.wellSigned`): their parameters have names of their
own, and those that are built in are declared as the prelude says.
-/

namespace Ditlang

open Source (View)

/-- The state that a computation leaves, whether it succeeded or failed, has a property. -/
def Outcome.Leaves {α : Type} (p : EvalState → Prop) : Outcome α → Prop
  | .done _ t | .failed _ t => p t
  | .outOfFuel => True

theorem Outcome.Leaves.mono {α : Type} {p q : EvalState → Prop} {o : Outcome α} (ho : o.Leaves p)
    (hpq : ∀ t, p t → q t) : o.Leaves q := by
  cases o with
  | done a t => exact hpq t ho
  | failed e t => exact hpq t ho
  | outOfFuel => trivial

theorem Session.heap_runJob {s s' : Session} {spec : Guest.LaunchSpec} {job : Guest.Job}
    {result : Except Diagnostic Guest.Job} (hr : s.runJob spec job = some (result, s')) :
    s'.heap = s.heap := by
  obtain ⟨x, -, he⟩ := Option.map_eq_some_iff.1 hr
  cases he
  show s.ensureDaemon.2.heap = s.heap
  unfold Session.ensureDaemon
  split <;> rfl

namespace Eval

variable {α β : Type} {F : FuncData → Prop} {d : Deeper}

/-- Functions keep a property, however the computation ends. -/
def KeepsFuncs (F : FuncData → Prop) (x : Eval α) : Prop :=
  ∀ s, s.session.heap.EachFunc F → (x s).Leaves fun t => t.session.heap.EachFunc F

theorem KeepsFuncs.of_heap {x : Eval α}
    (hx : ∀ s, (x s).Leaves fun t => t.session.heap = s.session.heap) : KeepsFuncs F x :=
  fun s hs => (hx s).mono fun _ hheap => hheap ▸ hs

theorem keepsFuncs_repeatUpTo {step : α → Eval (α ⊕ β)} (hstep : ∀ a, KeepsFuncs F (step a))
    (n : Nat) (a : α) : KeepsFuncs F (repeatUpTo n step a) := by
  intro s hs
  induction n generalizing a s with
  | zero => trivial
  | succ n ih =>
    have hround := hstep a s hs
    rw [repeatUpTo]
    revert hround
    cases step a s with
    | done r t =>
      cases r with
      | inl a => exact ih a t
      | inr b => exact id
    | failed e t => exact id
    | outOfFuel => exact id

theorem keepsFuncs_compositional (hF : FuncData.Lasting F) :
    Compositional F fun {_} => KeepsFuncs F where
  lasting := hF
  pure _ _ hs := hs
  -- Where the first part fails, nothing is known of its value, but its state counts.
  bindOf {_ _ _ x f} hx hyields hf := by
    intro s hs
    have hfirst := hx s hs
    have hQ := hyields s hs
    rw [bind_apply, Eval.bind]
    cases hdone : x s with
    | done a t =>
      rw [hdone] at hfirst
      exact hf a (hQ a t hdone) t hfirst
    | failed e t =>
      rw [hdone] at hfirst
      exact hfirst
    | outOfFuel => trivial
  fail _ _ hs := hs
  outOfFuel _ _ := trivial
  gets _ _ hs := hs
  reading hf _ s hs := hf s.reading s hs
  modifySession _ hheap s hs := by
    show (Session.heap _).EachFunc F
    rw [hheap]
    exact hs
  setHeap he _ _ := he
  modifyReading _ _ hs := hs
  withHeap hf s hs := hf _ hs
  advance b := .of_heap fun s => by
    unfold advance
    dsimp only
    split <;> exact rfl
  scan f := .of_heap fun s => by
    unfold scan
    split <;> exact rfl
  mapFailure f hx s hs := by
    have hl := hx s hs
    unfold mapFailure
    split
    · rename_i he
      rw [he] at hl
      exact hl
    · exact hl
  repeatTokens hstep a s hs := keepsFuncs_repeatUpTo hstep _ a s hs

/-! ## Bodies and calls -/

theorem keepsFuncs_runBody (hd : KeepsFuncs F (statements d)) (c : ContainerId) (path : String)
    (view : View) (fragment : Bool) : KeepsFuncs F (runBody d c path view fragment) := by
  intro s hs
  have hl := hd (s.enter c path view fragment) hs
  unfold runBody
  dsimp only
  revert hl
  cases statements d (s.enter c path view fragment) with
  | done signal t => exact id
  | failed e t => exact id
  | outOfFuel => exact id

theorem keepsFuncs_runJob (spec : Guest.LaunchSpec) (job : Guest.Job) :
    KeepsFuncs F (runJob spec job) := by
  refine .of_heap fun s => ?_
  rw [runJob_apply]
  cases hr : s.session.runJob spec job with
  | none => trivial
  | some r =>
    obtain ⟨result, s'⟩ := r
    have hheap := Session.heap_runJob hr
    cases result with
    | ok j => exact hheap
    | error d => exact hheap

section Calls

variable (hF : FuncData.Lasting F)
  (hbody : ∀ c path view fragment, KeepsFuncs F (d.body c path view fragment))

include hF hbody

theorem keepsFuncs_converseStep (frame : ContainerId) (spec : Guest.LaunchSpec) (func : String)
    (job : Guest.Job) : KeepsFuncs F (converseStep d frame spec func job) := by
  have hP := keepsFuncs_compositional hF
  unfold converseStep
  refine hP.bind (keepsFuncs_runJob spec job) fun finished => ?_
  split
  · refine hP.bind (hP.withFuncsFrom fun h => ?_) fun _ => hP.pure _
    exact .of_containers (Heap.containers_ofJson h _)
  · refine hP.bind (hP.callback hbody _ _) fun _ => hP.bind hP.heap fun _ => ?_
    exact hP.bind (hP.ofOption _) fun _ => hP.pure _
  · exact hP.raise _

theorem keepsFuncs_callGuest (func : ContainerId) {data : FuncData} (hdata : F data)
    (frame lang : ContainerId) : KeepsFuncs F (callGuest d func data frame lang) := by
  have hP := keepsFuncs_compositional hF
  unfold callGuest
  refine hP.bind (hP.guestFile _ hdata _) fun _ => hP.bind hP.heap fun _ => ?_
  refine hP.bind (hP.ofHeap _) fun _ => ?_
  exact keepsFuncs_repeatUpTo (keepsFuncs_converseStep hF hbody _ _ _) _ _

theorem keepsFuncs_callFunction (func : ContainerId) (args : List Value) :
    KeepsFuncs F (callFunction d func args) :=
  (keepsFuncs_compositional hF).callFunction hbody
    (fun _ _ _ _ hdata => keepsFuncs_callGuest hF hbody _ hdata _ _) func args

end Calls

/-- Functions keep a property that definitions give them, at every depth. -/
theorem deeper_keepsFuncs (hF : FuncData.Lasting F) (rounds fuel : Nat) :
    Deeper.Has (fun {_} => KeepsFuncs F) ⟨rounds, termAt fuel, bodyAt fuel⟩ :=
  (keepsFuncs_compositional hF).deeper_has (fun _ => keepsFuncs_runBody)
    (fun _ => keepsFuncs_callFunction hF) rounds fuel

end Eval

/-! ## Sessions -/

namespace Session

variable {s s' : Session} {F : FuncData → Prop}

theorem keepsFuncs_ending (hF : FuncData.Lasting F) (r : BodyResult) : Eval.KeepsFuncs F (ending r) := by
  have hP := Eval.keepsFuncs_compositional hF
  unfold ending
  split
  · exact hP.pure _
  · exact hP.pure _
  · exact hP.uncaught _

theorem eachFunc_runMain (hF : FuncData.Lasting F) (hs : s.heap.EachFunc F) {fuel : Nat} {view : View}
    {fragment : Bool} {result : Except Failure (Option Value)}
    (hrun : s.runMain fuel view fragment = some (result, s')) : s'.heap.EachFunc F := by
  have hP := Eval.keepsFuncs_compositional hF
  have hbody := (Eval.deeper_keepsFuncs hF 0 fuel).body s.main s.mainPath view fragment
  have hopened : (s.opened view fragment).session.heap.EachFunc F :=
    hs.mono hF (.modifyContainer s.main (.same _))
  have hends := hP.bind hbody (keepsFuncs_ending hF) _ hopened
  rw [runMain_eq] at hrun
  dsimp only at hends
  revert hends hrun
  cases (Eval.bodyAt fuel s.main s.mainPath view fragment >>= ending) (s.opened view fragment) with
  | done v t =>
    rintro ⟨⟩
    exact id
  | failed e t =>
    rintro ⟨⟩
    exact id
  | outOfFuel => rintro ⟨⟩

/-- Whatever was run in a session, its functions are well signed. -/
theorem Reached.wellSigned (hs : s.Reached) : s.heap.EachFunc FuncData.WellSigned := by
  have hF := FuncData.lasting_wellSigned
  induction hs with
  | start mainPath tmpDir launcher host =>
    exact Heap.eachFunc_install.mono hF (Heap.funcsFrom_alloc (by rintro _ ⟨⟩))
  | runMain _ hrun ih => exact eachFunc_runMain hF ih hrun
  | @runFile s s' path result hreached hrun ih =>
    unfold Session.runFile at hrun
    split at hrun
    · cases hrun
      exact ih
    · obtain ⟨whole, hmain⟩ := exists_runMain_of_evalSource hrun
      exact eachFunc_runMain hF (ih.mono hF (.modifyContainer s.main (.same _))) hmain
  | @settle s _ ih =>
    unfold Session.settle
    split
    · exact ih
    · exact ih
  | @shutdown s _ ih =>
    unfold Session.shutdown
    split
    · exact ih
    · exact ih
  | setHost host _ ih => exact ih

end Session
end Ditlang
