import Ditlang.Proofs.Heap.Arguments
import Ditlang.Proofs.Session.Assignment
import Ditlang.Proofs.Session.Signatures

/-!
# Ditlang.Proofs.Session.Calls

Calls of functions, at both ends. The arguments are checked first, in the store in which the call is
made, and a call that is refused has done nothing. What passed the check can be bound to the parameters
(`newFrame_bound`), although binding one adds to the store in which the next is bound. At the end the
result is checked against the declared type. Built-in functions skip that check, so for them it is read
off from what each of them yields (`yields_builtin`).

Calls happen in the middle of evaluation, in a store that no session has yet. There the state is
`Steady`: it is sound, and its functions are well signed. Every depth of the evaluator keeps states
steady (`steady_bodyAt`).
-/

namespace Ditlang

open Heap

namespace Eval

variable {d : Deeper} {s t : EvalState} {func frame : ContainerId} {data : FuncData}
  {params : List Param} {args : List Value}

/-! ## Binding the parameters -/

def bindParam (frame : ContainerId) (x : Param × Value) (_ : PUnit) : Eval (ForInStep PUnit) := do
  let (s, h) ← ofHeap ((← heap).declare frame x.1.name x.1.declared)
  setHeap h
  assignSlot s x.2
  pure (.yield PUnit.unit)

theorem newFrame_eq (func : ContainerId) (params : List Param) (args : List Value) :
    newFrame func params args = (do
      let h ← heap
      let frame ← withHeap (·.alloc (h.frameOf func))
      let _ ← forIn (params.zip args) PUnit.unit (bindParam frame)
      pure frame) :=
  rfl

theorem bindParam_apply {p : Param} {v : Value} {slot : SlotId} {h₁ h₂ : Heap}
    (hok : s.session.heap.declare frame p.name p.declared = .ok (slot, h₁))
    (hassign : h₁.assign slot v = .ok h₂) :
    bindParam frame (p, v) PUnit.unit s =
      .done (.yield PUnit.unit)
        { s with session := { s.session with heap := h₂.warmAssign slot v } } := by
  have hdeclared : (ofHeap (s.session.heap.declare frame p.name p.declared)) s =
      .done (slot, h₁) s := by
    rw [hok]
    rfl
  have hassigned : assignSlot slot v { s with session := { s.session with heap := h₁ } } =
      .done () { s with session := { s.session with heap := h₂.warmAssign slot v } } := by
    rw [assignSlot_apply]
    simp only [hassign]
  exact bind_eq_done_iff.2 ⟨_, _, rfl, bind_eq_done_iff.2 ⟨_, _, hdeclared,
    bind_eq_done_iff.2 ⟨(), _, rfl, bind_eq_done_iff.2 ⟨(), _, hassigned, rfl⟩⟩⟩⟩

/-- Parameters with names of their own are bound one after the other. -/
theorem forIn_bound {h : Heap} (hr : h.Reachable) {ps : List Param} {vs : List Value}
    (hsuits : h.Suits ps vs) (hb : h.Bound s.session.heap func frame params args)
    (hnames : ((params ++ ps).map (·.name)).Nodup) (hvalid : ∀ p ∈ ps, p.declared.Valid h)
    (hargs : ∀ v ∈ vs, v.Valid h) :
    ∃ h', (forIn (ps.zip vs) PUnit.unit (bindParam frame) : Eval PUnit) s =
        .done PUnit.unit { s with session := { s.session with heap := h' } } ∧
      h.Bound h' func frame (params ++ ps) (args ++ vs) := by
  -- On the parameters that are left. All were checked in `h`, and each is bound in a store that has
  -- grown since; `params` are those in the frame already.
  induction hsuits generalizing s params args with
  | nil =>
    rw [List.append_nil, List.append_nil]
    exact ⟨s.session.heap, rfl, hb⟩
  | @cons p v ps vs hcheck _ ih =>
    rw [List.forall_mem_cons] at hvalid hargs
    have hname : p.name ∉ params.map (·.name) := by
      rw [List.map_append, List.nodup_append] at hnames
      intro hmem
      exact hnames.2.2 _ hmem p.name (by simp) rfl
    obtain ⟨slot, h₁, h₂, hok, hassign, hb⟩ := hb.concat hr hname hvalid.1 hargs.1 hcheck
    rw [List.append_cons] at hnames
    have hwarm := hb.warmAll (asks_assignAsks hb.reachable.closed slot v)
    obtain ⟨h', hrest, hb'⟩ :=
      ih (s := { s with session := { s.session with heap := h₂.warmAssign slot v } }) hwarm hnames
        hvalid.2 hargs.2
    refine ⟨h', ?_, ?_⟩
    · rw [List.zip_cons_cons, List.forIn_cons, bind_apply, Eval.bind, bindParam_apply hok hassign]
      exact hrest
    · rw [List.append_cons, List.append_cons args]
      exact hb'

/-- Arguments that passed the check are bound to the parameters in a new frame. -/
theorem newFrame_bound (hr : s.session.heap.Reachable)
    (hk : (s.session.heap.container func).kind = .func data) (hsigned : data.WellSigned)
    (hsuits : s.session.heap.Suits data.params args) (hargs : ∀ v ∈ args, v.Valid s.session.heap) :
    ∃ frame h', newFrame func data.params args s =
        .done frame { s with session := { s.session with heap := h' } } ∧
      s.session.heap.Bound h' func frame data.params args := by
  have hfunc : s.session.heap.IsKind .func func := by rw [IsKind, hk]; rfl
  have hdata : data.Valid s.session.heap := by
    have hv := (hr.closed.container func).kind
    rwa [hk] at hv
  let h₁ := (s.session.heap.alloc (s.session.heap.frameOf func)).2
  obtain ⟨h', hloop, hb⟩ := forIn_bound (s := { s with session := { s.session with heap := h₁ } })
    hr hsuits (bound_alloc hr hfunc) hsigned.names hdata.params hargs
  refine ⟨_, h', ?_, hb⟩
  rw [newFrame_eq]
  simp only [bind_apply, Eval.bind, heap, gets, withHeap]
  rw [hloop]
  rfl

/-! ## The way of a call -/

/-- What is left of a call when the parameters are in the frame. -/
def answerIn (d : Deeper) (func : ContainerId) (data : FuncData) (frame : ContainerId) : Eval Value := do
  let v ← match data.lang with
    | .ditlang => callDitlang d func frame
    | .guest lang => do
      let v ← callGuest d func data frame lang
      pure (Guest.coerce data.ret v)
  checkedResult data.ret v

/-- A call is refused by the check, goes to a built-in function, or runs in a new frame. -/
theorem callFunction_apply (hk : (s.session.heap.container func).kind = .func data) (args : List Value) :
    callFunction d func args s =
      match s.session.heap.checkArguments (s.session.heap.nameOf func) data.params args with
      | .error fault => .failed (.diagnostic fault.diagnostic) s
      | .ok () =>
        match data.native with
        | some b => builtin b args s
        | none => (newFrame func data.params args >>= answerIn d func data) s := by
  unfold callFunction
  rw [bind_apply, Eval.bind]
  simp only [heap, gets, hk]
  cases s.session.heap.checkArguments (s.session.heap.nameOf func) data.params args with
  | error fault => rfl
  | ok u =>
    cases data.native with
    | some b => rfl
    | none => rfl

/-! ## Results -/

/-- What a call that succeeds may give: null if there is no type for the result, and otherwise what the
check accepts for the type. -/
def Answer (ret : Option Declared) (v : Value) (t : EvalState) : Prop :=
  match ret with
  | none => v = .null
  | some d => t.session.heap.checkValue v d = none

theorem yields_checkedResult (v : Value) (ret : Option Declared) :
    Yields s (checkedResult ret v) (Answer ret) := by
  refine .gets (.bind fun _ _ _ => .gets fun w t hdone => ?_)
  unfold Heap.checkReturn at hdone
  split at hdone
  · split at hdone
    · cases hdone
      rfl
    · cases hdone
  · split at hdone
    · cases hdone
    · cases hdone
      assumption

/-- What a body or a guest function gives is checked at the end. -/
theorem yields_answerIn : Yields s (answerIn d func data frame) (Answer data.ret) := by
  unfold answerIn
  split
  · exact .bind fun v _ _ => yields_checkedResult v _
  · exact .bind fun v _ _ => yields_checkedResult (Guest.coerce _ v) _

/-- A built-in function gives what the prelude says, without a check. -/
theorem yields_builtin (b : Builtin) (args : List Value) :
    Yields s (builtin b args) (Answer (Prelude.signature b).2) := by
  unfold builtin
  split
  · exact .bind fun _ _ _ => .bind fun _ _ _ => .pure rfl
  · exact .bind fun _ _ _ => .pure rfl
  · exact .gets (.bind fun _ _ _ => .bind fun _ _ _ => .pure rfl)
  · exact .raise _
  · exact .raise _
  · dsimp only
    split
    · exact .pure rfl
    · exact .gets (.pure rfl)
    · exact .gets (.pure rfl)
    · exact .gets (.raise _)
    · exact .pure rfl

/-! ## A call -/

/-- A call whose arguments do not suit the parameters is refused, and has done nothing. -/
theorem callFunction_refused (hk : (s.session.heap.container func).kind = .func data)
    (hunfit : ¬ s.session.heap.Suits data.params args) :
    ∃ fault, s.session.heap.checkArguments (s.session.heap.nameOf func) data.params args = .error fault ∧
      callFunction d func args s = .failed (.diagnostic fault.diagnostic) s := by
  cases hcheck : s.session.heap.checkArguments (s.session.heap.nameOf func) data.params args with
  | error fault =>
    refine ⟨fault, rfl, ?_⟩
    rw [callFunction_apply hk, hcheck]
  | ok u => exact absurd (checkArguments_eq_ok_iff.1 hcheck) hunfit

theorem callFunction_builtin (hk : (s.session.heap.container func).kind = .func data)
    (hsuits : s.session.heap.Suits data.params args) {b : Builtin} (hb : data.native = some b) :
    callFunction d func args s = builtin b args s := by
  rw [callFunction_apply hk, checkArguments_eq_ok_iff.2 hsuits]
  simp only [hb]

theorem callFunction_inFrame (hk : (s.session.heap.container func).kind = .func data)
    (hsuits : s.session.heap.Suits data.params args) (hb : data.native = none) :
    callFunction d func args s = (newFrame func data.params args >>= answerIn d func data) s := by
  rw [callFunction_apply hk, checkArguments_eq_ok_iff.2 hsuits]
  simp only [hb]

/-- On every way, the result is what the declared type allows. -/
theorem yields_callFunction (hk : (s.session.heap.container func).kind = .func data)
    (hsigned : data.WellSigned) : Yields s (callFunction d func args) (Answer data.ret) := by
  intro v t hdone
  by_cases hsuits : s.session.heap.Suits data.params args
  · cases hb : data.native with
    | some b =>
      rw [callFunction_builtin hk hsuits hb] at hdone
      -- Nothing checks this result: its type is the declared one because the signature is.
      have hret : data.ret = (Prelude.signature b).2 := congrArg Prod.snd (hsigned.native b hb)
      rw [hret]
      exact yields_builtin b args v t hdone
    | none =>
      rw [callFunction_inFrame hk hsuits hb] at hdone
      exact Yields.bind (fun _ _ _ => yields_answerIn) v t hdone
  · obtain ⟨fault, -, hrefused⟩ := callFunction_refused (d := d) hk hsuits
    rw [hrefused] at hdone
    cases hdone

end Eval

/-! ## The states of evaluation -/

/-- The state is sound, and the functions of its store are well signed. -/
structure EvalState.Steady (s : EvalState) : Prop where
  sound : s.Sound
  signed : s.session.heap.EachFunc FuncData.WellSigned

theorem Session.Reached.steady {s : Session} (hs : s.Reached) (view : Source.View) (fragment : Bool) :
    (s.opened view fragment).Steady := by
  have hd := hs.sound.describe s.main (f := ({ · with body := some ⟨s.mainPath, view, .start, true⟩ }))
    fun _ => rfl
  exact ⟨⟨hd, Reading.valid_start hd.main _ _ _⟩,
    hs.wellSigned.mono FuncData.lasting_wellSigned (.modifyContainer s.main (.same _))⟩

/-- A computation that runs soundly and keeps what functions are declared with. -/
theorem EvalState.Steady.leaves {α : Type} {s : EvalState} (hs : s.Steady) {x : Eval α}
    {P : Heap → α → Prop} (hruns : Eval.Runs s.session.heap x P)
    (hkeeps : Eval.KeepsFuncs FuncData.WellSigned x) : (x s).Leaves EvalState.Steady := by
  have hl := hruns s hs.sound rfl
  have hf := hkeeps s hs.signed
  revert hl hf
  cases x s with
  | done a t => exact fun hl hf => ⟨hl.1, hf⟩
  | failed e t => exact fun hl hf => ⟨hl.1, hf⟩
  | outOfFuel => exact fun _ _ => trivial

section

variable {s : EvalState} (hs : s.Steady) (fuel : Nat)

include hs

theorem steady_termAt : (Eval.termAt fuel s).Leaves EvalState.Steady :=
  hs.leaves ((Eval.deeper_sound 0 fuel).term _)
    (Eval.deeper_keepsFuncs FuncData.lasting_wellSigned 0 fuel).term

theorem steady_bodyAt {c : ContainerId} (hc : c.index < s.session.heap.containers.size) (path : String)
    (view : Source.View) (fragment : Bool) :
    (Eval.bodyAt fuel c path view fragment s).Leaves EvalState.Steady :=
  hs.leaves ((Eval.deeper_sound 0 fuel).body _ c path view fragment hc)
    ((Eval.deeper_keepsFuncs FuncData.lasting_wellSigned 0 fuel).body c path view fragment)

theorem steady_callFunction (rounds : Nat) (func : ContainerId) {args : List Value}
    (hargs : ∀ v ∈ args, v.Valid s.session.heap) :
    (Eval.callFunction ⟨rounds, Eval.termAt fuel, Eval.bodyAt fuel⟩ func args s).Leaves
      EvalState.Steady :=
  hs.leaves (Eval.obeys_callFunction (Eval.obeys_of_sound (Eval.deeper_sound rounds fuel)) (.inl trivial)
    hargs).runs
    ((Eval.deeper_keepsFuncs FuncData.lasting_wellSigned rounds fuel).call func args)

end

/-- Programs of every session start in a steady state, and evaluation, at every depth, leaves a steady
state, whether it succeeds or fails. In a steady state, with whatever evaluates the body: a call whose
arguments are too few, too many or of a wrong type is refused, and nothing at all has changed. If they
suit the parameters, a built-in function answers at once; and for any other function a new frame is
made, with all parameters bound to their arguments and everything else as it was, in which the body or
the guest worker takes over. What a call gives that succeeds is null for a function without a type for
its result, and otherwise what the check accepts for the type. -/
theorem calls_checked_at_both_ends :
    (∀ s : Session, s.Reached → ∀ view fragment, (s.opened view fragment).Steady) ∧
    (∀ s : EvalState, s.Steady → ∀ fuel,
      (Eval.termAt fuel s).Leaves EvalState.Steady ∧
      (∀ c path view fragment, c.index < s.session.heap.containers.size →
        (Eval.bodyAt fuel c path view fragment s).Leaves EvalState.Steady) ∧
      ∀ rounds func args, (∀ v ∈ args, v.Valid s.session.heap) →
        (Eval.callFunction ⟨rounds, Eval.termAt fuel, Eval.bodyAt fuel⟩ func args s).Leaves
          EvalState.Steady) ∧
    ∀ (d : Deeper) (s : EvalState), s.Steady → ∀ func data,
      (s.session.heap.container func).kind = .func data →
      ∀ args, (∀ v ∈ args, v.Valid s.session.heap) →
        (¬ s.session.heap.Suits data.params args → ∃ fault,
          s.session.heap.checkArguments (s.session.heap.nameOf func) data.params args = .error fault ∧
          Eval.callFunction d func args s = .failed (.diagnostic fault.diagnostic) s) ∧
        (s.session.heap.Suits data.params args →
          match data.native with
          | some b => Eval.callFunction d func args s = Eval.builtin b args s
          | none => ∃ frame h',
              Eval.newFrame func data.params args s =
                .done frame { s with session := { s.session with heap := h' } } ∧
              s.session.heap.Bound h' func frame data.params args ∧
              Eval.callFunction d func args s = Eval.answerIn d func data frame
                { s with session := { s.session with heap := h' } }) ∧
        ∀ v t, Eval.callFunction d func args s = .done v t → Eval.Answer data.ret v t := by
  refine ⟨fun s hs => hs.steady, fun s hs fuel => ⟨steady_termAt hs fuel, ?_, ?_⟩, ?_⟩
  · exact fun c path view fragment hc => steady_bodyAt hs fuel hc path view fragment
  · exact fun rounds func args hargs => steady_callFunction hs fuel rounds func hargs
  intro d s hs func data hk args hargs
  have hsigned := hs.signed func data hk
  refine ⟨Eval.callFunction_refused hk, fun hsuits => ?_, Eval.yields_callFunction hk hsigned⟩
  split
  · rename_i b hb
    exact Eval.callFunction_builtin hk hsuits hb
  · rename_i hb
    obtain ⟨frame, h', hframe, hbound⟩ :=
      Eval.newFrame_bound hs.sound.session.heap hk hsigned hsuits hargs
    refine ⟨frame, h', hframe, hbound, ?_⟩
    rw [Eval.callFunction_inFrame hk hsuits hb, Eval.bind_apply, Eval.bind, hframe]

/-- An untyped list, and a function that takes a list of numbers and a string. -/
def untypedArgumentProgram : String :=
  "listOf Thing t = [1]; func Ditlang Num f(listOf Num xs, Str s) \x7b return len(xs); \x7d"

/-- The parameters of the function. -/
def untypedArgumentParams : List Param :=
  [⟨"xs", .listOf .num⟩, ⟨"s", .scalar .str⟩]

/-- What a function is declared with, and whether it is built in. -/
def Heap.declared? (h : Heap) (c : ContainerId) :
    Option (List Param × Option Declared × Option Builtin) :=
  match (h.container c).kind with
  | .func data => some (data.params, data.ret, data.native)
  | _ => none

theorem Heap.exists_func_of_declared? {h : Heap} {c : ContainerId} {params : List Param}
    {ret : Option Declared} {native : Option Builtin} (hd : h.declared? c = some (params, ret, native)) :
    ∃ data, (h.container c).kind = .func data ∧ data.params = params ∧ data.ret = ret ∧
      data.native = native := by
  unfold declared? at hd
  split at hd
  · cases hd
    exact ⟨_, ‹_›, rfl, rfl, rfl⟩
  · cases hd

/-- A string is refused for the list. The untyped list is taken: the parameter gets a list of numbers,
and the list itself stays untyped. The result is a number, as declared. -/
theorem calls_checked_at_both_ends_of_untyped_list :
    ∃ (s : Session) (frame : ContainerId) (h' : Heap) (slot : SlotId) (k : ListId) (v : Value)
      (t : EvalState) (fault : CallFault),
      Session.bare.evalSource untypedArgumentProgram = some (.ok (), s) ∧
      Eval.callFunction ⟨9, Eval.termAt 9, Eval.bodyAt 9⟩ ⟨8⟩ [.str "a", .str "b"]
        (s.opened (.ofText "") false) =
          .failed (.diagnostic fault.diagnostic) (s.opened (.ofText "") false) ∧
      Eval.newFrame ⟨8⟩ untypedArgumentParams [.listRef ⟨0⟩, .str "b"] (s.opened (.ofText "") false) =
        .done frame ⟨{ (s.opened (.ofText "") false).session with heap := h' },
          (s.opened (.ofText "") false).reading⟩ ∧
      h'.findLocal? frame "xs" = some slot ∧ h'.value slot = .listRef k ∧
      h'.list k = ⟨.num, [.num (.ofInt 1)]⟩ ∧ h'.list ⟨0⟩ = ⟨.thing, [.num (.ofInt 1)]⟩ ∧
      Eval.callFunction ⟨9, Eval.termAt 9, Eval.bodyAt 9⟩ ⟨8⟩ [.listRef ⟨0⟩, .str "b"]
        (s.opened (.ofText "") false) = .done v t ∧
      t.session.heap.checkValue v (.scalar .num) = none := by
  obtain ⟨s, hrun, hs, hp⟩ := Session.exists_reached untypedArgumentProgram
    (p := fun s =>
      let st := s.opened (.ofText "") false
      let h := st.session.heap
      decide (h.declared? ⟨8⟩ = some (untypedArgumentParams, some (.scalar .num), none) ∧
        h.Suits untypedArgumentParams [.listRef ⟨0⟩, .str "b"] ∧
        ¬ h.Suits untypedArgumentParams [.str "a", .str "b"] ∧
        0 < h.lists.size ∧ (h.list ⟨0⟩).elem = .thing ∧ (h.list ⟨0⟩).items = [.num (.ofInt 1)]) &&
      (Eval.callFunction ⟨9, Eval.termAt 9, Eval.bodyAt 9⟩ ⟨8⟩ [.listRef ⟨0⟩, .str "b"]
        st).result.any (·.1.isOk))
    (by decide +kernel)
  obtain ⟨hlooked, hends⟩ := Bool.and_eq_true_iff.1 hp
  obtain ⟨hdeclared, hsuits, hunfit, hsize, helem, hitems⟩ := of_decide_eq_true hlooked
  obtain ⟨data, hk, hparams, hret, hnative⟩ := exists_func_of_declared? hdeclared
  obtain ⟨v, t, hdone⟩ := Outcome.exists_done hends
  have hsteady := calls_checked_at_both_ends.1 s hs (.ofText "") false
  have hlaw := calls_checked_at_both_ends.2.2 ⟨9, Eval.termAt 9, Eval.bodyAt 9⟩ _ hsteady ⟨8⟩ data hk
  rw [hparams, hret, hnative] at hlaw
  obtain ⟨hrefused, -, -⟩ := hlaw [.str "a", .str "b"] (by simp [Value.Valid])
  obtain ⟨fault, -, hfailed⟩ := hrefused hunfit
  obtain ⟨-, htaken, hanswer⟩ := hlaw [.listRef ⟨0⟩, .str "b"] (by simp [Value.Valid]; exact hsize)
  obtain ⟨frame, h', hframe, hbound, -⟩ := htaken hsuits
  obtain ⟨slot, w, hfind, -, hslot, hpasses⟩ := (List.forall₂_cons.1 hbound.passed).1
  have hlist : h'.list ⟨0⟩ = ⟨.thing, [.num (.ofInt 1)]⟩ := by
    rw [hbound.kept.list ⟨0⟩ hsize, ← helem, ← hitems]
  have hvalue : h'.value slot = w := congrArg Slot.value hslot
  cases hpasses with
  | same hno => exact absurd ⟨rfl, by decide, helem⟩ (hno ⟨0⟩ rfl)
  | @committed _ k _ _ _ hk =>
    rw [hitems] at hk
    exact ⟨s, frame, h', slot, k, v, t, fault, hrun, hfailed, hframe, hfind, hvalue, hk, hlist, hdone,
      hanswer v t hdone⟩

end Ditlang
