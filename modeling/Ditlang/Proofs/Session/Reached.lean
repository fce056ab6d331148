import Ditlang.Proofs.Eval.Soundness
import Ditlang.Proofs.Session.Prelude
import Ditlang.Session.Run

/-!
# Ditlang.Proofs.Session.Reached

The sessions that programs lead to. A session is `Reached` when it is a new one, or a program or a
line of a prompt was run in one that was reached, whether it succeeded or failed, or its guest
workers went on or were stopped. The host may be another one at any time: files change on their own.

Whatever is run, the store of a session only takes steps (`Reached.sound`), so that a law of the
reachable stores is a law of every session.
-/

namespace Ditlang

namespace Outcome.Leads

variable {α : Type} {s : Session} {P : Heap → α → Prop} {o : Outcome α} {t : EvalState}

theorem of_done {a : α} (hl : o.Leads s P) (ho : o = .done a t) :
    t.Sound ∧ s.Leads true t.session := by
  subst ho
  exact ⟨hl.1, hl.2.2.1⟩

theorem of_failed {e : Failure} (hl : o.Leads s P) (ho : o = .failed e t) :
    t.Sound ∧ s.Leads false t.session := by
  subst ho
  exact ⟨hl.1, hl.2.2⟩

end Outcome.Leads

/-- What is left of a computation when the reading is over. -/
def Outcome.result {α : Type} : Outcome α → Session.Result α
  | .done a t => some (.ok a, t.session)
  | .failed e t => some (.error e, t.session)
  | .outOfFuel => none

theorem Outcome.match_eq_result (o : Outcome (Option Value)) : (match o with
    | .done a t => some (Except.ok a, t.session)
    | .failed e t => some (.error e, t.session)
    | .outOfFuel => none) = o.result := by
  cases o <;> rfl

theorem Outcome.result_eq_ok_iff {α : Type} {o : Outcome α} {a : α} {s' : Session} :
    o.result = some (.ok a, s') ↔ ∃ t, o = .done a t ∧ t.session = s' := by
  cases o with
  | done b t => simp [result]
  | failed e t => simp [result]
  | outOfFuel => simp [result]

theorem Outcome.exists_done {α : Type} {o : Outcome α}
    (ho : o.result.any (·.1.isOk) = true) : ∃ a t, o = .done a t := by
  cases o with
  | done a t => exact ⟨a, t, rfl⟩
  | failed e t => cases ho
  | outOfFuel => cases ho

theorem Outcome.exists_failed {α : Type} {o : Outcome α}
    (ho : o.result.any (!·.1.isOk) = true) : ∃ e t, o = .failed e t := by
  cases o with
  | done a t => cases ho
  | failed e t => exact ⟨e, t, rfl⟩
  | outOfFuel => cases ho

namespace Session

open Source (View Location)

variable {s s' : Session}

/-- The sessions that programs lead to. -/
inductive Reached : Session → Prop where
  | start (mainPath tmpDir : String) (launcher : Option Guest.Launcher) (host : Host) :
      Reached (start mainPath tmpDir launcher host)
  | runMain {s s' : Session} {fuel : Nat} {view : View} {fragment : Bool}
      {result : Except Failure (Option Value)} :
      Reached s → s.runMain fuel view fragment = some (result, s') → Reached s'
  | runFile {s s' : Session} {path : String} {result : Except Failure Unit} :
      Reached s → s.runFile path = some (result, s') → Reached s'
  | settle {s : Session} : Reached s → Reached s.settle
  | shutdown {s : Session} : Reached s → Reached s.shutdown.2
  | setHost {s : Session} (host : Host) : Reached s → Reached { s with host }

/-! ## A session at its start -/

theorem sound_start (mainPath tmpDir : String) (launcher : Option Guest.Launcher) (host : Host) :
    (start mainPath tmpDir launcher host).Sound := by
  obtain ⟨hr, hp⟩ := Prelude.install_reachable
  have hstep := Prelude.step_alloc (k := .dit) hp trivial (by simp) mainPath
  refine ⟨hr.step hstep, ?_, ?_⟩
  · exact Nat.lt_of_lt_of_le hp hstep.grows.containers
  · simp [start, Heap.alloc]

/-! ## Running something -/

theorem Sound.describe (hs : s.Sound) (c : ContainerId) {f : Container → Container}
    (hf : ∀ x, f x = { x with name := (f x).name, body := (f x).body }) :
    Sound { s with heap := s.heap.modifyContainer c f } :=
  hs.setHeap (.single (.describe c hf))

/-- The whole of a program takes steps, whatever value or error it ends with. -/
theorem runs_whole {h : Heap} {c : ContainerId} (hc : c.index < h.containers.size) (fuel : Nat)
    (path : String) (view : View) (fragment : Bool) :
    Eval.Runs h (do
      let result ← Eval.bodyAt fuel c path view fragment
      match result.signal with
      | .normal => pure result.lastValue
      | .returned v => pure (some v)
      | .thrown v => Eval.uncaught v) fun _ _ => True := by
  refine ((Eval.deeper_sound 0 fuel).body h c path view fragment hc).bind fun result _ _ _ => ?_
  split
  · exact .pure trivial
  · exact .pure trivial
  · exact (Eval.obeys_uncaught _).runs

/-- What a program leaves, what it says to guest workers, and which jobs it has them do. -/
theorem runMain_ends (hs : s.Sound) {fuel : Nat} {view : View} {fragment : Bool}
    {result : Except Failure (Option Value)}
    (hrun : s.runMain fuel view fragment = some (result, s')) :
    s'.Sound ∧ s.Leads result.isOk s' := by
  have hstep : s.heap.Step
      (s.heap.modifyContainer s.main ({ · with body := some ⟨s.mainPath, view, .start, true⟩ })) :=
    .describe s.main fun _ => rfl
  have hd := hs.setHeap (.single hstep)
  have hopen := Leads.setHeap (s := s) (.single hstep) true
  have hl := runs_whole hd.main fuel s.mainPath view fragment
    ⟨_, .start s.main s.mainPath view fragment⟩ ⟨hd, Reading.valid_start hd.main _ _ _⟩ rfl
  unfold Session.runMain at hrun
  dsimp only at hrun
  split at hrun
  · rename_i hdone
    cases hrun
    obtain ⟨ht, hleads⟩ := hl.of_done hdone
    exact ⟨ht.session, hopen.trans hleads⟩
  · rename_i hfailed
    cases hrun
    obtain ⟨ht, hleads⟩ := hl.of_failed hfailed
    exact ⟨ht.session, hopen.trans hleads⟩
  · cases hrun

/-- What a program leaves, and what it says to guest workers. -/
theorem runMain_leads (hs : s.Sound) {fuel : Nat} {view : View} {fragment : Bool}
    {result : Except Failure (Option Value)}
    (hrun : s.runMain fuel view fragment = some (result, s')) :
    s'.Sound ∧ s.Tells result.isOk s' := by
  obtain ⟨hsound, hleads⟩ := runMain_ends hs hrun
  exact ⟨hsound, hleads.tells⟩

theorem Sound.runMain (hs : s.Sound) {fuel : Nat} {view : View} {fragment : Bool}
    {result : Except Failure (Option Value)}
    (hrun : s.runMain fuel view fragment = some (result, s')) : s'.Sound :=
  (runMain_leads hs hrun).1

/-- The state in which the statements of a source start to run. -/
def opened (s : Session) (view : View) (fragment : Bool) : EvalState where
  session :=
    let body : Body := { path := s.mainPath, view, defLoc := .start, interpreted := true }
    { s with heap := s.heap.modifyContainer s.main ({ · with body := some body }) }
  reading := .start s.main s.mainPath view fragment

/-- What the end of the main body is for the source as a whole. -/
def ending (r : BodyResult) : Eval (Option Value) :=
  match r.signal with
  | .normal => pure r.lastValue
  | .returned v => pure (some v)
  | .thrown v => Eval.uncaught v

theorem runMain_eq (fuel : Nat) (view : View) (fragment : Bool) :
    s.runMain fuel view fragment =
      ((Eval.bodyAt fuel s.main s.mainPath view fragment >>= ending)
        (s.opened view fragment)).result := by
  exact Outcome.match_eq_result _

/-- A source is run in the main dit, and only the value of its last expression is left out. -/
theorem exists_runMain_of_evalSource {source : String} {result : Except Failure Unit}
    (hrun : s.evalSource source = some (result, s')) :
    ∃ whole, s.runMain defaultFuel (.ofText source) false = some (whole, s') := by
  obtain ⟨⟨whole, _⟩, hmain, he⟩ := Option.map_eq_some_iff.1 hrun
  cases he
  exact ⟨whole, hmain⟩

/-- A file is run in the main dit, which is given its name, unless it cannot be read. -/
theorem runFile_cases (hs : s.Sound) {path : String} {result : Except Failure Unit}
    (hrun : s.runFile path = some (result, s')) :
    ∃ s₁ : Session, s₁.Sound ∧ s.heap.Steps s₁.heap ∧ s₁.daemon = s.daemon ∧
      (s' = s₁ ∨ ∃ view whole, s₁.runMain defaultFuel view false = some (whole, s')) := by
  unfold Session.runFile at hrun
  split at hrun
  · rename_i host _
    cases hrun
    exact ⟨{ s with host }, ⟨hs.heap, hs.prelude, hs.main⟩, .refl, rfl, .inl rfl⟩
  · have hstep : s.heap.Step (s.heap.modifyContainer s.main ({ · with name := some path })) :=
      .describe s.main fun _ => rfl
    have hd := hs.setHeap (.single hstep)
    obtain ⟨whole, hmain⟩ := exists_runMain_of_evalSource hrun
    refine ⟨_, ?_, ?_, ?_, .inr ⟨_, whole, hmain⟩⟩
    · exact ⟨hd.heap, hd.prelude, hd.main⟩
    · exact .single hstep
    · rfl

theorem Sound.runFile (hs : s.Sound) {path : String} {result : Except Failure Unit}
    (hrun : s.runFile path = some (result, s')) : s'.Sound := by
  obtain ⟨s₁, hs₁, -, -, rfl | ⟨view, whole, hmain⟩⟩ := runFile_cases hs hrun
  · exact hs₁
  · exact hs₁.runMain hmain

/-! ## Every session -/

/-- The store of every session is reachable. -/
theorem Reached.sound (hs : s.Reached) : s.Sound := by
  induction hs with
  | start mainPath tmpDir launcher host => exact sound_start mainPath tmpDir launcher host
  | runMain _ hrun ih => exact ih.runMain hrun
  | runFile _ hrun ih => exact ih.runFile hrun
  | @settle s _ ih =>
    unfold Session.settle
    split
    · exact ih
    · exact ⟨ih.heap, ih.prelude, ih.main⟩
  | @shutdown s _ ih =>
    unfold Session.shutdown
    split
    · exact ih
    · exact ⟨ih.heap, ih.prelude, ih.main⟩
  | setHost host _ ih => exact ⟨ih.heap, ih.prelude, ih.main⟩

theorem Reached.evalSource (hs : s.Reached) {source : String} {result : Except Failure Unit}
    (hrun : s.evalSource source = some (result, s')) : s'.Reached := by
  obtain ⟨_, hmain⟩ := exists_runMain_of_evalSource hrun
  exact hs.runMain hmain

/-- A new session on a host without files and commands. -/
def bare : Session :=
  start "main.dit" "/tmp" none { files := .startingIn [], commands := [] }

theorem exists_ok (s : Session) (source : String) (p : Session → Bool)
    (h : (s.evalSource source).any (fun (result, s') => result.isOk && p s') = true) :
    ∃ s', s.evalSource source = some (.ok (), s') ∧ p s' = true := by
  obtain ⟨⟨result, s'⟩, hrun, hand⟩ := (Option.any_eq_true _ _).1 h
  obtain ⟨hok, hp⟩ := Bool.and_eq_true_iff.1 hand
  cases result with
  | error e => cases hok
  | ok => exact ⟨s', hrun, hp⟩

theorem exists_reached (source : String) {p : Session → Bool}
    (hp : (bare.evalSource source).any (fun (result, s) => result.isOk && p s) = true) :
    ∃ s, bare.evalSource source = some (.ok (), s) ∧ s.Reached ∧ p s = true := by
  obtain ⟨s, hrun, hps⟩ := exists_ok bare source p hp
  exact ⟨s, hrun, (Reached.start _ _ _ _).evalSource hrun, hps⟩

end Session
end Ditlang
