import Ditlang.Proofs.Cursor.Statements
import Ditlang.Proofs.Heap.WellFormed
import Ditlang.Proofs.Session.GuestFiles
import Ditlang.Proofs.Session.LangMerging

/-!
# Ditlang.Proofs.Session.Arena

The store of a session is well formed, while something is run and between two runs. Bodies are only
read in containers that are not instances, and nothing else gives a container aliases. So instances have
none, in every store that a session goes through (`Reached.arena_well_formed`).
-/

namespace Ditlang

open Source (View)

/-- A body is read that may be. -/
structure EvalState.Proper (s : EvalState) : Prop where
  sound : s.Sound
  tidy : s.session.heap.Tidy s.reading.body

/-- However a computation ends that started in a state, the store is well formed, and attributes are
bound as they were. If it succeeds, something else can be done with the state. -/
def Outcome.KeepsArena {α : Type} (s : EvalState) : Outcome α → Prop
  | .done _ t => t.Proper ∧ t.session.heap.WellFormed ∧ s.session.heap.KeepsAttributes t.session.heap
  | .failed _ t => t.session.heap.WellFormed ∧ s.session.heap.KeepsAttributes t.session.heap
  | .outOfFuel => True

namespace EvalState

variable {s : EvalState}

theorem Proper.wellFormed (hs : s.Proper) : s.session.heap.WellFormed :=
  hs.sound.session.heap.wellFormed hs.tidy.aliases

/-- What takes steps and spares instances keeps the store well formed. -/
theorem Proper.keepsArena (hs : s.Proper) {α : Type} {x : Eval α} {P : Heap → α → Prop}
    {Q : α → EvalState → Prop} (hruns : Eval.Runs s.session.heap x P)
    (hx : Eval.Proceeds (fun c h => h.Tidy c) True s x Q) : (x s).KeepsArena s := by
  have hl := hruns s hs.sound rfl
  have hc := hx hs.tidy
  revert hl hc
  cases x s with
  | done a t =>
    rintro ⟨ht, hsteps, -⟩ ⟨hbody, hcarries, -⟩
    have hproper : t.Proper := ⟨ht, hbody ▸ hcarries _ hs.tidy⟩
    exact ⟨hproper, hproper.wellFormed, hsteps.grows.keepsAttributes⟩
  | failed e t =>
    rintro ⟨ht, hsteps, -⟩ hcarries
    exact ⟨ht.session.heap.wellFormed (hcarries _ hs.tidy).aliases, hsteps.grows.keepsAttributes⟩
  | outOfFuel => exact fun _ _ => trivial

/-- A body can be read in a container that is there and not an instance. -/
theorem Proper.enter (hs : s.Proper) {c : ContainerId} (hc : s.session.heap.Tidy c) (path : String)
    (view : View) (fragment : Bool) : (s.enter c path view fragment).Proper :=
  ⟨⟨hs.sound.session.note _, Reading.valid_start hc.lt_size path view fragment⟩, hc⟩

end EvalState

/-- Every part of the evaluator keeps the store well formed: a token, a statement, a term, a body and a
call. -/
structure Deeper.KeepsArena (d : Deeper) (s : EvalState) : Prop where
  token : ∀ resolveNames, (Eval.advance resolveNames s).KeepsArena s
  statement : s.reading.Sharp → (Eval.statement d s).KeepsArena s
  term : (Eval.term d s).KeepsArena s
  body : ∀ c path view fragment, s.session.heap.Tidy c →
    (Eval.runBody d c path view fragment s).KeepsArena s
  call : ∀ func args, (∀ v ∈ args, v.Valid s.session.heap) →
    (Eval.callFunction d func args s).KeepsArena s

theorem EvalState.Proper.deeper_keepsArena {s : EvalState} (hs : s.Proper) (rounds fuel : Nat) :
    Deeper.KeepsArena ⟨rounds, Eval.termAt fuel, Eval.bodyAt fuel⟩ s := by
  have hsound := Eval.deeper_sound rounds fuel
  have hobeys := Eval.obeys_of_sound hsound
  have hd := Eval.answering (Eval.deeper_proceeding Heap.upheld_tidy rounds fuel)
  have hspent {n : Nat} {r : Reading} : r.Fits True n := fun h => absurd trivial h
  refine ⟨fun resolveNames => ?_, fun hsharp => ?_, ?_, fun c path view fragment hc => ?_,
    fun func args hargs => ?_⟩
  · exact hs.keepsArena (Eval.runs_advance resolveNames) (Eval.proceeds_advance resolveNames)
  · exact hs.keepsArena (Eval.obeys_statement hobeys).runs (Eval.proceeds_statement hd hsharp hspent)
  · exact hs.keepsArena (Eval.obeys_term hobeys).runs (Eval.proceeds_term hd hspent)
  · exact hs.keepsArena (Eval.runs_runBody hsound hc.lt_size path view fragment)
      (Eval.proceeds_runBody hd hc fun h => absurd trivial h)
  · exact hs.keepsArena (Eval.obeys_callFunction hobeys (.inl trivial) hargs).runs
      (Eval.proceeds_callFunction hd.toProceeding trivial func args)

/-! ## The prelude -/

namespace Prelude

open Heap

variable {h : Heap}

theorem spares_bind (owner : ContainerId) (name : String) (ty : TypeSpec) (v : Value) :
    h.Spares (bind h owner name ty v) := by
  have hslot : h.Spares (h.newSlot { Slot.declare name (.scalar ty) with value := v }).2 :=
    .of_containers rfl
  exact hslot.trans (.attach _ _ _)

theorem spares_addBuiltin (prelude : ContainerId) (b : Builtin) :
    h.Spares (addBuiltin prelude h b) :=
  .trans (.alloc rfl (.inl rfl)) (spares_bind _ _ _ _)

theorem spares_addLang (prelude : ContainerId) (lang : String × List (String × String)) :
    h.Spares (addLang prelude h lang) := by
  obtain ⟨name, props⟩ := lang
  have hprops (c : ContainerId) (h : Heap) :
      h.Spares (props.foldl (fun h p => bind h c p.1 .str (.str p.2)) h) :=
    List.foldlRecOn (motive := h.Spares) _ _ (.refl h) fun _ hh _ _ => hh.trans (spares_bind _ _ _ _)
  exact .trans (.alloc rfl (.inl rfl)) ((hprops _ _).trans (spares_bind _ _ _ _))

theorem bare_install : install.2.Bare := by
  have hfirst : Heap.empty.Spares (Heap.empty.alloc { name := some "prelude", kind := .prelude }).2 :=
    .alloc rfl (.inl rfl)
  refine bare_empty.spares (.trans hfirst ?_)
  unfold install
  refine List.foldlRecOn (motive := Heap.Spares _) _ _ ?_ fun _ hh _ _ => hh.trans (spares_addLang _ _)
  exact List.foldlRecOn (motive := Heap.Spares _) _ _ (.refl _) fun _ hh _ _ =>
    hh.trans (spares_addBuiltin _ _)

end Prelude

/-! ## Sessions -/

namespace Session

open Heap

variable {s s' t : Session}

theorem bare_start (mainPath tmpDir : String) (launcher : Option Guest.Launcher) (host : Host) :
    (start mainPath tmpDir launcher host).heap.Bare :=
  Prelude.bare_install.spares (.alloc rfl (.inl rfl))

theorem Sound.tidy_main (hs : s.Sound) (hb : s.heap.Bare) (hk : s.heap.IsKind .dit s.main) :
    s.heap.Tidy s.main :=
  ⟨hb, hs.main, fun hi => absurd (hk.symm.trans hi) (by simp)⟩

theorem tidy_describe (ht : s.heap.Tidy s.main) (f : Container → Container)
    (hf : ∀ x, (f x).kind = x.kind) : (s.heap.modifyContainer s.main f).Tidy s.main :=
  ht.spares (ht.spares_describe fun x => .inl (hf x))

theorem tidy_opened (ht : s.heap.Tidy s.main) (view : View) (fragment : Bool) :
    (s.opened view fragment).session.heap.Tidy s.main :=
  tidy_describe ht ({ · with body := some ⟨s.mainPath, view, .start, true⟩ }) fun _ => rfl

theorem proper_opened (hs : s.Sound) (ht : s.heap.Tidy s.main) (view : View) (fragment : Bool) :
    (s.opened view fragment).Proper := by
  have hd := hs.describe s.main (f := ({ · with body := some ⟨s.mainPath, view, .start, true⟩ }))
    fun _ => rfl
  exact ⟨⟨hd, Reading.valid_start hd.main _ _ _⟩, tidy_opened ht view fragment⟩

/-- What a program leaves was made by operations, and the main dit can be read on. -/
theorem ends_runMain {fuel : Nat} {view : View} {fragment : Bool}
    {result : Except Failure (Option Value)}
    (hrun : s.runMain fuel view fragment = some (result, s')) (hs : s.Sound)
    (ht : s.heap.Tidy s.main) : s.heap.Steps s'.heap ∧ s'.heap.Tidy s.main := by
  have hp := proper_opened hs ht view fragment
  have hopen : s.heap.Steps (s.opened view fragment).session.heap :=
    .single (.describe s.main (f := ({ · with body := some ⟨s.mainPath, view, .start, true⟩ }))
      fun _ => rfl)
  have hruns := runs_whole hp.sound.session.main fuel s.mainPath view fragment _ hp.sound rfl
  have hbody := (Eval.deeper_proceeding upheld_tidy 0 fuel).body (s.opened view fragment) s.main
    s.mainPath view fragment hp.tidy
  have hwhole : Eval.Proceeds (fun c h => h.Tidy c) True (s.opened view fragment)
      (Eval.bodyAt fuel s.main s.mainPath view fragment >>= ending) fun _ _ => True := by
    refine hbody.bind fun r t _ => ?_
    unfold ending
    split
    · exact .pure trivial
    · exact .pure trivial
    · exact Eval.proceeds_uncaught trivial _
  have hends := hwhole hp.tidy
  change ((Eval.bodyAt fuel s.main s.mainPath view fragment >>= ending)
    (s.opened view fragment)).Leads _ _ at hruns
  rw [runMain_eq] at hrun
  revert hruns hends hrun
  cases (Eval.bodyAt fuel s.main s.mainPath view fragment >>= ending) (s.opened view fragment) with
  | done v t =>
    rintro ⟨⟩ ⟨-, hcarries, -⟩ ⟨-, hsteps, -⟩
    exact ⟨hopen.trans hsteps, hcarries _ hp.tidy⟩
  | failed e t =>
    rintro ⟨⟩ hcarries ⟨-, hsteps, -⟩
    exact ⟨hopen.trans hsteps, hcarries _ hp.tidy⟩
  | outOfFuel => rintro ⟨⟩

theorem ends_runFile {path : String} {result : Except Failure Unit}
    (hrun : s.runFile path = some (result, s')) (hs : s.Sound) (ht : s.heap.Tidy s.main) :
    s.heap.Steps s'.heap ∧ s'.heap.Bare := by
  unfold Session.runFile at hrun
  split at hrun
  · cases hrun
    exact ⟨.refl, ht.toBare⟩
  · have hstep : s.heap.Step (s.heap.modifyContainer s.main ({ · with name := some path })) :=
      .describe s.main fun _ => rfl
    have hd := hs.setHeap (.single hstep)
    have hnamed := tidy_describe ht ({ · with name := some path }) fun _ => rfl
    obtain ⟨whole, hmain⟩ := exists_runMain_of_evalSource hrun
    obtain ⟨hsteps, htidy⟩ := ends_runMain hmain ⟨hd.heap, hd.prelude, hd.main⟩ hnamed
    exact ⟨.trans (.single hstep) hsteps, htidy.toBare⟩

theorem heap_shutdown (s : Session) : s.shutdown.2.heap = s.heap := by
  unfold shutdown
  split <;> rfl

theorem Reached.bare (hs : s.Reached) : s.heap.Bare := by
  induction hs with
  | start mainPath tmpDir launcher host => exact bare_start mainPath tmpDir launcher host
  | runMain hs hrun ih =>
    exact (ends_runMain hrun hs.sound (hs.sound.tidy_main ih hs.main_isKind)).2.toBare
  | runFile hs hrun ih =>
    exact (ends_runFile hrun hs.sound (hs.sound.tidy_main ih hs.main_isKind)).2
  | settle _ ih => exact (heap_settle _).symm ▸ ih
  | shutdown _ ih => exact (heap_shutdown _).symm ▸ ih
  | setHost host _ ih => exact ih

theorem Reached.tidy (hs : s.Reached) : s.heap.Tidy s.main :=
  hs.sound.tidy_main hs.bare hs.main_isKind

theorem Turn.steps (hs : s.Reached) (ht : s.Turn t) : s.heap.Steps t.heap := by
  cases ht with
  | main hrun => exact (ends_runMain hrun hs.sound hs.tidy).1
  | file hrun => exact (ends_runFile hrun hs.sound hs.tidy).1
  | settle => exact (heap_settle s).symm ▸ .refl
  | shutdown => exact (heap_shutdown s).symm ▸ .refl

/-- Whatever a session does are operations on its store. -/
theorem Reached.steps_of_later (hs : s.Reached) (hl : s.Later t) : t.Reached ∧ s.heap.Steps t.heap := by
  induction hl with
  | refl => exact ⟨hs, .refl⟩
  | tail _ ht ih => exact ⟨ht.reached ih.1, ih.2.trans (ht.steps ih.1)⟩

/-- The store of a session is well formed, now and later and in between, and what an attribute is bound
to stays. It is so when the statements of a source begin to run and when those of a body inside do, and
every part of the evaluator keeps it so. -/
theorem Reached.arena_well_formed (hs : s.Reached) :
    s.heap.WellFormed ∧
    (∀ t, s.Later t → s.heap.Steps t.heap ∧ s.heap.KeepsAttributes t.heap ∧
      ∀ h, s.heap.Steps h → h.Steps t.heap → h.WellFormed ∧ h.KeepsAttributes t.heap) ∧
    (∀ view fragment, (s.opened view fragment).Proper) ∧
    ∀ u : EvalState, u.Proper → u.session.heap.WellFormed ∧
      (∀ c path view fragment, u.session.heap.Tidy c → (u.enter c path view fragment).Proper) ∧
      ∀ rounds fuel, Deeper.KeepsArena ⟨rounds, Eval.termAt fuel, Eval.bodyAt fuel⟩ u := by
  refine ⟨hs.sound.heap.wellFormed hs.bare.aliases, fun t hl => ?_,
    proper_opened hs.sound hs.tidy, fun u hu => ⟨hu.wellFormed, fun c path view fragment hc =>
      hu.enter hc path view fragment, hu.deeper_keepsArena⟩⟩
  obtain ⟨ht, hsteps⟩ := hs.steps_of_later hl
  refine ⟨hsteps, hsteps.grows.keepsAttributes, fun h hsh hht => ?_⟩
  have hu := ht.bare.aliases.of_grows hht.grows
  exact ⟨(hs.sound.heap.steps hsh).wellFormed hu, hht.grows.keepsAttributes⟩

end Session

/-- A name of an imported dit is an alias of the main dit, and not an attribute; an instance gets an
attribute of its class for its own. -/
theorem arena_well_formed_after_import :
    ∃ s, importingSession.evalSource
        "import \x22p.dit\x22; class A \x7b Num n = 1; \x7d A a = A(); a.n = 2;" =
          some (.ok (), s) ∧ s.Reached ∧
      (s.heap.container s.main).aliases.contains "file_extension" = true ∧
      (s.heap.container ⟨10⟩).attrs.contains "n" = true ∧ s.heap.WellFormed ∧
      ∀ t, s.Later t → s.heap.KeepsAttributes t.heap := by
  obtain ⟨s, hrun, hp⟩ := importingSession.exists_ok
    "import \x22p.dit\x22; class A \x7b Num n = 1; \x7d A a = A(); a.n = 2;"
    (fun s => (s.heap.container s.main).aliases.contains "file_extension" &&
      (s.heap.container ⟨10⟩).attrs.contains "n") (by decide +kernel)
  obtain ⟨halias, hattr⟩ := Bool.and_eq_true_iff.1 hp
  have hs : s.Reached := Session.Reached.evalSource (.start _ _ _ _) hrun
  obtain ⟨hwell, hlater, -⟩ := hs.arena_well_formed
  exact ⟨s, hrun, hs, halias, hattr, hwell, fun t hl => (hlater t hl).2.1⟩

end Ditlang
