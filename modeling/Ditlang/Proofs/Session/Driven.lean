import Ditlang.Proofs.History.Bodies
import Ditlang.Proofs.Session.Incremental

/-!
# Ditlang.Proofs.Session.Driven

The sessions that inputs lead to, and the law of their logs. A session is `Driven` when it is a new one,
or an input was run in one: a program, a line of a prompt or a file. Files may change on their own, and
its guest workers may go on or be stopped.

Between two inputs no body is being run, and the log is right (`Driven.atRest`). A failure that an input
ends with has come out of the main dit, as the log has it, or is a throw that nothing caught, or says
that a file could not be read (`AtRest.take`).
-/

namespace Ditlang

open Source (View)

/-- What a session is given. -/
inductive Input where
  | source (text : String)
  | line (text : String)
  | file (path : String)
  /-- Another host: files change on their own. -/
  | host (host : Host)

namespace Session

variable {s s' : Session}

/-- The failure that a result is, if it is one. -/
def failing {α : Type} (r : Except Failure α × Session) : Option Failure × Session :=
  match r with
  | (.ok _, s) => (none, s)
  | (.error e, s) => (some e, s)

/-- Runs an input, and yields the failure that it ends with. -/
def take (s : Session) : Input → Option (Option Failure × Session)
  | .source text => (s.evalSource text).map failing
  | .line text => (s.evalLine text).map failing
  | .file path => (s.runFile path).map failing
  | .host host => some (none, { s with host })

/-- Runs inputs one after the other, and yields the failures that they end with. -/
def feed (s : Session) : List Input → Option (List Failure × Session)
  | [] => some ([], s)
  | input :: rest =>
    (s.take input).bind fun (failure, s) =>
      (s.feed rest).map fun (failures, s) => (failure.toList ++ failures, s)

/-- The sessions that inputs lead to. -/
inductive Driven : Session → Prop where
  | start (mainPath tmpDir : String) (launcher : Option Guest.Launcher) (host : Host) :
      Driven (start mainPath tmpDir launcher host)
  | take {s s' : Session} {input : Input} {failure : Option Failure} :
      Driven s → s.take input = some (failure, s') → Driven s'
  | settle {s : Session} : Driven s → Driven s.settle
  | shutdown {s : Session} : Driven s → Driven s.shutdown.2

/-- What an input may end with when it fails. -/
inductive Ends (s : Session) : Failure → Prop where
  /-- It came out of the main dit. -/
  | left {e : Failure} : e.Left s → Ends s e
  /-- Nothing caught a throw. -/
  | thrown (text : String) : Ends s (uncaughtThrow text)
  /-- A file could not be read. -/
  | unread {host : Host} {path : String} {d : Diagnostic} : host.load path = (.error d, s.host) →
      Ends s (.diagnostic d)

/-- What an input does that is run in a session. -/
structure Passed (s s' : Session) (failure : Option Failure) : Prop where
  orderly : s'.Orderly
  idle : History.active s'.log = History.active s.log
  log : s.log <:+ s'.log
  daemon : s.daemon.isSome → s'.daemon.isSome
  ends : ∀ e, failure = some e → s'.Ends e

/-- A session between two inputs. -/
structure AtRest (s : Session) : Prop where
  reached : s.Reached
  orderly : s.Orderly
  idle : History.active s.log = []

/-! ## Running a source -/

theorem Orderly.enters (ho : s.Orderly) (hs : s.Sound) (hdit : s.heap.IsKind .dit s.main) {view : View}
    (hv : view.Placed) (fragment : Bool) :
    (s.opened view fragment).Enters ⟨s.main, s.mainPath, view⟩ := by
  have hsound := sound_opened hs view fragment
  have hplain : (s.opened view fragment).session.heap.Plain s.main :=
    hdit.plain.mono (steps_opened s view fragment).grows
  refine ⟨hsound, hplain.there, ho.sourced.setBody hdit hv, ?_, ho.unlocated.of_daemon rfl⟩
  exact (ho.recorded.setBody hdit.plain _).began hplain hv

theorem passed_runMain (hs : s.Sound) (ho : s.Orderly) (hdit : s.heap.IsKind .dit s.main) {fuel : Nat}
    {view : View} (hv : view.Placed) {fragment : Bool} {result : Except Failure (Option Value)}
    (hrun : s.runMain fuel view fragment = some (result, s')) :
    s.Passed s' (failing (result, s')).1 := by
  have hret := (Eval.deeper_keeping 0 fuel).body ⟨s.main, s.mainPath, view⟩ fragment _
    (ho.enters hs hdit hv fragment)
  have hpassed : ∀ {t : EvalState} {failure : Option Failure},
      (s.opened view fragment).After ⟨s.main, s.mainPath, view⟩ t →
      (∀ e, failure = some e → t.session.Ends e) → s.Passed t.session failure := by
    intro t failure ht hends
    refine ⟨ht.session, ht.active, ?_, ht.onward.daemon, hends⟩
    exact (List.suffix_cons _ _).trans ht.onward.log
  rw [runMain_eq] at hrun
  dsimp only at hret
  cases hbody : Eval.bodyAt fuel s.main s.mainPath view fragment (s.opened view fragment) with
  | done r t =>
    rw [hbody] at hret
    simp only [Bind.bind, Eval.bind, hbody] at hrun
    obtain ⟨signal, last⟩ := r
    cases signal with
    | normal | returned v =>
      cases hrun
      exact hpassed hret.1 (by rintro _ ⟨⟩)
    | thrown v =>
      dsimp only [ending] at hrun
      rw [uncaught_apply] at hrun
      cases hrender : t.session.heap.render? v with
      | some text =>
        rw [hrender] at hrun
        cases hrun
        refine hpassed hret.1 ?_
        rintro _ ⟨⟩
        exact .thrown text
      | none =>
        rw [hrender] at hrun
        cases hrun
  | failed e t =>
    rw [hbody] at hret
    simp only [Bind.bind, Eval.bind, hbody] at hrun
    cases hrun
    refine hpassed hret.1 ?_
    rintro _ ⟨⟩
    exact .left hret.2
  | outOfFuel =>
    simp only [Bind.bind, Eval.bind, hbody] at hrun
    cases hrun

theorem passed_evalSource (hs : s.Sound) (ho : s.Orderly) (hdit : s.heap.IsKind .dit s.main)
    {text : String} {result : Except Failure Unit}
    (hrun : s.evalSource text = some (result, s')) : s.Passed s' (failing (result, s')).1 := by
  obtain ⟨⟨whole, _⟩, hmain, he⟩ := Option.map_eq_some_iff.1 hrun
  cases he
  have hpassed := passed_runMain hs ho hdit (.ofText text) hmain
  cases whole with
  | ok v => exact hpassed
  | error e => exact hpassed

/-- A file that was run, or could not be read. -/
theorem passed_runFile (hs : s.Sound) (ho : s.Orderly) (hdit : s.heap.IsKind .dit s.main)
    {path : String} {result : Except Failure Unit}
    (hrun : s.runFile path = some (result, s')) : s.Passed s' (failing (result, s')).1 := by
  unfold Session.runFile at hrun
  split at hrun
  · rename_i d host hload
    cases hrun
    refine ⟨⟨ho.sourced, ho.recorded, ho.unlocated.of_daemon rfl⟩, rfl, List.suffix_refl _, id, ?_⟩
    rintro _ ⟨⟩
    exact .unread hload
  · rename_i source host hload
    have hstep : s.heap.Step (s.heap.modifyContainer s.main ({ · with name := some path })) :=
      .describe s.main fun _ => rfl
    have hcodes : s.heap.Codes (s.heap.modifyContainer s.main ({ · with name := some path })) :=
      Heap.codes_modifyContainer _ (.same _) rfl
    have hd := hs.setHeap (.single hstep)
    have hpassed := passed_evalSource (s := { s with
      host
      mainPath := path
      heap := s.heap.modifyContainer s.main ({ · with name := some path }) })
      ⟨hd.heap, hd.prelude, hd.main⟩
      ⟨hcodes.sourced ho.sourced, ho.recorded.codes hcodes, ho.unlocated.of_daemon rfl⟩
      (hdit.mono hstep.grows) hrun
    exact ⟨hpassed.orderly, hpassed.idle, hpassed.log, hpassed.daemon, hpassed.ends⟩

/-! ## Every session -/

theorem AtRest.take (hs : s.AtRest) {input : Input} {failure : Option Failure}
    (ht : s.take input = some (failure, s')) : s'.Reached ∧ s.Passed s' failure := by
  have hsound := hs.reached.sound
  have hdit := hs.reached.main_isKind
  cases input with
  | source text =>
    obtain ⟨⟨result, _⟩, hrun, he⟩ := Option.map_eq_some_iff.1 ht
    have hpassed := passed_evalSource hsound hs.orderly hdit hrun
    have hreached := hs.reached.evalSource hrun
    cases result <;> cases he <;> exact ⟨hreached, hpassed⟩
  | line text =>
    obtain ⟨⟨result, _⟩, hrun, he⟩ := Option.map_eq_some_iff.1 ht
    have hpassed := passed_runMain hsound hs.orderly hdit (.ofText text) hrun
    have hreached := hs.reached.runMain hrun
    cases result <;> cases he <;> exact ⟨hreached, hpassed⟩
  | file path =>
    obtain ⟨⟨result, _⟩, hrun, he⟩ := Option.map_eq_some_iff.1 ht
    have hpassed := passed_runFile hsound hs.orderly hdit hrun
    have hreached := hs.reached.runFile hrun
    cases result <;> cases he <;> exact ⟨hreached, hpassed⟩
  | host host =>
    cases ht
    refine ⟨hs.reached.setHost host, ?_, rfl, List.suffix_refl _, id, nofun⟩
    exact ⟨hs.orderly.sourced, hs.orderly.recorded, hs.orderly.unlocated⟩

theorem AtRest.step (hs : s.AtRest) {input : Input} {failure : Option Failure}
    (ht : s.take input = some (failure, s')) : s'.AtRest := by
  obtain ⟨hreached, hpassed⟩ := hs.take ht
  exact ⟨hreached, hpassed.orderly, hpassed.idle.trans hs.idle⟩

section Start

variable (mainPath tmpDir : String) (launcher : Option Guest.Launcher) (host : Host)

theorem log_start : (start mainPath tmpDir launcher host).log = [] := by
  unfold start
  generalize Prelude.install = p
  rfl

theorem daemon_start : (start mainPath tmpDir launcher host).daemon = none := by
  unfold start
  generalize Prelude.install = p
  rfl

theorem codes_start : Heap.empty.Codes (start mainPath tmpDir launcher host).heap := by
  have hinstall := Heap.codes_install
  unfold start
  revert hinstall
  generalize Prelude.install = p
  exact fun hinstall => hinstall.trans (Heap.codes_alloc (.of_body rfl nofun nofun))

theorem atRest_start : (start mainPath tmpDir launcher host).AtRest := by
  have hwaits : ∀ c, ((start mainPath tmpDir launcher host).heap.container c).Waits :=
    fun c => (codes_start mainPath tmpDir launcher host).new c (Nat.zero_le _)
  have hlog := log_start mainPath tmpDir launcher host
  refine ⟨.start mainPath tmpDir launcher host, ⟨fun c => (hwaits c).toSourced, ?_, ?_⟩, ?_⟩
  · rw [hlog]
    refine ⟨.nil, nofun, fun c hlazy => ?_, nofun⟩
    rw [(hwaits c).waits hlazy]
    rfl
  · intro d hd
    rw [daemon_start] at hd
    cases hd
  · rw [hlog]
    rfl

end Start

/-- What happens to the workers or to files is nothing to the log. -/
theorem AtRest.beside (hs : s.AtRest) (hreached : s'.Reached) (hheap : s'.heap = s.heap)
    (hlog : s'.log = s.log) (hu : s'.Unlocated) : s'.AtRest :=
  ⟨hreached, ⟨hheap ▸ hs.orderly.sourced, hheap ▸ hlog ▸ hs.orderly.recorded, hu⟩, hlog ▸ hs.idle⟩

theorem daemon_shutdown (s : Session) : s.shutdown.2.daemon = none := by
  unfold Session.shutdown
  split
  · assumption
  · generalize Guest.Daemon.shutdown _ _ = stopped
    rfl

/-- Between two inputs the log of every session is right. -/
theorem Driven.atRest (hs : s.Driven) : s.AtRest := by
  induction hs with
  | start mainPath tmpDir launcher host => exact atRest_start mainPath tmpDir launcher host
  | take _ ht ih => exact ih.step ht
  | @settle s _ ih =>
    refine ih.beside ih.reached.settle ?_ ?_ ih.orderly.unlocated.settle
    · unfold Session.settle
      split <;> rfl
    · unfold Session.settle
      split <;> rfl
  | @shutdown s _ ih =>
    refine ih.beside ih.reached.shutdown ?_ ?_ ?_
    · unfold Session.shutdown
      split <;> rfl
    · unfold Session.shutdown
      split <;> rfl
    · intro d hd
      rw [daemon_shutdown] at hd
      cases hd

theorem Driven.feed (hs : s.Driven) {inputs : List Input} {failures : List Failure}
    (hf : s.feed inputs = some (failures, s')) : s'.Driven := by
  induction inputs generalizing s failures with
  | nil =>
    cases hf
    exact hs
  | cons input rest ih =>
    obtain ⟨⟨failure, s₁⟩, htake, hf⟩ := Option.bind_eq_some_iff.1 hf
    obtain ⟨⟨more, _⟩, hrest, he⟩ := Option.map_eq_some_iff.1 hf
    cases he
    exact ih (hs.take htake) hrest

/-- What inputs lead to from a new session can be computed. -/
theorem exists_driven (inputs : List Input) (p : List Failure → Session → Bool)
    (hp : (bare.feed inputs).any (fun (failures, s) => p failures s) = true) :
    ∃ failures s, bare.feed inputs = some (failures, s) ∧ s.Driven ∧ p failures s = true := by
  obtain ⟨⟨failures, s⟩, hfeed, hps⟩ := (Option.any_eq_true _ _).1 hp
  exact ⟨failures, s, hfeed, (Driven.start _ _ _ _).feed hfeed, hps⟩

/-- Whether an event and what led to it pass a test. -/
def happened (p : BodyEvent → List BodyEvent → Bool) (log : List BodyEvent) : Bool :=
  log.tails.any fun
    | [] => false
    | e :: past => p e past

theorem exists_event {p : BodyEvent → List BodyEvent → Bool} {log : List BodyEvent}
    (hp : happened p log = true) : ∃ later e past, log = later ++ e :: past ∧ p e past = true := by
  obtain ⟨suffix, hmem, hsuffix⟩ := List.any_eq_true.1 hp
  obtain ⟨later, hlog⟩ := (List.mem_tails _ _).1 hmem
  cases suffix with
  | nil => cases hsuffix
  | cons e past => exact ⟨later, e, past, hlog.symm, hsuffix⟩

end Session
end Ditlang
