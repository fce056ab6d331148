import Ditlang.Proofs.Eval.Soundness
import Ditlang.Proofs.History.Log

/-!
# Ditlang.Proofs.History.Law

The law of the log as a law of the evaluator.

A state `Stands` in a body when the store and the log are right, the body is the innermost that is being
run, and what is being read stands at places of it. A computation that obeys the law (`logLaw`) ends
standing in the same body, and when it fails the failure is one that can be reported (`Reported`). It was
raised here, without an origin and at a place of the body; or it is on its way out of a body inside, with
an origin. And it is not a fault of the interpreter itself, unless guest workers are involved: this law
is not lenient.
-/

namespace Ditlang

open Source (Location View Feed)

/-- A failure that is a fault of the interpreter itself. -/
def Failure.IsCritical : Failure → Prop
  | .diagnostic d => d.kind = .critical
  | .io _ => False

/-- A failure inside a body, before it comes out of it. -/
inductive Reported (v : View) (log : List BodyEvent) : Failure → Prop where
  | io (reason : String) : Reported v log (.io reason)
  | raised {d : Diagnostic} : History.inFlight log = none → d.origin = none →
      (∀ l, d.pending = some l → l.On v) → Reported v log (.diagnostic d)
  | carried {d : Diagnostic} (frames : List TraceFrame) :
      History.inFlight log = some (.diagnostic d) → d.origin.isSome →
      Reported v log (.diagnostic { d with trace := d.trace ++ frames })
  | fenced {d : Diagnostic} {o : Origin} {func : ContainerId} {path : String} {view : View} :
      log.head? = some (.fenced func path view) → d.origin = some o → o.At path view →
      Reported v log (.diagnostic d)

/-- A session whose bodies can be run and whose log is right. -/
structure Session.Orderly (s : Session) : Prop where
  sourced : s.heap.Sourced
  recorded : History.Recorded s.heap s.log
  unlocated : s.Unlocated

/-- Nothing is on its way out of a body. -/
def Session.Calm (s : Session) : Prop :=
  History.inFlight s.log = none

/-- What comes later: the store has grown, the log as well, and a daemon stays. -/
structure Session.Onward (s s' : Session) : Prop where
  steps : s.heap.Steps s'.heap
  log : s.log <:+ s'.log
  daemon : s.daemon.isSome → s'.daemon.isSome

/-- What is being read stands at places of a body. -/
structure Reading.Within (a : Activation) (r : Reading) : Prop where
  path : r.path = a.path
  placed : a.view.Placed
  feed : r.feed.On a.view
  prev : r.prev.On a.view
  curr : r.curr.On a.view
  next : r.next.On a.view

/-- A body is being run, inside of others. -/
structure EvalState.Inside (a : Activation) (outer : List Activation) (s : EvalState) : Prop where
  sound : s.Sound
  session : s.session.Orderly
  active : History.active s.session.log = a :: outer
  reading : s.reading.Within a

/-- A body is being run, and nothing has failed. -/
structure EvalState.Stands (a : Activation) (outer : List Activation) (s : EvalState) : Prop
    extends s.Inside a outer where
  calm : s.session.Calm

namespace Session.Onward

variable {s s' s'' : Session}

theorem refl (s : Session) : s.Onward s :=
  ⟨.refl, List.suffix_refl _, id⟩

theorem trans (h : s.Onward s') (h' : s'.Onward s'') : s.Onward s'' :=
  ⟨h.steps.trans h'.steps, h.log.trans h'.log, h'.daemon ∘ h.daemon⟩

theorem note (s : Session) (e : BodyEvent) : s.Onward (s.note e) :=
  ⟨.refl, List.suffix_cons _ _, id⟩

end Session.Onward

/-- A session that has the same log keeps what is known of a state. -/
theorem EvalState.Stands.setSession {a : Activation} {outer : List Activation} {s : EvalState}
    (hs : s.Stands a outer) {s' : Session} (hsound : s'.Sound) (hsteps : s.session.heap.Steps s'.heap)
    (hcodes : s.session.heap.Codes s'.heap) (hlog : s'.log = s.session.log) (hu : s'.Unlocated) :
    EvalState.Stands a outer { s with session := s' } where
  sound := ⟨hsound, hs.sound.reading.mono hsteps.grows⟩
  session :=
    ⟨hcodes.sourced hs.session.sourced, hlog ▸ hs.session.recorded.codes hcodes, hu⟩
  active := hlog ▸ hs.active
  reading := hs.reading
  calm := by
    rw [Session.Calm, hlog]
    exact hs.calm

/-- An event is kept that neither begins nor ends a body. -/
theorem EvalState.Stands.note {a : Activation} {outer : List Activation} {s : EvalState}
    (hs : s.Stands a outer) {e : BodyEvent} (hbegins : ∀ c, History.begins c e = false)
    (hactive : ∀ past, History.active (e :: past) = History.active past)
    (hcalm : ∀ past, History.inFlight (e :: past) = none)
    (hready : ∀ c, e = .ready c → c.index < s.session.heap.containers.size ∧
      (s.session.heap.container c).kind.isLazy)
    (hkept : History.Kept (e :: s.session.log)) :
    EvalState.Stands a outer { s with session := s.session.note e } where
  sound := ⟨hs.sound.session.note e, hs.sound.reading⟩
  session := ⟨hs.session.sourced, hs.session.recorded.note hbegins hready hkept,
    hs.session.unlocated.of_daemon rfl⟩
  active := (hactive _).trans hs.active
  reading := hs.reading
  calm := hcalm _

namespace Reported

variable {v : View} {log : List BodyEvent} {e : Failure}

theorem traced (h : Reported v log e) (path : String) (loc : Location) (tag : String) :
    Reported v log (e.traced path loc tag) := by
  cases h with
  | io reason => exact .io reason
  | raised hcalm ho hp =>
    rw [Failure.traced, if_neg (by simp [Failure.isAnnotated, Diagnostic.isAnnotated, ho])]
    exact .raised hcalm ho hp
  | @carried d frames hflight ho =>
    rw [Failure.traced, if_pos (by simpa [Failure.isAnnotated, Diagnostic.isAnnotated] using ho)]
    simp only [Failure.mapDiagnostic, Diagnostic.addTrace, List.append_assoc]
    exact .carried _ hflight ho
  | fenced hhead ho hat =>
    rw [Failure.traced, if_pos (by simp [Failure.isAnnotated, Diagnostic.isAnnotated, ho])]
    exact .fenced hhead ho hat

theorem isCritical_traced {path : String} {loc : Location} {tag : String}
    (h : (e.traced path loc tag).IsCritical) : e.IsCritical := by
  unfold Failure.traced at h
  split at h
  · cases e <;> exact h
  · exact h

end Reported

/-! ## The law -/

/-- What a body that is run inside of others is held to. -/
def logClauses (a : Activation) (outer : List Activation) : Law.Clauses where
  stands := EvalState.Stands a outer
  fallen := EvalState.Inside a outer
  course _ := Session.Onward
  reports s e := Reported a.view s.log e ∧ (e.IsCritical → s.daemon.isSome)
  lenient := False
  place l := l.On a.view
  view := View.Placed
  word _ := True

theorem LexError.raisable {a : Activation} {outer : List Activation} {e : LexError}
    (hloc : e.loc.On a.view) (hf : e.fault ≠ .pastEnd) :
    (logClauses a outer).Raisable e.diagnostic where
  origin := rfl
  pending := by
    rintro _ ⟨⟩
    exact hloc
  ordinary := by
    refine .inr ?_
    unfold diagnostic LexFault.diagnostic
    dsimp only
    split
    · exact absurd ‹_› hf
    · exact nofun

theorem Token.On.marks {a : Activation} {outer : List Activation} {t : Token} (ht : t.On a.view) :
    (logClauses a outer).Marks t :=
  ⟨ht.loc, ht.endLoc, .inr ht.toLaden⟩

namespace EvalState.Stands

variable {a : Activation} {outer : List Activation} {s : EvalState} (hs : s.Stands a outer)

include hs

/-- What is raised in a body is reported there. -/
theorem raises {d : Diagnostic} (hd : (logClauses a outer).Raisable d) :
    (logClauses a outer).reports s.session (.diagnostic d) :=
  ⟨.raised hs.calm hd.origin hd.pending, fun hc => absurd hc (hd.ordinary.resolve_left id)⟩

theorem advance (resolveNames : Bool) : (Eval.advance resolveNames s).Obeys (logClauses a outer)
    s.session fun h _ => h = s.session.heap := by
  have hends := Lexer.next_ends (s.session.heap.resolver s.reading.body) resolveNames
    hs.reading.placed hs.reading.feed
  have hsound := Eval.runs_advance resolveNames s hs.sound rfl
  have hr := hs.reading
  unfold Eval.advance at hsound ⊢
  revert hends hsound
  dsimp only
  generalize Lexer.next _ _ _ = x
  obtain ⟨⟨e⟩ | ⟨t⟩, feed⟩ := x
  · rintro ⟨hfeed, hloc, hfault⟩ hsound
    refine ⟨⟨hsound.1, hs.session, hs.active, ?_⟩, .refl, .refl _, hs.raises (LexError.raisable hloc hfault)⟩
    exact ⟨hr.path, hr.placed, hfeed, hr.prev, hr.curr, hr.next⟩
  · rintro ⟨hfeed, ht⟩ hsound
    refine ⟨⟨⟨hsound.1, hs.session, hs.active, ?_⟩, hs.calm⟩, .refl, .refl _, rfl⟩
    exact ⟨hr.path, hr.placed, hfeed, hr.curr, hr.next, ht⟩

theorem scan {α : Type} {f : Feed → Except LexError α × Feed} {p : α → Prop}
    (hf : a.view.Placed → ∀ feed : Feed, feed.On a.view → Lexer.ScanEnds a.view p (f feed)) :
    (Eval.scan f s).Obeys (logClauses a outer) s.session
      fun h x => h = s.session.heap ∧ p x := by
  have hends := hf hs.reading.placed _ hs.reading.feed
  have hsound := Eval.runs_scan (f := f) s hs.sound rfl
  have hr := hs.reading
  unfold Eval.scan at hsound ⊢
  revert hends hsound
  generalize f s.reading.feed = x
  obtain ⟨⟨e⟩ | ⟨y⟩, feed⟩ := x
  · rintro ⟨hfeed, hloc, hfault⟩ hsound
    refine ⟨⟨hsound.1, hs.session, hs.active, ?_⟩, .refl, .refl _, hs.raises (LexError.raisable hloc hfault)⟩
    exact ⟨hr.path, hr.placed, hfeed, hr.prev, hr.curr, hr.next⟩
  · rintro ⟨hfeed, hy⟩ hsound
    refine ⟨⟨⟨hsound.1, hs.session, hs.active, ?_⟩, hs.calm⟩, .refl, .refl _, rfl, hy⟩
    exact ⟨hr.path, hr.placed, hfeed, hr.prev, hr.curr, hr.next⟩

end EvalState.Stands

def logLaw (a : Activation) (outer : List Activation) : Law where
  toClauses := logClauses a outer
  sound hs := hs.sound
  falls hs := hs.toInside
  refl _ := .refl
  trans := .trans
  prev hs := hs.reading.prev.loc
  curr hs := hs.reading.curr.marks
  ahead hs := ⟨hs.reading.next.marks, hs.sound.reading.next, trivial, fun _ _ => trivial⟩
  advance resolveNames hs := hs.advance resolveNames
  captureBraces hs := hs.scan fun hv _ hf => Lexer.captureBraces_ends hv hf
  scanString quote hs := Outcome.Obeys.mono (hs.scan fun hv _ hf => Lexer.scanString_ends quote hv hf)
    fun _ _ _ hh => hh.1
  keepValue hs hv :=
    have hr := hs.reading
    ⟨⟨soundLaw.keepValue hs.sound hv, hs.session, hs.active,
      ⟨hr.path, hr.placed, hr.feed, hr.prev, hr.curr, hr.next⟩⟩, hs.calm⟩
  sourced hs := .inr hs.session.sourced
  viewed hs := (hs.session.sourced _).placed _
  ofText := View.Placed.ofText
  anonymous := trivial
  setHeap hs hsteps hedits :=
    ⟨hs.setSession (hs.sound.session.setHeap hsteps) hsteps hedits.codes rfl
      (hs.session.unlocated.of_daemon rfl), hsteps, List.suffix_refl _, id⟩
  setHost hs _ :=
    ⟨hs.setSession ⟨hs.sound.session.heap, hs.sound.session.prelude, hs.sound.session.main⟩ .refl
      (.refl _) rfl (hs.session.unlocated.of_daemon rfl), .refl, List.suffix_refl _, id⟩
  raises hs := hs.raises
  traced path loc tag hreports :=
    ⟨hreports.1.traced path loc tag, fun hc => hreports.2 (Reported.isCritical_traced hc)⟩

end Ditlang
