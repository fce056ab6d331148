import Ditlang.Proofs.Eval.Statements
import Ditlang.Proofs.Session.Orders

/-!
# Ditlang.Proofs.Eval.Runs

Computations of the evaluator as steps on the store.

`Runs h x post` says of a computation `x` that starts with the store `h` in a sound state: it ends in a
sound state again, with a store that steps lead to from `h`, whether it succeeds or fails, and what is
said to guest workers on the way has the form of a transcript, with jobs of functions of the store; and
when it succeeds, `post` holds of the store it leaves and of its value.

This is what it means to obey a law (`soundLaw`), the most lenient one, so that the rules for laws are
rules for `Runs` (`Obeys.runs`).
-/

namespace Ditlang

open Source (Location View Feed)

/-- How a computation that started in the session `s` may end; `said` compares the sessions by what
is said to guest workers, and knows whether the computation succeeded. -/
def Outcome.Ends {α : Type} (said : Bool → Session → Session → Prop) (s : Session)
    (post : Heap → α → Prop) : Outcome α → Prop
  | .done a t => t.Sound ∧ s.heap.Steps t.session.heap ∧ said true s t.session ∧
      post t.session.heap a
  | .failed _ t => t.Sound ∧ s.heap.Steps t.session.heap ∧ said false s t.session
  | .outOfFuel => True

/-- What is said is a transcript of calls, and the jobs are those of functions of the store. -/
abbrev Outcome.Leads {α : Type} (s : Session) (post : Heap → α → Prop) (o : Outcome α) : Prop :=
  o.Ends Session.Leads s post

namespace Eval

variable {α β : Type} {h : Heap} {P Q : Heap → α → Prop}

/-- A computation that starts with the store `h` takes steps from it and ends with `post`. -/
def Runs (h : Heap) (x : Eval α) (post : Heap → α → Prop) : Prop :=
  ∀ s : EvalState, s.Sound → s.session.heap = h → (x s).Leads s.session post

theorem Runs.pure {a : α} (ha : P h a) : Runs h (Pure.pure a) P := by
  intro s hs hh
  subst hh
  exact ⟨hs, .refl, .of_daemon .refl rfl _, ha⟩

theorem runs_fail (e : Failure) : Runs h (fail e) P := by
  intro s hs hh
  exact ⟨hs, .refl, .of_daemon .refl rfl _⟩

theorem runs_gets {f : EvalState → α} {p : α → Prop}
    (hf : ∀ s : EvalState, s.Sound → s.session.heap = h → p (f s)) :
    Runs h (gets f) fun h' a => h' = h ∧ p a := by
  intro s hs hh
  subst hh
  exact ⟨hs, .refl, .of_daemon .refl rfl _, rfl, hf s hs rfl⟩

/-- A change of the session that keeps its store and its daemon. -/
theorem runs_modifySession {f : Session → Session}
    (hf : ∀ s : Session, s.Sound → (f s).Sound ∧ (f s).heap = s.heap ∧ (f s).daemon = s.daemon) :
    Runs h (modifySession f) fun h' _ => h' = h := by
  intro s hs hh
  subst hh
  obtain ⟨hsound, hsame, hdaemon⟩ := hf s.session hs.session
  have hr : s.reading.Valid (f s.session).heap := by
    rw [hsame]
    exact hs.reading
  have hsteps : s.session.heap.Steps (f s.session).heap := by
    rw [hsame]
    exact .refl
  exact ⟨⟨hsound, hr⟩, hsteps, .of_daemon hsteps hdaemon _, hsame⟩

theorem runs_note (e : BodyEvent) : Runs h (note e) fun h' _ => h' = h :=
  runs_modifySession fun _ hs => ⟨hs.note e, rfl, rfl⟩

theorem runs_setHeap {h' : Heap} (hs : h.Steps h') :
    Runs h (setHeap h') fun g _ => g = h' := by
  intro s hsound hh
  subst hh
  exact ⟨hsound.setHeap hs, hs, .setHeap hs _, rfl⟩

theorem runs_withHeap {f : Heap → α × Heap} (hs : h.Steps (f h).2) :
    Runs h (withHeap f) fun g a => g = (f h).2 ∧ a = (f h).1 := by
  intro s hsound hh
  subst hh
  exact ⟨hsound.setHeap hs, hs, .setHeap hs _, rfl, rfl⟩

theorem runs_advance (resolveNames : Bool) : Runs h (advance resolveNames) fun h' _ => h' = h := by
  intro s hs hh
  subst hh
  have hr := hs.reading
  unfold advance
  dsimp only
  split
  · rename_i t feed ht
    refine ⟨⟨hs.session, hr.body, hr.curr, hr.next, ?_, hr.lastValue⟩, .refl,
      .of_daemon .refl rfl _, rfl⟩
    intro slot hslot
    obtain ⟨word, r, hres, rfl⟩ := Lexer.slot?_next ht hslot
    exact hs.session.heap.closed.hasSlot_resolver hres
  · exact ⟨⟨hs.session, hr.body, hr.prev, hr.curr, hr.next, hr.lastValue⟩, .refl,
      .of_daemon .refl rfl _⟩

theorem runs_scan {f : Feed → Except LexError α × Feed} : Runs h (scan f) fun h' _ => h' = h := by
  intro s hs hh
  subst hh
  have hr := hs.reading
  unfold scan
  split
  · exact ⟨⟨hs.session, hr.body, hr.prev, hr.curr, hr.next, hr.lastValue⟩, .refl,
      .of_daemon .refl rfl _, rfl⟩
  · exact ⟨⟨hs.session, hr.body, hr.prev, hr.curr, hr.next, hr.lastValue⟩, .refl,
      .of_daemon .refl rfl _⟩

end Eval

/-! ## Soundness as a law -/

/-- What is sound may be read anywhere, and may fail in any way. -/
def soundClauses : Law.Clauses where
  stands := EvalState.Sound
  fallen := EvalState.Sound
  course := Session.Leads
  reports _ _ := True
  lenient := True
  place _ := True
  view _ := True
  word _ := True

theorem Outcome.leads_iff {α : Type} {s : Session} {post : Heap → α → Prop} {o : Outcome α} :
    o.Leads s post ↔ o.Obeys soundClauses s post := by
  cases o with
  | done a t => exact .rfl
  | failed e t => exact ⟨fun h => ⟨h.1, h.2.1, h.2.2, trivial⟩, fun h => ⟨h.1, h.2.1, h.2.2.1⟩⟩
  | outOfFuel => exact .rfl

theorem marks_soundClauses (t : Token) : soundClauses.Marks t :=
  ⟨trivial, trivial, .inl trivial⟩

def soundLaw : Law where
  toClauses := soundClauses
  sound := id
  falls := id
  refl _ _ := .of_daemon .refl rfl _
  trans := Session.Leads.trans
  prev _ := trivial
  curr _ := marks_soundClauses _
  ahead hs := ⟨marks_soundClauses _, hs.reading.next, trivial, fun _ _ => trivial⟩
  advance resolveNames hs := Outcome.leads_iff.1 (Eval.runs_advance resolveNames _ hs rfl)
  captureBraces hs := (Outcome.leads_iff.1 (Eval.runs_scan _ hs rfl)).mono fun _ _ _ hh => ⟨hh, trivial⟩
  scanString _ hs := Outcome.leads_iff.1 (Eval.runs_scan _ hs rfl)
  keepValue hs hv := ⟨hs.session, { hs.reading with lastValue := by rintro _ ⟨⟩; exact hv }⟩
  sourced _ := .inl trivial
  viewed _ _ := trivial
  ofText _ := trivial
  anonymous := trivial
  setHeap hs hsteps _ := ⟨hs.setHeap hsteps, .setHeap hsteps _⟩
  setHost {s host} hs _ := by
    have hl := Eval.runs_modifySession (f := fun s => { s with host })
      (fun _ hs => ⟨⟨hs.heap, hs.prelude, hs.main⟩, rfl, rfl⟩) s hs rfl
    exact ⟨hl.1, hl.2.2.1⟩
  raises _ _ := trivial
  traced _ _ _ _ := trivial

namespace Eval

variable {α β : Type} {h : Heap} {P Q : Heap → α → Prop}

theorem runs_iff {x : Eval α} : Runs h x P ↔ Obeys soundLaw h x P :=
  ⟨fun hx s hs hh => Outcome.leads_iff.1 (hx s hs hh),
    fun hx s hs hh => Outcome.leads_iff.2 (hx s hs hh)⟩

alias ⟨Runs.obeys, Obeys.runs⟩ := runs_iff

namespace Runs

theorem mono {x : Eval α} (hx : Runs h x P) (hPQ : ∀ h' a, h.Steps h' → P h' a → Q h' a) :
    Runs h x Q :=
  (hx.obeys.mono hPQ).runs

theorem of_reachable {x : Eval α} (hx : h.Reachable → Runs h x P) : Runs h x P :=
  (Obeys.of_reachable fun hr => (hx hr).obeys).runs

theorem bind {x : Eval α} {f : α → Eval β} {R : Heap → β → Prop} (hx : Runs h x P)
    (hf : ∀ h' a, h.Steps h' → P h' a → Runs h' (f a) R) : Runs h (x >>= f) R :=
  (hx.obeys.bind fun h' a hst ha => (hf h' a hst ha).obeys).runs

theorem bind_same {x : Eval α} {f : α → Eval β} {R : Heap → β → Prop} {p : α → Prop}
    (hx : Runs h x fun h' a => h' = h ∧ p a) (hf : ∀ a, p a → Runs h (f a) R) :
    Runs h (x >>= f) R :=
  (hx.obeys.bind_same fun a ha => (hf a ha).obeys).runs

theorem bind_kept {x : Eval α} {f : α → Eval β} {R : Heap → β → Prop}
    (hx : Runs h x fun h' _ => h' = h) (hf : ∀ a, Runs h (f a) R) : Runs h (x >>= f) R :=
  (hx.obeys.bind_kept fun a => (hf a).obeys).runs

theorem bind_heap {f : Heap → Eval β} {R : Heap → β → Prop} (hf : Runs h (f h) R) :
    Runs h (heap >>= f) R :=
  (Obeys.bind_heap hf.obeys).runs

end Runs

end Eval
end Ditlang
