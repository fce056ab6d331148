import Ditlang.Eval.Reading
import Ditlang.Proofs.Eval.Sound
import Ditlang.Proofs.Heap.Edits

/-!
# Ditlang.Proofs.Eval.Law

Laws that a run of the evaluator obeys in each of its parts.

The clauses of a law say in which states the parts of a computation start and end, how a session may
follow another, and which failures may come out. A `Law` is one that going on to the next token, raising
a diagnostic, and changing the store as programs do cannot break. `Obeys L h x post` says of a
computation `x` that starts with the store `h` in a state that `stands`: it ends in such a state, after
steps from `h` and on the course of the law; and when it succeeds, `post` holds of the store it leaves
and of its value. Since the store is part of what is said, a value that was valid earlier is known to be
valid later by growth alone.

The rules follow the operators of the evaluator: sequence (`Obeys.bind`), access to the state, changes
of the store (`obeys_setHeap`, `obeys_withHeap`) and loops (`obeys_repeatUpTo`).
-/

namespace Ditlang

open Source (Location View Feed)

/-! ## What a law is -/

structure Law.Clauses where
  /-- The states between two parts of a computation. -/
  stands : EvalState → Prop
  /-- The states in which a computation fails. -/
  fallen : EvalState → Prop
  /-- How a session follows another, up to a success or up to a failure. -/
  course : Bool → Session → Session → Prop
  /-- The failures with which a session is left. -/
  reports : Session → Failure → Prop
  /-- Whether faults of the interpreter itself are let through. -/
  lenient : Prop
  /-- The places at which something is read. -/
  place : Location → Prop
  /-- The views from which bodies are read. -/
  view : View → Prop
  /-- The words that are read. -/
  word : String → Prop

namespace Law.Clauses

variable (L : Law.Clauses)

/-- What is known of a token that was read. -/
structure Marks (t : Token) : Prop where
  loc : L.place t.loc
  endLoc : L.place t.endLoc
  laden : L.lenient ∨ t.Laden

/-- What is known of the token ahead. -/
structure Ahead (h : Heap) (t : Token) : Prop extends L.Marks t where
  valid : t.Valid h
  word : L.word t.word
  name : ∀ name, t.name? = some name → L.word name

/-- A diagnostic that a body may raise: without an origin, at most at a place that is read, and not a
fault of the interpreter itself. -/
structure Raisable (d : Diagnostic) : Prop where
  origin : d.origin = none
  pending : ∀ l, d.pending = some l → L.place l
  ordinary : L.lenient ∨ d.kind ≠ .critical

/-- What a program makes is made from the views and the words that are read. -/
abbrev Edits : Heap → Heap → Prop :=
  Heap.Edits L.view L.word

end Law.Clauses

/-- How a computation ends that started in the session `s`. -/
def Outcome.Obeys {α : Type} (L : Law.Clauses) (s : Session) (post : Heap → α → Prop) :
    Outcome α → Prop
  | .done b t => L.stands t ∧ s.heap.Steps t.session.heap ∧ L.course true s t.session ∧
      post t.session.heap b
  | .failed e t => L.fallen t ∧ s.heap.Steps t.session.heap ∧ L.course false s t.session ∧
      L.reports t.session e
  | .outOfFuel => True

/-- A law that holds between the parts of whatever the evaluator does, apart from bodies and guests. -/
structure Law extends Law.Clauses where
  sound : ∀ {s}, stands s → s.Sound
  falls : ∀ {s}, stands s → fallen s
  refl : ∀ ok s, course ok s s
  trans : ∀ {ok s s' s''}, course true s s' → course ok s' s'' → course ok s s''
  -- Tokens that were read, and where a reading may go on.
  prev : ∀ {s}, stands s → place s.reading.prev.loc
  curr : ∀ {s}, stands s → toClauses.Marks s.reading.curr
  ahead : ∀ {s}, stands s → toClauses.Ahead s.session.heap s.reading.next
  advance : ∀ {s} resolveNames, stands s →
    (Eval.advance resolveNames s).Obeys toClauses s.session fun h _ => h = s.session.heap
  captureBraces : ∀ {s}, stands s →
    (Eval.scan Lexer.captureBraces s).Obeys toClauses s.session
      fun h v => h = s.session.heap ∧ view v
  scanString : ∀ {s} quote, stands s →
    (Eval.scan (Lexer.scanString quote) s).Obeys toClauses s.session fun h _ => h = s.session.heap
  keepValue : ∀ {s v}, stands s → v.Valid s.session.heap →
    stands { s with reading := { s.reading with lastValue := some v } }
  -- The store, and the bodies in it.
  sourced : ∀ {s}, stands s → lenient ∨ s.session.heap.Sourced
  viewed : ∀ {s c b}, stands s → (s.session.heap.container c).body = some b → view b.view
  ofText : ∀ text, view (.ofText text)
  anonymous : word "anonymous"
  setHeap : ∀ {s h}, stands s → s.session.heap.Steps h → toClauses.Edits s.session.heap h →
    stands { s with session := { s.session with heap := h } } ∧
      course true s.session { s.session with heap := h }
  setHost : ∀ {s} {host : Host}, stands s → host.files = s.session.host.files →
    stands { s with session := { s.session with host } } ∧
      course true s.session { s.session with host }
  -- Failures.
  raises : ∀ {s d}, stands s → toClauses.Raisable d → reports s.session (.diagnostic d)
  traced : ∀ {s e} path loc tag, reports s e → reports s (e.traced path loc tag)

section Raisable

variable {L : Law.Clauses}

theorem Diagnostic.raisable_malformed (message : String) : L.Raisable (malformed message) :=
  ⟨rfl, nofun, .inr nofun⟩

theorem Diagnostic.raisable_typeMismatch (message : String) : L.Raisable (typeMismatch message) :=
  ⟨rfl, nofun, .inr nofun⟩

theorem Law.Clauses.Raisable.at_ {d : Diagnostic} (hd : L.Raisable d) {l : Location}
    (hl : L.place l) : L.Raisable (d.at_ l) where
  origin := hd.origin
  pending := by
    rintro _ ⟨⟩
    exact hl
  ordinary := hd.ordinary

theorem HeapFault.Ordinary.raisable {f : HeapFault} (hf : f.Ordinary) : L.Raisable f.diagnostic :=
  ⟨rfl, nofun, .inr hf⟩

end Raisable

theorem Outcome.Obeys.mono {α : Type} {L : Law.Clauses} {s : Session} {P Q : Heap → α → Prop}
    {o : Outcome α} (ho : o.Obeys L s P) (hPQ : ∀ h b, s.heap.Steps h → P h b → Q h b) :
    o.Obeys L s Q := by
  cases o with
  | done b t => exact ⟨ho.1, ho.2.1, ho.2.2.1, hPQ _ b ho.2.1 ho.2.2.2⟩
  | failed e t => exact ho
  | outOfFuel => trivial

theorem Outcome.Obeys.after {α : Type} {L : Law} {s s' : Session} {post : Heap → α → Prop}
    {o : Outcome α} (ho : o.Obeys L.toClauses s' post) (hsteps : s.heap.Steps s'.heap)
    (hcourse : L.course true s s') : o.Obeys L.toClauses s post := by
  cases o with
  | done b t => exact ⟨ho.1, hsteps.trans ho.2.1, L.trans hcourse ho.2.2.1, ho.2.2.2⟩
  | failed e t => exact ⟨ho.1, hsteps.trans ho.2.1, L.trans hcourse ho.2.2.1, ho.2.2.2⟩
  | outOfFuel => trivial

namespace Eval

variable {α β : Type} {L : Law} {h : Heap} {t : Token} {P Q : Heap → α → Prop}

/-- A computation that starts in a state that stands, with a property of the state, keeps to the law
and ends with `post`. -/
def ObeysIf (L : Law) (pre : EvalState → Prop) (x : Eval α) (post : Heap → α → Prop) : Prop :=
  ∀ s, L.stands s → pre s → (x s).Obeys L.toClauses s.session post

def Obeys (L : Law) (h : Heap) (x : Eval α) (post : Heap → α → Prop) : Prop :=
  ObeysIf L (fun s => s.session.heap = h) x post

/-- A computation that starts with the store `h` and with the token `t` ahead. -/
def ObeysAt (L : Law) (h : Heap) (t : Token) (x : Eval α) (post : Heap → α → Prop) : Prop :=
  ObeysIf L (fun s => s.session.heap = h ∧ s.reading.next = t) x post

/-! ## Sequences -/

theorem ObeysIf.bind {pre : EvalState → Prop} {x : Eval α} {f : α → Eval β} {R : Heap → β → Prop}
    (hx : ObeysIf L pre x P)
    (hf : ∀ s, pre s → ∀ h' b, s.session.heap.Steps h' → P h' b → Obeys L h' (f b) R) :
    ObeysIf L pre (x >>= f) R := by
  intro s hs hpre
  have hl := hx s hs hpre
  rw [bind_apply, Eval.bind]
  revert hl
  cases x s with
  | done b u =>
    rintro ⟨hu, hsteps, hcourse, hb⟩
    exact (hf s hpre _ b hsteps hb u hu rfl).after hsteps hcourse
  | failed e u => exact id
  | outOfFuel => exact id

theorem ObeysAt.bind {x : Eval α} {f : α → Eval β} {R : Heap → β → Prop} (hx : ObeysAt L h t x P)
    (hf : ∀ h' b, h.Steps h' → P h' b → Obeys L h' (f b) R) : ObeysAt L h t (x >>= f) R :=
  ObeysIf.bind hx fun _ hpre h' b hst => hf h' b (hpre.1 ▸ hst)

/-- What obeys whatever token is ahead. -/
theorem Obeys.at {x : Eval α} (hx : Obeys L h x P) : ObeysAt L h t x P :=
  fun s hs hpre => hx s hs hpre.1

namespace Obeys

theorem mono {x : Eval α} (hx : Obeys L h x P) (hPQ : ∀ h' b, h.Steps h' → P h' b → Q h' b) :
    Obeys L h x Q := by
  rintro s hs rfl
  exact (hx s hs rfl).mono hPQ

/-- What a computation starts from is a state that stands. -/
theorem of_standing {x : Eval α}
    (hx : ∀ s, L.stands s → s.session.heap = h → Obeys L h x P) : Obeys L h x P :=
  fun s hs hh => hx s hs hh s hs hh

theorem of_reachable {x : Eval α} (hx : h.Reachable → Obeys L h x P) : Obeys L h x P :=
  of_standing fun _ hs hh => hx (hh ▸ (L.sound hs).session.heap)

/-- The bodies of a store can be run, or else a fault of the interpreter is let through. -/
theorem of_sourced {x : Eval α} (hx : L.lenient ∨ h.Sourced → Obeys L h x P) : Obeys L h x P :=
  of_standing fun _ hs hh => hx (hh ▸ L.sourced hs)

theorem of_viewed {x : Eval α}
    (hx : (∀ c b, (h.container c).body = some b → L.view b.view) → Obeys L h x P) : Obeys L h x P :=
  of_standing fun _ hs hh => hx fun _ _ hb => L.viewed hs (hh ▸ hb)

theorem pure {b : α} (hb : P h b) : Obeys L h (Pure.pure b) P := by
  rintro s hs rfl
  exact ⟨hs, .refl, L.refl _ _, hb⟩

theorem bind {x : Eval α} {f : α → Eval β} {R : Heap → β → Prop} (hx : Obeys L h x P)
    (hf : ∀ h' b, h.Steps h' → P h' b → Obeys L h' (f b) R) : Obeys L h (x >>= f) R := by
  refine ObeysIf.bind hx ?_
  rintro s rfl h' b hst hb
  exact hf h' b hst hb

theorem bind_same {x : Eval α} {f : α → Eval β} {R : Heap → β → Prop} {p : α → Prop}
    (hx : Obeys L h x fun h' b => h' = h ∧ p b) (hf : ∀ b, p b → Obeys L h (f b) R) :
    Obeys L h (x >>= f) R := by
  refine hx.bind ?_
  rintro h' b - ⟨rfl, hb⟩
  exact hf b hb

theorem bind_kept {x : Eval α} {f : α → Eval β} {R : Heap → β → Prop}
    (hx : Obeys L h x fun h' _ => h' = h) (hf : ∀ b, Obeys L h (f b) R) :
    Obeys L h (x >>= f) R := by
  refine hx.bind ?_
  rintro h' b - rfl
  exact hf b

theorem ite {c : Prop} [Decidable c] {x y : Eval α} (hx : c → Obeys L h x P)
    (hy : ¬ c → Obeys L h y P) : Obeys L h (if c then x else y) P := by
  split
  · rename_i hc
    exact hx hc
  · rename_i hc
    exact hy hc

/-- Something that comes first under a condition and leaves the store alone. -/
theorem when {c : Prop} [Decidable c] {x : Eval Unit} {k : Unit → Eval β} {R : Heap → β → Prop}
    (hx : Obeys L h x fun h' _ => h' = h) (hk : ∀ u, Obeys L h (k u) R) :
    Obeys L h (if c then x >>= k else k ()) R :=
  ite (fun _ => hx.bind_kept hk) fun _ => hk ()

theorem bind_ite {c : Prop} [Decidable c] {x y : Eval α} {k : α → Eval β} {R : Heap → β → Prop}
    (hx : Obeys L h x P) (hy : Obeys L h y P)
    (hk : ∀ h' b, h.Steps h' → P h' b → Obeys L h' (k b) R) :
    Obeys L h (if c then x >>= k else y >>= k) R :=
  ite (fun _ => hx.bind hk) fun _ => hy.bind hk

end Obeys

/-! ## Ends -/

theorem obeys_raise {d : Diagnostic} (hd : L.Raisable d) : Obeys L h (raise d) P := by
  rintro s hs rfl
  exact ⟨L.falls hs, .refl, L.refl _ _, L.raises hs hd⟩

theorem obeys_malformedAt (message : String) {l : Location} (hl : L.place l) :
    Obeys L h (malformedAt message l) P :=
  obeys_raise ((Diagnostic.raisable_malformed _).at_ hl)

theorem obeys_ofDiagnostic {x : Except Diagnostic α} (hx : ∀ d, x = .error d → L.Raisable d) :
    Obeys L h (ofDiagnostic x) fun h' b => h' = h ∧ x = .ok b := by
  cases x with
  | ok b => exact .pure ⟨rfl, rfl⟩
  | error d => exact obeys_raise (hx d rfl)

theorem obeys_ofDiagnostic_mapError {ε : Type} {f : ε → Diagnostic} {x : Except ε α}
    (hx : ∀ e, x = .error e → L.Raisable (f e)) :
    Obeys L h (ofDiagnostic (x.mapError f)) fun h' b => h' = h ∧ x = .ok b := by
  cases x with
  | ok b => exact .pure ⟨rfl, rfl⟩
  | error e => exact obeys_raise (hx e rfl)

theorem obeys_ofHeap {x : Except HeapFault α} (hx : ∀ f, x = .error f → f.Ordinary) :
    Obeys L h (ofHeap x) fun h' b => h' = h ∧ x = .ok b :=
  obeys_ofDiagnostic_mapError fun f hf => (hx f hf).raisable

theorem obeys_ofHeapAt {l : Location} (hl : L.place l) {x : Except HeapFault α}
    (hx : ∀ f, x = .error f → f.Ordinary) :
    Obeys L h (ofHeapAt l x) fun h' b => h' = h ∧ x = .ok b :=
  obeys_ofDiagnostic_mapError fun f hf => (hx f hf).raisable.at_ hl

theorem obeys_ofOption (x : Option α) :
    Obeys L h (ofOption x) fun h' b => h' = h ∧ x = some b := by
  cases x with
  | some b => exact .pure ⟨rfl, rfl⟩
  | none => exact fun _ _ _ => trivial

theorem obeys_traced {f : EvalState → Failure → Failure} {x : Eval α} (hx : Obeys L h x P)
    (hf : ∀ s e, ∃ path loc tag, f s e = e.traced path loc tag) :
    Obeys L h (mapFailure f x) P := by
  rintro s hs rfl
  have hl := hx s hs rfl
  revert hl
  unfold mapFailure
  cases x s with
  | done b u => exact id
  | failed e u =>
    rintro ⟨hu, hsteps, hcourse, hreports⟩
    obtain ⟨path, loc, tag, he⟩ := hf u e
    simp only [he]
    exact ⟨hu, hsteps, hcourse, L.traced path loc tag hreports⟩
  | outOfFuel => exact id

theorem obeys_framed {loc : Location} {tag : String} {x : Eval α} (hx : Obeys L h x P) :
    Obeys L h (framed loc tag x) P :=
  obeys_traced hx fun s _ => ⟨s.reading.path, loc, tag, rfl⟩

/-! ## Access to the state -/

theorem obeys_gets {f : EvalState → α} {p : α → Prop}
    (hf : ∀ s, L.stands s → s.session.heap = h → p (f s)) :
    Obeys L h (gets f) fun h' b => h' = h ∧ p b := by
  intro s hs hh
  exact ⟨hs, .refl, L.refl _ _, hh, hf s hs hh⟩

theorem obeys_heap : Obeys L h heap fun h' b => h' = h ∧ b = h :=
  obeys_gets fun _ _ hh => hh

theorem Obeys.bind_heap {f : Heap → Eval β} {R : Heap → β → Prop} (hf : Obeys L h (f h) R) :
    Obeys L h (heap >>= f) R := by
  refine obeys_heap.bind_same fun b hb => ?_
  rw [hb]
  exact hf

theorem obeys_session : Obeys L h session fun h' s => h' = h ∧ s.Sound ∧ s.heap = h :=
  obeys_gets fun _ hs hh => ⟨(L.sound hs).session, hh⟩

theorem obeys_reading :
    Obeys L h reading fun h' r => h' = h ∧ r.Valid h ∧ L.place r.prev.loc :=
  obeys_gets fun _ hs hh => ⟨hh ▸ (L.sound hs).reading, L.prev hs⟩

theorem obeys_curr : Obeys L h curr fun h' t => h' = h ∧ L.Marks t :=
  obeys_gets fun _ hs _ => L.curr hs

theorem obeys_next : Obeys L h next fun h' t => h' = h ∧ L.Ahead h t :=
  obeys_gets fun _ hs hh => hh ▸ L.ahead hs

/-- The token ahead is the one that is looked at. -/
theorem Obeys.bind_next {f : Token → Eval β} {R : Heap → β → Prop}
    (hf : ∀ t, L.Ahead h t → ObeysAt L h t (f t) R) : Obeys L h (next >>= f) R := by
  rintro s hs rfl
  exact hf s.reading.next (L.ahead hs) s hs ⟨rfl, rfl⟩

/-! ## Changes of the session -/

/-- A change of the host that leaves its files alone. -/
theorem obeys_setHost {f : Session → Host} (hf : ∀ s : Session, (f s).files = s.host.files) :
    Obeys L h (modifySession fun s => { s with host := f s }) fun h' _ => h' = h := by
  rintro s hs rfl
  obtain ⟨ht, hcourse⟩ := L.setHost hs (hf s.session)
  exact ⟨ht, .refl, hcourse, rfl⟩

theorem obeys_setHeap {h' : Heap} (hsteps : h.Steps h') (hedits : L.Edits h h') :
    Obeys L h (setHeap h') fun g _ => g = h' := by
  rintro s hs rfl
  obtain ⟨ht, hcourse⟩ := L.setHeap hs hsteps hedits
  exact ⟨ht, hsteps, hcourse, rfl⟩

theorem obeys_withHeap {f : Heap → α × Heap} (hsteps : h.Steps (f h).2)
    (hedits : L.Edits h (f h).2) : Obeys L h (withHeap f) fun g b => g = (f h).2 ∧ b = (f h).1 := by
  rintro s hs rfl
  obtain ⟨ht, hcourse⟩ := L.setHeap hs hsteps hedits
  exact ⟨ht, hsteps, hcourse, rfl, rfl⟩

/-! ## Loops -/

/-- The invariant of a loop: it holds of the argument of each round, and the result satisfies the
postcondition. -/
def Rounds (I : Heap → α → Prop) (post : Heap → β → Prop) (h : Heap) : α ⊕ β → Prop
  | .inl a => I h a
  | .inr b => post h b

theorem obeys_repeatUpTo {I : Heap → α → Prop} {post : Heap → β → Prop} {step : α → Eval (α ⊕ β)}
    (hstep : ∀ h' b, h.Steps h' → I h' b → Obeys L h' (step b) (Rounds I post)) (n : Nat) {b : α}
    (hb : I h b) : Obeys L h (repeatUpTo n step b) post := by
  have hloop : ∀ n h' b, h.Steps h' → I h' b → Obeys L h' (repeatUpTo n step b) post := by
    intro n
    induction n with
    | zero => exact fun _ _ _ _ _ _ _ => trivial
    | succ n ih =>
      rintro h' b hh' hb s hs rfl
      have hl := hstep _ b hh' hb s hs rfl
      rw [repeatUpTo]
      revert hl
      cases step b s with
      | done r u =>
        rintro ⟨hu, hsteps, hcourse, hr⟩
        cases r with
        | inl c => exact (ih _ c (hh'.trans hsteps) hr u hu rfl).after hsteps hcourse
        | inr c => exact ⟨hu, hsteps, hcourse, hr⟩
      | failed e u => exact id
      | outOfFuel => exact id
  exact hloop n h b .refl hb

theorem obeys_repeatTokens {I : Heap → α → Prop} {post : Heap → β → Prop}
    {step : α → Eval (α ⊕ β)}
    (hstep : ∀ h' b, h.Steps h' → I h' b → Obeys L h' (step b) (Rounds I post)) {b : α}
    (hb : I h b) : Obeys L h (repeatTokens step b) post :=
  fun s hs hh => obeys_repeatUpTo hstep _ hb s hs hh

theorem obeys_forIn {I : Heap → Prop} {f : α → PUnit → Eval (ForInStep PUnit)} (xs : List α)
    (hf : ∀ h' x u, h.Steps h' → x ∈ xs → I h' →
      Obeys L h' (f x u) fun g r => I g ∧ ∃ u, r = ForInStep.yield u) (hi : I h) (u : PUnit) :
    Obeys L h (forIn xs u f) fun g _ => I g := by
  induction xs generalizing h u with
  | nil => exact .pure hi
  | cons x xs ih =>
    rw [List.forIn_cons]
    refine (hf h x u .refl List.mem_cons_self hi).bind ?_
    rintro g _ hhg ⟨hg, u', rfl⟩
    exact ih (fun g' y v hg' hy => hf g' y v (hhg.trans hg') (List.mem_cons_of_mem _ hy)) hg u'

end Eval
end Ditlang
