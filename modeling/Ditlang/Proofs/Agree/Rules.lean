import Ditlang.Proofs.Agree.Linked

/-!
# Ditlang.Proofs.Agree.Rules

Computations that do the same in two runs side by side. `Agrees p h x y post` says of two
computations that start with the store `h` in linked states: what the first does, the second does
too. If the second source goes on, this is said of a first run that succeeds, and only unless it
comes to the end of its source; once it is there, it stays there.

The rules follow the operators of the evaluator, as those of `Runs` do, and keep of what `Runs`
says all but what is told to guest workers.
-/

namespace Ditlang

open Source (Location View Feed)

/-- What it means for results of two runs to be the same: places may differ. -/
class Likeness (α : Type) where
  Alike : α → α → Prop
  refl (a : α) : Alike a a

/-- Results without places are the same when they are equal. -/
instance (priority := low) {α : Type} : Likeness α :=
  ⟨Eq, fun _ => rfl⟩

instance : Likeness Token :=
  ⟨Token.Alike, fun _ => ⟨rfl, rfl⟩⟩

instance : Likeness Reading :=
  ⟨Reading.Alike, fun _ => ⟨rfl, rfl, rfl, rfl, rfl⟩⟩

instance : Likeness View :=
  ⟨fun v w => v.unplaced = w.unplaced, fun _ => rfl⟩

instance : Likeness Body :=
  ⟨fun b c => b.unplaced = c.unplaced, fun _ => rfl⟩

/-- How the second run ends, given how the first does. -/
def Outcome.AgreesWith {α : Type} [Likeness α] (p : Pairing) (o o' : Outcome α) : Prop :=
  match o with
  | .done a s => Lost p s ∨ ∃ b t, o' = .done b t ∧ Likeness.Alike a b ∧ Linked p s t
  | .failed e s => p.more = none → ∃ e' t, o' = .failed e' t ∧ e.unplaced = e'.unplaced ∧
      s.session.Alike t.session ∧ s.session.main = p.main ∧ s.reading.path = t.reading.path
  | .outOfFuel => p.more = none → o' = .outOfFuel

theorem Outcome.agreesWith_of_lost {α : Type} [Likeness α] {p : Pairing} {o : Outcome α}
    (hmore : p.more ≠ none) (ho : ∀ a s, o = .done a s → Lost p s) (o' : Outcome α) :
    o.AgreesWith p o' := by
  cases o with
  | done a s => exact .inl (ho a s rfl)
  | failed e s => exact fun hnone => absurd hnone hmore
  | outOfFuel => exact fun hnone => absurd hnone hmore

namespace Eval

variable {α β : Type} {p : Pairing} {h : Heap} {P Q : Heap → α → Prop}

/-- A computation that starts with the store `h` takes steps from it and ends with `post`. -/
def Lands (h : Heap) (x : Eval α) (post : Heap → α → Prop) : Prop :=
  ∀ s : EvalState, s.Sound → s.session.heap = h →
    (x s).Ends (fun _ _ _ => True) s.session post

theorem Runs.lands {x : Eval α} (hx : Runs h x P) : Lands h x P := by
  intro s hs hh
  have hl := hx s hs hh
  revert hl
  cases x s with
  | done a t => exact fun hl => ⟨hl.1, hl.2.1, trivial, hl.2.2.2⟩
  | failed e t => exact fun hl => ⟨hl.1, hl.2.1, trivial⟩
  | outOfFuel => exact id

theorem Lands.of_done {x : Eval α} (hx : Lands h x P) {s t : EvalState} {a : α} (hs : s.Sound)
    (hh : s.session.heap = h) (hdone : x s = .done a t) :
    t.Sound ∧ h.Steps t.session.heap ∧ P t.session.heap a := by
  have hl := hx s hs hh
  rw [hdone] at hl
  exact ⟨hl.1, hh ▸ hl.2.1, hl.2.2.2⟩

/-- Two computations do the same. -/
structure Agrees [Likeness α] (p : Pairing) (h : Heap) (x y : Eval α) (post : Heap → α → Prop) :
    Prop where
  lands : Lands h x post
  agrees : ∀ s t, s.Sound → s.session.heap = h → Linked p s t → (x s).AgreesWith p (y t)
  lost : ∀ s, s.Sound → s.session.heap = h → Lost p s → ∀ a t, x s = .done a t → Lost p t

namespace Agrees

theorem mono [Likeness α] {x y : Eval α} (hx : Agrees p h x y P)
    (hPQ : ∀ h' a, h.Steps h' → P h' a → Q h' a) : Agrees p h x y Q := by
  refine ⟨fun s hs hh => ?_, hx.agrees, hx.lost⟩
  subst hh
  have hl := hx.lands s hs rfl
  revert hl
  cases x s with
  | done a t => exact fun hl => ⟨hl.1, hl.2.1, trivial, hPQ _ a hl.2.1 hl.2.2.2⟩
  | failed e t => exact id
  | outOfFuel => exact id

theorem of_reachable [Likeness α] {x y : Eval α} (hx : h.Reachable → Agrees p h x y P) :
    Agrees p h x y P := by
  refine ⟨fun s hs hh => ?_, fun s t hs hh => ?_, fun s hs hh => ?_⟩
  · exact (hx (hh ▸ hs.session.heap)).lands s hs hh
  · exact (hx (hh ▸ hs.session.heap)).agrees s t hs hh
  · exact (hx (hh ▸ hs.session.heap)).lost s hs hh

theorem pure [Likeness α] {a b : α} (ha : P h a) (hab : Likeness.Alike a b) :
    Agrees p h (Pure.pure a) (Pure.pure b) P := by
  refine ⟨(Runs.pure ha).lands, fun s t hs hh hst => .inr ⟨b, t, rfl, hab, hst⟩, ?_⟩
  rintro s - - hs a t ⟨⟩
  exact hs

theorem done [Likeness α] {a : α} (ha : P h a) : Agrees p h (Pure.pure a) (Pure.pure a) P :=
  .pure ha (Likeness.refl a)

section Bind

variable [Likeness α] [Likeness β] {x y : Eval α} {f g : α → Eval β} {R : Heap → β → Prop}

/-- Two runs of a first part, each with what comes after it. -/
theorem after {s t : EvalState} (hl : (x s).Ends (fun _ _ _ => True) s.session P)
    (ha : (x s).AgreesWith p (y t))
    (hf : ∀ h' a b, s.session.heap.Steps h' → P h' a → Likeness.Alike a b →
      Agrees p h' (f a) (g b) R) :
    ((x >>= f) s).AgreesWith p ((y >>= g) t) := by
  rw [bind_apply, Eval.bind, bind_apply, Eval.bind]
  revert hl ha
  cases x s with
  | done a u =>
    rintro ⟨hu, hsteps, -, hpost⟩ (hlost | ⟨b, v, hy, hab, huv⟩)
    · -- The second run may have gone on in any way; the first one stays lost.
      have hstays := (hf _ a a hsteps hpost (Likeness.refl a)).lost u hu rfl hlost
      exact Outcome.agreesWith_of_lost hlost.more hstays _
    · rw [hy]
      exact (hf _ a b hsteps hpost hab).agrees u v hu rfl huv
  | failed e u =>
    intro _ ha hmore
    obtain ⟨e', v, hy, hfail⟩ := ha hmore
    rw [hy]
    exact ⟨e', v, rfl, hfail⟩
  | outOfFuel =>
    intro _ ha hmore
    rw [ha hmore]

theorem bind (hx : Agrees p h x y P)
    (hf : ∀ h' a b, h.Steps h' → P h' a → Likeness.Alike a b → Agrees p h' (f a) (g b) R) :
    Agrees p h (x >>= f) (y >>= g) R := by
  have hself : ∀ h' a, h.Steps h' → P h' a → Agrees p h' (f a) (g a) R :=
    fun h' a hsteps ha => hf h' a a hsteps ha (Likeness.refl a)
  refine ⟨fun s hs hh => ?_, fun s t hs hh hst => ?_, fun s hs hh hlost => ?_⟩
  · subst hh
    have hl := hx.lands s hs rfl
    rw [bind_apply, Eval.bind]
    revert hl
    cases x s with
    | done a t =>
      rintro ⟨ht, hsteps, -, ha⟩
      have hl := (hself _ a hsteps ha).lands t ht rfl
      dsimp only
      revert hl
      cases f a t with
      | done b u => exact fun hl => ⟨hl.1, hsteps.trans hl.2.1, trivial, hl.2.2.2⟩
      | failed e u => exact fun hl => ⟨hl.1, hsteps.trans hl.2.1, trivial⟩
      | outOfFuel => exact id
    | failed e t => exact id
    | outOfFuel => exact id
  · subst hh
    exact after (hx.lands s hs rfl) (hx.agrees s t hs rfl hst) hf
  · subst hh
    intro b u hb
    obtain ⟨a, t, ha, hb⟩ := bind_eq_done_iff.1 hb
    have hl := hx.lands s hs rfl
    rw [ha] at hl
    exact (hself _ a hl.2.1 hl.2.2.2).lost t hl.1 rfl (hx.lost s hs rfl hlost a t ha) b u hb

theorem bind_same {q : α → Prop} (hx : Agrees p h x y fun h' a => h' = h ∧ q a)
    (hf : ∀ a b, q a → Likeness.Alike a b → Agrees p h (f a) (g b) R) :
    Agrees p h (x >>= f) (y >>= g) R := by
  refine hx.bind ?_
  rintro h' a b - ⟨rfl, ha⟩ hab
  exact hf a b ha hab

theorem bind_kept (hx : Agrees p h x y fun h' _ => h' = h)
    (hf : ∀ a b, Likeness.Alike a b → Agrees p h (f a) (g b) R) :
    Agrees p h (x >>= f) (y >>= g) R := by
  refine hx.bind ?_
  rintro h' a b - rfl hab
  exact hf a b hab

theorem ite {c : Prop} [Decidable c] {x y x' y' : Eval α} (hx : c → Agrees p h x x' P)
    (hy : ¬ c → Agrees p h y y' P) :
    Agrees p h (if c then x else y) (if c then x' else y') P := by
  split
  · rename_i hc
    exact hx hc
  · rename_i hc
    exact hy hc

/-- Something that comes first under a condition and leaves the store alone. -/
theorem when {c : Prop} [Decidable c] {x y : Eval Unit} {k k' : Unit → Eval β}
    (hx : Agrees p h x y fun h' _ => h' = h) (hk : ∀ u, Agrees p h (k u) (k' u) R) :
    Agrees p h (if c then x >>= k else k ()) (if c then y >>= k' else k' ()) R := by
  refine ite (fun _ => hx.bind_kept ?_) fun _ => hk ()
  rintro u - rfl
  exact hk u

theorem bind_ite {c : Prop} [Decidable c] {x y x' y' : Eval α} (hx : Agrees p h x x' P)
    (hy : Agrees p h y y' P)
    (hf : ∀ h' a b, h.Steps h' → P h' a → Likeness.Alike a b → Agrees p h' (f a) (g b) R) :
    Agrees p h (if c then x >>= f else y >>= f) (if c then x' >>= g else y' >>= g) R :=
  ite (fun _ => hx.bind hf) fun _ => hy.bind hf

end Bind

end Agrees

/-! ## Ends -/

section

variable [Likeness α] [Likeness β]

theorem agrees_fail {e e' : Failure} (he : e.unplaced = e'.unplaced) :
    Agrees p h (fail e) (fail e') P := by
  refine ⟨(runs_fail e).lands, fun s t _ _ hst _ => ?_, ?_⟩
  · exact ⟨e', t, rfl, he, hst.session, hst.main, hst.reading.path⟩
  · rintro s - - - a t ⟨⟩

theorem agrees_raise {d d' : Diagnostic} (hd : d.unplaced = d'.unplaced) :
    Agrees p h (raise d) (raise d') P :=
  agrees_fail (congrArg Failure.diagnostic hd)

theorem agrees_malformedAt (message : String) (loc loc' : Location) :
    Agrees p h (malformedAt message loc) (malformedAt message loc') P :=
  agrees_raise rfl

theorem agrees_outOfFuel : Agrees p h outOfFuel outOfFuel P := by
  refine ⟨fun _ _ _ => trivial, fun _ _ _ _ _ _ => rfl, ?_⟩
  rintro s - - - a t ⟨⟩

theorem agrees_ofOption (x : Option α) :
    Agrees p h (ofOption x) (ofOption x) fun h' a => h' = h ∧ x = some a := by
  cases x with
  | some a => exact .done ⟨rfl, rfl⟩
  | none => exact agrees_outOfFuel

theorem agrees_ofDiagnostic (x : Except Diagnostic α) :
    Agrees p h (ofDiagnostic x) (ofDiagnostic x) fun h' a => h' = h ∧ x = .ok a := by
  cases x with
  | ok a => exact .done ⟨rfl, rfl⟩
  | error d => exact agrees_raise rfl

section

variable {ε : Type} {F F' : ε → Diagnostic} (hF : ∀ e, (F e).unplaced = (F' e).unplaced)

include hF

theorem agrees_ofDiagnostic_mapError (x : Except ε α) :
    Agrees p h (ofDiagnostic (x.mapError F)) (ofDiagnostic (x.mapError F'))
      fun h' a => h' = h ∧ x = .ok a := by
  cases x with
  | ok a => exact .done ⟨rfl, rfl⟩
  | error e => exact agrees_raise (hF e)

/-- Two results that are the same but for what `φ` leaves out of their values. -/
theorem Agrees.bind_ofDiagnostic {x y : Except ε α} {γ : Type} (φ : α → γ)
    (hxy : x.map φ = y.map φ) {f g : α → Eval β} {R : Heap → β → Prop}
    (hf : ∀ a b, x = .ok a → φ a = φ b → Agrees p h (f a) (g b) R) :
    Agrees p h (ofDiagnostic (x.mapError F) >>= f) (ofDiagnostic (y.mapError F') >>= g) R := by
  cases x with
  | ok a =>
    cases y with
    | ok b => exact hf a b rfl (Except.ok.inj hxy)
    | error e => cases hxy
  | error e =>
    cases y with
    | ok b => cases hxy
    | error e' =>
      obtain rfl : e = e' := Except.error.inj hxy
      have hfail : Agrees p h (raise (F e)) (raise (F' e)) fun (_ : Heap) (_ : α) => False :=
        agrees_raise (hF e)
      exact hfail.bind fun _ _ _ _ hfalse => hfalse.elim

end

theorem agrees_ofHeap (x : Except HeapFault α) :
    Agrees p h (ofHeap x) (ofHeap x) fun h' a => h' = h ∧ x = .ok a :=
  agrees_ofDiagnostic_mapError (fun _ => rfl) x

theorem agrees_ofHeapAt (loc loc' : Location) (x : Except HeapFault α) :
    Agrees p h (ofHeapAt loc x) (ofHeapAt loc' x) fun h' a => h' = h ∧ x = .ok a :=
  have hF (e : HeapFault) : (e.diagnostic.at_ loc).unplaced = (e.diagnostic.at_ loc').unplaced :=
    rfl
  agrees_ofDiagnostic_mapError hF x

section

variable {x y : Except HeapFault α} {γ : Type} (φ : α → γ) (hxy : x.map φ = y.map φ)
  {f g : α → Eval β} {R : Heap → β → Prop}
  (hf : ∀ a b, x = .ok a → φ a = φ b → Agrees p h (f a) (g b) R)

include hxy hf

theorem Agrees.bind_ofHeap : Agrees p h (ofHeap x >>= f) (ofHeap y >>= g) R :=
  Agrees.bind_ofDiagnostic (fun _ => rfl) φ hxy hf

theorem Agrees.bind_ofHeapAt (loc loc' : Location) :
    Agrees p h (ofHeapAt loc x >>= f) (ofHeapAt loc' y >>= g) R :=
  have hF (e : HeapFault) : (e.diagnostic.at_ loc).unplaced = (e.diagnostic.at_ loc').unplaced :=
    rfl
  Agrees.bind_ofDiagnostic hF φ hxy hf

end

theorem agrees_mapFailure {F G : EvalState → Failure → Failure} {x y : Eval α}
    (hx : Agrees p h x y P)
    (hFG : ∀ s t e e', e.unplaced = e'.unplaced → s.reading.path = t.reading.path →
      (F s e).unplaced = (G t e').unplaced) :
    Agrees p h (mapFailure F x) (mapFailure G y) P := by
  refine ⟨fun s hs hh => ?_, fun s t hs hh hst => ?_, fun s hs hh hlost a t => ?_⟩
  · have hl := hx.lands s hs hh
    revert hl
    unfold mapFailure
    cases x s with
    | done a t => exact id
    | failed e t => exact id
    | outOfFuel => exact id
  · have ha := hx.agrees s t hs hh hst
    revert ha
    unfold mapFailure
    cases x s with
    | done a u =>
      rintro (hlost | ⟨b, v, hy, hab, huv⟩)
      · exact .inl hlost
      · rw [hy]
        exact .inr ⟨b, v, rfl, hab, huv⟩
    | failed e u =>
      intro ha hmore
      obtain ⟨e', v, hy, hee, hsession, hmain, hpath⟩ := ha hmore
      rw [hy]
      exact ⟨_, v, rfl, hFG u v e e' hee hpath, hsession, hmain, hpath⟩
    | outOfFuel =>
      intro ha hmore
      rw [ha hmore]
  · have ha := hx.lost s hs hh hlost a t
    revert ha
    unfold mapFailure
    cases x s with
    | done a u => exact id
    | failed e u => rintro - ⟨⟩
    | outOfFuel => rintro - ⟨⟩

theorem agrees_framed {loc loc' : Location} {tag : String} {x y : Eval α}
    (hx : Agrees p h x y P) : Agrees p h (framed loc tag x) (framed loc' tag y) P := by
  refine agrees_mapFailure hx fun s t e e' he hpath => ?_
  rw [Failure.traced_unplaced, Failure.traced_unplaced, he, hpath]

end

/-! ## Access to the state -/

section

variable [Likeness α] [Likeness β]

theorem agrees_gets {f g : EvalState → α} {q : α → Prop}
    (hf : ∀ s : EvalState, s.Sound → s.session.heap = h → q (f s))
    (hfg : ∀ s t, Linked p s t → Likeness.Alike (f s) (g t)) :
    Agrees p h (gets f) (gets g) fun h' a => h' = h ∧ q a := by
  refine ⟨(runs_gets hf).lands, fun s t _ _ hst => .inr ⟨g t, t, rfl, hfg s t hst, hst⟩, ?_⟩
  rintro s - - hs a t ⟨⟩
  exact hs

/-- Two stores that are the same but for source coordinates are at hand. -/
theorem Agrees.bind_heap {f g : Heap → Eval β} {R : Heap → β → Prop}
    (hfg : ∀ k, h.Alike p.main k → Agrees p h (f h) (g k) R) :
    Agrees p h (heap >>= f) (heap >>= g) R := by
  refine ⟨fun s hs hh => ?_, fun s t hs hh hst => ?_, fun s hs hh hlost => ?_⟩
  · subst hh
    exact (hfg _ (.refl _)).lands s hs rfl
  · subst hh
    exact (hfg _ hst.heap).agrees s t hs rfl hst
  · subst hh
    exact (hfg _ (.refl _)).lost s hs rfl hlost

theorem Agrees.bind_session {f g : Session → Eval β} {R : Heap → β → Prop}
    (hfg : ∀ s t : Session, s.Sound → s.heap = h → s.Alike t → Agrees p h (f s) (g t) R) :
    Agrees p h (session >>= f) (session >>= g) R := by
  refine ⟨fun s hs hh => ?_, fun s t hs hh hst => ?_, fun s hs hh hlost => ?_⟩
  · exact (hfg _ _ hs.session hh (.refl _)).lands s hs hh
  · exact (hfg _ _ hs.session hh hst.session).agrees s t hs hh hst
  · exact (hfg _ _ hs.session hh (.refl _)).lost s hs hh hlost

theorem agrees_reading :
    Agrees p h reading reading fun h' r => h' = h ∧ r.Valid h :=
  agrees_gets (fun _ hs hh => hh ▸ hs.reading) fun _ _ hst => hst.reading

theorem agrees_next : Agrees p h next next fun h' t => h' = h ∧ t.Valid h :=
  agrees_gets (fun _ hs hh => hh ▸ hs.reading.next) fun _ _ hst => hst.reading.next

/-- Where the last token stands; what it is, is not compared. -/
theorem Agrees.bind_curr {f g : Token → Eval β} {R : Heap → β → Prop}
    (hfg : ∀ t u, t.Valid h → Agrees p h (f t) (g u) R) :
    Agrees p h (curr >>= f) (curr >>= g) R := by
  refine ⟨fun s hs hh => ?_, fun s t hs hh hst => ?_, fun s hs hh hlost => ?_⟩
  · exact (hfg _ s.reading.curr (hh ▸ hs.reading.curr)).lands s hs hh
  · exact (hfg _ _ (hh ▸ hs.reading.curr)).agrees s t hs hh hst
  · exact (hfg _ s.reading.curr (hh ▸ hs.reading.curr)).lost s hs hh hlost

/-- A change of the session that keeps its store, its main dit and its daemon. -/
theorem agrees_modifySession {f : Session → Session}
    (hf : ∀ s : Session, s.Sound → (f s).Sound ∧ (f s).heap = s.heap ∧ (f s).daemon = s.daemon)
    (hcomm : ∀ s : Session, (f s).unplaced = f s.unplaced ∧ (f s).main = s.main ∧
      (f s).mainPath = s.mainPath) :
    Agrees p h (modifySession f) (modifySession f) fun h' _ => h' = h := by
  refine ⟨(runs_modifySession hf).lands, fun s t hs hh hst => ?_, ?_⟩
  · have hsame : (f s.session).Alike (f t.session) := hst.session.map fun s => (hcomm s).1
    exact .inr ⟨(), _, rfl, rfl, hst.setSession hsame (hcomm _).2.1 (hcomm _).2.2⟩
  · rintro s - - hs a t ⟨⟩
    exact hs.setSession _

/-- What is kept of bodies may have other places in it. -/
theorem agrees_note (e e' : BodyEvent) : Agrees p h (note e) (note e') fun h' _ => h' = h := by
  refine ⟨(runs_note e).lands, fun s t _ _ hst => ?_, ?_⟩
  · exact .inr ⟨(), _, rfl, rfl, hst.setSession (hst.session.note e e') rfl rfl⟩
  · rintro s - - hs a t ⟨⟩
    exact hs.setSession _

/-! ## Writes to the store -/

theorem agrees_setHeap {h' k : Heap} (hs : h.Steps h') (hk : h'.Alike p.main k) :
    Agrees p h (setHeap h') (setHeap k) fun g _ => g = h' := by
  refine ⟨(runs_setHeap hs).lands, fun s t _ _ hst => ?_, ?_⟩
  · exact .inr ⟨(), _, rfl, rfl, hst.setHeap hk⟩
  · rintro s - - hs a t ⟨⟩
    exact hs.setSession _

theorem agrees_withHeap_of {f g : Heap → α × Heap} (hs : h.Steps (f h).2)
    (hfg : ∀ k, h.Alike p.main k → (f h).1 = (g k).1 ∧ (f h).2.Alike p.main (g k).2) :
    Agrees p h (withHeap f) (withHeap g) fun h' a => h' = (f h).2 ∧ a = (f h).1 := by
  refine ⟨(runs_withHeap hs).lands, fun s t _ hh hst => ?_, ?_⟩
  · subst hh
    obtain ⟨ha, hk⟩ := hfg _ hst.heap
    exact .inr ⟨_, _, rfl, ha ▸ Likeness.refl _, hst.setHeap hk⟩
  · rintro s - - hs a t ⟨⟩
    exact hs.setSession _

theorem agrees_withHeap {f : Heap → α × Heap} (hs : h.Steps (f h).2)
    (hf : ∀ h, f (h.unplaced p.main) = ((f h).1, (f h).2.unplaced p.main)) :
    Agrees p h (withHeap f) (withHeap f) fun h' a => h' = (f h).2 ∧ a = (f h).1 :=
  agrees_withHeap_of hs fun _ hk => hk.both hf

/-- New containers that are the same but for source coordinates. -/
theorem agrees_alloc {c d : Container} (hs : h.Step (h.alloc c).2)
    (hcd : ∀ b, c.unplaced b = d.unplaced b) :
    Agrees p h (withHeap (·.alloc c)) (withHeap (·.alloc d))
      fun h' a => h' = (h.alloc c).2 ∧ a = (h.alloc c).1 :=
  agrees_withHeap_of (.single hs) fun _ hk => hk.alloc hcd

end

/-! ## Loops -/

theorem repeatUpTo_succ (n : Nat) (step : α → Eval (α ⊕ β)) (a : α) :
    repeatUpTo (n + 1) step a = step a >>= Sum.elim (repeatUpTo n step) Pure.pure := by
  funext s
  rw [repeatUpTo, bind_apply, Eval.bind]
  cases step a s with
  | done r t => cases r <;> rfl
  | failed e t => rfl
  | outOfFuel => rfl

section

variable {I : Heap → α → Prop} {post : Heap → β → Prop} {step step' : α → Eval (α ⊕ β)}
  (hstep : ∀ h' a, h.Steps h' → I h' a → Agrees p h' (step a) (step' a) (Rounds I post))

include hstep

/-- The second run may take more rounds if its source goes on. -/
theorem agrees_repeatUpTo {n n' : Nat} (hn : n = n' ∨ p.more ≠ none ∧ n ≤ n') {a : α}
    (ha : I h a) : Agrees p h (repeatUpTo n step a) (repeatUpTo n' step' a) post := by
  have hloop : ∀ n n' h' a, n = n' ∨ p.more ≠ none ∧ n ≤ n' → h.Steps h' → I h' a →
      Agrees p h' (repeatUpTo n step a) (repeatUpTo n' step' a) post := by
    intro n
    induction n with
    | zero =>
      intro n' h' a hn _ _
      refine ⟨fun _ _ _ => trivial, fun _ _ _ _ _ hmore => ?_, ?_⟩
      · obtain rfl : 0 = n' := hn.resolve_right fun hsome => hsome.1 hmore
        rfl
      · rintro s - - - b t ⟨⟩
    | succ n ih =>
      intro n' h' a hn hh' ha
      cases n' with
      | zero => omega
      | succ n' =>
        rw [repeatUpTo_succ, repeatUpTo_succ]
        refine (hstep h' a hh' ha).bind ?_
        rintro h'' r r' hh'' hr rfl
        cases r with
        | inl b =>
          have hn' : n = n' ∨ p.more ≠ none ∧ n ≤ n' :=
            hn.imp Nat.succ.inj fun hle => ⟨hle.1, Nat.le_of_succ_le_succ hle.2⟩
          exact ih n' h'' b hn' (hh'.trans hh'') hr
        | inr b => exact .done hr
  exact hloop n n' h a hn .refl ha

theorem agrees_repeatTokens {a : α} (ha : I h a) :
    Agrees p h (repeatTokens step a) (repeatTokens step' a) post := by
  refine ⟨fun s hs hh => ?_, fun s t hs hh hst => ?_, fun s hs hh => ?_⟩
  · exact (agrees_repeatUpTo hstep (.inl rfl) ha).lands s hs hh
  · refine (agrees_repeatUpTo hstep ?_ ha).agrees s t hs hh hst
    rw [hst.feed.rest, Pairing.after]
    cases p.more with
    | none => simp
    | some bytes =>
      refine .inr ⟨by simp, ?_⟩
      rw [List.length_append]
      omega
  · exact (agrees_repeatUpTo hstep (.inl rfl) ha).lost s hs hh

end

theorem agrees_forIn {I : Heap → Prop} {f g : α → PUnit → Eval (ForInStep PUnit)} (xs : List α)
    (hfg : ∀ h' x u, h.Steps h' → x ∈ xs → I h' →
      Agrees p h' (f x u) (g x u) fun h'' r => I h'' ∧ ∃ u, r = ForInStep.yield u)
    (hi : I h) (u : PUnit) :
    Agrees p h (forIn xs u f) (forIn xs u g) fun h' _ => I h' := by
  induction xs generalizing h u with
  | nil => exact .done hi
  | cons x xs ih =>
    rw [List.forIn_cons, List.forIn_cons]
    refine (hfg h x u .refl List.mem_cons_self hi).bind ?_
    rintro h' r r' hh' ⟨hi', v, rfl⟩ rfl
    exact ih (fun k y w hk hy => hfg k y w (hh'.trans hk) (List.mem_cons_of_mem _ hy)) hi' v

end Eval
end Ditlang
