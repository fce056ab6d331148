import Ditlang.Eval.Reading
import Ditlang.Proofs.Cursor.Readings
import Ditlang.Proofs.Heap.OwnNames

/-!
# Ditlang.Proofs.Cursor.Proceeds

How computations of the evaluator go. `Proceeds I spent s x post` says of a computation `x` that starts
in the state `s`: it stays with the body that is read, `post` holds of the value and the state if it
succeeds, and it only runs out of fuel if `spent`. So with `spent` true this is about computations that
succeed, and with `spent` false it says that they end.

`I c h` is what has to be so of a store `h` while a body is read in the container `c`. It is known of
the body that is read when the computation starts, and however the computation ends, what was so of any
container still is (`Heap.Carries`). What the evaluator needs of `I` is that the operations of the
language keep it, and that it is so of the containers whose bodies are read next (`Heap.Upheld`). Two of
them are used: `Heap.Tidy`, and nothing at all.

The rules follow the operators of the evaluator.
-/

namespace Ditlang

open Source (Location View Feed)

namespace Heap

/-- What is so of a container in one store is so in another one. -/
def Carries (I : ContainerId → Heap → Prop) (h h' : Heap) : Prop :=
  ∀ c, I c h → I c h'

/-- What is so of a store while a body is read in a container stays so, and becomes so of the containers
of which a body can be read: new ones that are not instances, those with a body, and functions. -/
structure Upheld (I : ContainerId → Heap → Prop) : Prop where
  spares : ∀ {h h' : Heap}, h.Spares h' → h.Carries I h'
  insertAlias : ∀ {h h' : Heap} {c : ContainerId} {name : String} {s : SlotId},
    I c h → h.insertAlias c name s = .ok h' → h.Carries I h'
  describe : ∀ {h : Heap} {c : ContainerId} {f : Container → Container}, I c h →
    (∀ x, (f x).kind = x.kind ∨ ∃ data, (f x).kind = .func data) → h.Carries I (h.modifyContainer c f)
  alloc : ∀ {h : Heap} {c : ContainerId} {new : Container}, I c h → new.aliases = .empty →
    new.kind.valueKind? ≠ some .inst → I (h.alloc new).1 (h.alloc new).2
  waiting : ∀ {h : Heap} {c d : ContainerId}, I c h → (h.container d).body ≠ none → I d h
  func : ∀ {h : Heap} {c d : ContainerId} {data : FuncData}, I c h →
    (h.container d).kind = .func data → I d h

variable {I : ContainerId → Heap → Prop} {h h' h'' : Heap}

theorem Carries.refl (I : ContainerId → Heap → Prop) (h : Heap) : h.Carries I h :=
  fun _ hc => hc

theorem Carries.trans (hc : h.Carries I h') (hc' : h'.Carries I h'') : h.Carries I h'' :=
  fun c h => hc' c (hc c h)

theorem upheld_true : Upheld fun _ _ => True where
  spares _ _ _ := trivial
  insertAlias _ _ _ _ := trivial
  describe _ _ _ _ := trivial
  alloc _ _ _ := trivial
  waiting _ _ := trivial
  func _ _ := trivial

theorem Tidy.spares_describe {c : ContainerId} (ht : h.Tidy c) {f : Container → Container}
    (hf : ∀ x, (f x).kind = x.kind ∨ ∃ data, (f x).kind = .func data) :
    h.Spares (h.modifyContainer c f) := by
  refine .modifyContainer c ⟨fun hk => ?_, fun hk => absurd hk ht.not_inst⟩ fun hk =>
    absurd hk ht.not_inst
  obtain heq | ⟨data, heq⟩ := hf (h.container c)
  · rw [heq] at hk
    exact hk
  · rw [heq] at hk
    cases hk

theorem upheld_tidy : Upheld fun c h => h.Tidy c where
  spares hs _ ht := ht.spares hs
  insertAlias := by
    intro h h' c name s ht hok d hd
    obtain ⟨-, rfl⟩ := insertAlias_inv hok
    exact hd.spares (.modifyContainer c .rfl fun hk => absurd hk ht.not_inst)
  describe ht hf d hd := hd.spares (ht.spares_describe hf)
  alloc := by
    intro h c new ht ha hk
    have hs := ht.spares (.alloc ha (.inr hk))
    refine ⟨hs.toBare, by simp [Heap.alloc], ?_⟩
    rw [IsKind, container_alloc, if_pos (by simp [Heap.alloc])]
    exact hk
  waiting := by
    intro h c d ht hb
    refine ⟨ht.toBare, ?_, fun hk => hb (ht.body d hk)⟩
    by_contra hlt
    exact hb (by rw [container_of_size_le (Nat.not_lt.1 hlt)]; rfl)
  func := by
    intro h c d data ht hk
    have hd : h.IsKind .func d := by
      rw [IsKind, hk]
      rfl
    exact ⟨ht.toBare, hd.lt_size, fun hi => absurd (hd.symm.trans hi) (by simp)⟩

end Heap

/-- How a computation that started in a state may end. -/
def Outcome.Comes {α : Type} (I : ContainerId → Heap → Prop) (spent : Prop) (s : EvalState)
    (post : α → EvalState → Prop) : Outcome α → Prop
  | .done a t => t.reading.body = s.reading.body ∧ s.session.heap.Carries I t.session.heap ∧ post a t
  | .failed _ t => s.session.heap.Carries I t.session.heap
  | .outOfFuel => spent

namespace Eval

variable {α β : Type}

/-- How a computation goes from a state. -/
def Proceeds (I : ContainerId → Heap → Prop) (spent : Prop) (s : EvalState) (x : Eval α)
    (post : α → EvalState → Prop) : Prop :=
  I s.reading.body s.session.heap → (x s).Comes I spent s post

variable {I : ContainerId → Heap → Prop} {spent : Prop} {s : EvalState} {P Q : α → EvalState → Prop}
  {R : β → EvalState → Prop}

namespace Proceeds

/-- A computation that succeeds with the store and the body that there are. -/
theorem of_done {x : Eval α} {a : α} {t : EvalState} (hx : x s = .done a t)
    (hbody : t.reading.body = s.reading.body) (hheap : t.session.heap = s.session.heap) (ha : P a t) :
    Proceeds I spent s x P := by
  intro _
  rw [hx]
  exact ⟨hbody, hheap ▸ .refl I _, ha⟩

theorem pure {a : α} (ha : P a s) : Proceeds I spent s (Pure.pure a) P :=
  of_done rfl rfl rfl ha

theorem mono {x : Eval α} (hx : Proceeds I spent s x P) (hPQ : ∀ a t, P a t → Q a t) :
    Proceeds I spent s x Q := by
  intro hi
  have hl := hx hi
  revert hl
  cases x s with
  | done a t => exact fun hl => ⟨hl.1, hl.2.1, hPQ a t hl.2.2⟩
  | failed e t => exact id
  | outOfFuel => exact id

theorem bind {x : Eval α} {f : α → Eval β} (hx : Proceeds I spent s x P)
    (hf : ∀ a t, P a t → Proceeds I spent t (f a) R) : Proceeds I spent s (x >>= f) R := by
  intro hi
  have hl := hx hi
  rw [bind_apply, Eval.bind]
  revert hl
  cases x s with
  | done a t =>
    rintro ⟨hbody, hc, ha⟩
    have hr := hf a t ha (hbody ▸ hc _ hi)
    revert hr
    dsimp only
    cases f a t with
    | done b u => exact fun hr => ⟨hr.1.trans hbody, hc.trans hr.2.1, hr.2.2⟩
    | failed e u => exact fun hr => hc.trans hr
    | outOfFuel => exact id
  | failed e t => exact id
  | outOfFuel => exact id

/-- What was so of a container when the computation started is so at its end. -/
theorem keeps {x : Eval α} (hx : Proceeds I spent s x P) {c : ContainerId} (hc : I c s.session.heap) :
    Proceeds I spent s x fun a t => P a t ∧ I c t.session.heap := by
  intro hi
  have hl := hx hi
  revert hl
  cases x s with
  | done a t => exact fun hl => ⟨hl.1, hl.2.1, hl.2.2, hl.2.1 c hc⟩
  | failed e t => exact id
  | outOfFuel => exact id

theorem bind_keeps {x : Eval α} {f : α → Eval β} (hx : Proceeds I spent s x P) {c : ContainerId}
    (hc : I c s.session.heap)
    (hf : ∀ a t, P a t → I c t.session.heap → Proceeds I spent t (f a) R) :
    Proceeds I spent s (x >>= f) R :=
  (hx.keeps hc).bind fun a t h => hf a t h.1 h.2

theorem of_here {x : Eval α} (hx : I s.reading.body s.session.heap → Proceeds I spent s x P) :
    Proceeds I spent s x P :=
  fun hi => hx hi hi

theorem ite {c : Prop} [Decidable c] {x y : Eval α} (hx : c → Proceeds I spent s x P)
    (hy : ¬ c → Proceeds I spent s y P) : Proceeds I spent s (if c then x else y) P := by
  split
  · rename_i hc
    exact hx hc
  · rename_i hc
    exact hy hc

/-- Something that comes first under a condition, and makes no difference to what is known. -/
theorem when {c : Prop} [Decidable c] {P : Unit → EvalState → Prop} {x : Eval Unit}
    {k : Unit → Eval β} (hx : Proceeds I spent s x P) (hs : P () s)
    (hk : ∀ t, P () t → Proceeds I spent t (k ()) R) :
    Proceeds I spent s (if c then x >>= k else k ()) R :=
  ite (fun _ => hx.bind fun _ => hk) fun _ => hk s hs

theorem check {c : Prop} [Decidable c] {x : Eval Unit} {k : Unit → Eval β}
    (hx : Proceeds I spent s x fun _ _ => False) (hk : ¬ c → Proceeds I spent s (k ()) R) :
    Proceeds I spent s (if c then x >>= k else k ()) R :=
  ite (fun _ => hx.bind fun _ _ h => h.elim) hk

theorem bind_ite {c : Prop} [Decidable c] {x y : Eval α} {k : α → Eval β}
    (hx : c → Proceeds I spent s x P) (hy : ¬ c → Proceeds I spent s y P)
    (hk : ∀ a t, P a t → Proceeds I spent t (k a) R) :
    Proceeds I spent s (if c then x >>= k else y >>= k) R :=
  ite (fun hc => (hx hc).bind hk) fun hc => (hy hc).bind hk

end Proceeds

/-! ## Ends -/

theorem proceeds_fail (e : Failure) : Proceeds I spent s (fail e : Eval α) P :=
  fun _ => .refl I _

theorem proceeds_raise (d : Diagnostic) : Proceeds I spent s (raise d : Eval α) P :=
  proceeds_fail _

theorem proceeds_malformedAt (message : String) (loc : Location) :
    Proceeds I spent s (malformedAt message loc : Eval α) P :=
  proceeds_fail _

theorem proceeds_ofDiagnostic {x : Except Diagnostic α} (hx : ∀ a, x = .ok a → P a s) :
    Proceeds I spent s (ofDiagnostic x) P := by
  cases x with
  | ok a => exact .pure (hx a rfl)
  | error d => exact proceeds_raise d

theorem Proceeds.bind_ofDiagnostic {ε : Type} {g : ε → Diagnostic} {x : Except ε α} {f : α → Eval β}
    (hf : ∀ a, x = .ok a → Proceeds I spent s (f a) R) :
    Proceeds I spent s (ofDiagnostic (x.mapError g) >>= f) R := by
  cases x with
  | ok a => exact hf a rfl
  | error e => exact proceeds_raise _

theorem Proceeds.bind_ofHeap {x : Except HeapFault α} {f : α → Eval β}
    (hf : ∀ a, x = .ok a → Proceeds I spent s (f a) R) : Proceeds I spent s (ofHeap x >>= f) R :=
  .bind_ofDiagnostic hf

theorem Proceeds.bind_ofHeapAt {loc : Location} {x : Except HeapFault α} {f : α → Eval β}
    (hf : ∀ a, x = .ok a → Proceeds I spent s (f a) R) : Proceeds I spent s (ofHeapAt loc x >>= f) R :=
  .bind_ofDiagnostic hf

theorem proceeds_ofOption (hspent : spent) {x : Option α} (hx : ∀ a, x = some a → P a s) :
    Proceeds I spent s (ofOption x) P := by
  cases x with
  | some a => exact .pure (hx a rfl)
  | none => exact fun _ => hspent

theorem proceeds_mapFailure {f : EvalState → Failure → Failure} {x : Eval α}
    (hx : Proceeds I spent s x P) : Proceeds I spent s (mapFailure f x) P := by
  intro hi
  have hl := hx hi
  revert hl
  unfold mapFailure
  cases x s with
  | done a t => exact id
  | failed e t => exact id
  | outOfFuel => exact id

theorem proceeds_framed {loc : Location} {tag : String} {x : Eval α} (hx : Proceeds I spent s x P) :
    Proceeds I spent s (framed loc tag x) P :=
  proceeds_mapFailure hx

/-! ## Access to the state -/

theorem Proceeds.bind_pure {a : α} {f : α → Eval β} (hf : Proceeds I spent s (f a) R) :
    Proceeds I spent s (Pure.pure a >>= f) R :=
  hf

theorem Proceeds.bind_heap {f : Heap → Eval β} (hf : Proceeds I spent s (f s.session.heap) R) :
    Proceeds I spent s (heap >>= f) R :=
  hf

theorem Proceeds.bind_session {f : Session → Eval β} (hf : Proceeds I spent s (f s.session) R) :
    Proceeds I spent s (session >>= f) R :=
  hf

theorem Proceeds.bind_reading {f : Reading → Eval β} (hf : Proceeds I spent s (f s.reading) R) :
    Proceeds I spent s (reading >>= f) R :=
  hf

theorem Proceeds.bind_next {f : Token → Eval β} (hf : Proceeds I spent s (f s.reading.next) R) :
    Proceeds I spent s (next >>= f) R :=
  hf

theorem Proceeds.bind_curr {f : Token → Eval β} (hf : Proceeds I spent s (f s.reading.curr) R) :
    Proceeds I spent s (curr >>= f) R :=
  hf

theorem Proceeds.bind_nextIs {kind : TokenKind} {f : Bool → Eval β}
    (hf : ∀ b, (b = true ↔ s.reading.next.kind = kind) → Proceeds I spent s (f b) R) :
    Proceeds I spent s (nextIs kind >>= f) R :=
  hf _ beq_iff_eq

theorem Proceeds.bind_nextIsPunct {p : Punct} {f : Bool → Eval β}
    (hf : ∀ b, (b = true ↔ s.reading.next.kind = .punct p) → Proceeds I spent s (f b) R) :
    Proceeds I spent s (nextIsPunct p >>= f) R :=
  .bind_nextIs hf

/-! ## Changes of the state -/

/-- A change of the session that leaves the store alone. -/
theorem proceeds_modifySession {f : Session → Session} (hf : (f s.session).heap = s.session.heap) :
    Proceeds I spent s (modifySession f) fun _ t => t.reading = s.reading :=
  .of_done rfl rfl hf rfl

theorem proceeds_note (e : BodyEvent) : Proceeds I spent s (note e) fun _ t => t.reading = s.reading :=
  proceeds_modifySession rfl

theorem proceeds_setHeap {h : Heap} (hc : s.session.heap.Carries I h) :
    Proceeds I spent s (setHeap h) fun _ t => t.reading = s.reading ∧ t.session.heap = h :=
  fun _ => ⟨rfl, hc, rfl, rfl⟩

theorem proceeds_withHeap {f : Heap → α × Heap} (hc : s.session.heap.Carries I (f s.session.heap).2) :
    Proceeds I spent s (withHeap f) fun a t => t.reading = s.reading ∧
      (f s.session.heap) = (a, t.session.heap) :=
  fun _ => ⟨rfl, hc, rfl, rfl⟩

/-- A new container that is not an instance can be read. -/
theorem proceeds_alloc (hI : Heap.Upheld I) {new : Container} (ha : new.aliases = .empty)
    (hk : new.kind.valueKind? ≠ some .inst) : Proceeds I spent s (withHeap (·.alloc new)) fun c t =>
      t.reading = s.reading ∧ I c t.session.heap :=
  .of_here fun hi => (proceeds_withHeap (hI.spares (.alloc ha (.inr hk)))).mono fun c t h => by
    have hnew := hI.alloc hi ha hk
    rw [h.2] at hnew
    exact ⟨h.1, hnew⟩

/-! ## Loops -/

/-- A loop of so many rounds, when each round that does not return makes something smaller. Where the
fuel may run out anyway the rounds are not counted. -/
theorem proceeds_repeatUpTo {J : α → EvalState → Prop} {m : EvalState → Nat}
    {Q : β → EvalState → Prop} {step : α → Eval (α ⊕ β)}
    (hstep : ∀ a t, J a t → Proceeds I spent t (step a) fun r u =>
      r.elim (fun a => J a u ∧ (¬ spent → m u < m t)) fun b => Q b u) :
    ∀ n a s, J a s → (¬ spent → m s < n) → Proceeds I spent s (repeatUpTo n step a) Q := by
  intro n
  induction n with
  | zero => exact fun _ _ _ hn _ => by_contra fun hspent => absurd (hn hspent) (Nat.not_lt_zero _)
  | succ n ih =>
    intro a s ha hn hi
    have hround := hstep a s ha hi
    rw [repeatUpTo]
    revert hround
    cases step a s with
    | done r t =>
      rintro ⟨hbody, hc, hr⟩
      cases r with
      | inl a' =>
        have hsize : ¬ spent → m t < n := fun hspent => by
          have := hn hspent
          have := hr.2 hspent
          omega
        have hrest := ih a' t hr.1 hsize (hbody ▸ hc _ hi)
        revert hrest
        dsimp only
        cases repeatUpTo n step a' t with
        | done b u => exact fun hl => ⟨hl.1.trans hbody, hc.trans hl.2.1, hl.2.2⟩
        | failed e u => exact fun hl => hc.trans hl
        | outOfFuel => exact id
      | inr b => exact ⟨hbody, hc, hr⟩
    | failed e t => exact id
    | outOfFuel => exact id

/-- The outcome of a round: it goes on and has taken a token, or it returns. -/
def Marches (post : β → EvalState → Prop) (t : EvalState) (r : α ⊕ β) (u : EvalState) : Prop :=
  r.elim (fun _ => t.reading.Passes u.reading) fun b => post b u

/-- A loop each round of which takes a token or returns ends. Its rounds start further and further on,
which has to make no difference to what is said of the last one. -/
theorem proceeds_repeatTokens (hs : s.reading.Sharp) {Q : EvalState → β → EvalState → Prop}
    {step : α → Eval (α ⊕ β)}
    (hback : ∀ t b u, s.reading.Reaches t.reading → Q t b u → Q s b u)
    (hstep : ∀ a t, t.reading.Sharp → s.reading.Reaches t.reading →
      Proceeds I spent t (step a) (Marches (Q t) t)) (a : α) :
    Proceeds I spent s (repeatTokens step a) (Q s) := by
  suffices hloop : Proceeds I spent s (repeatUpTo (s.reading.feed.rest.length + 4) step a) (Q s) from
    hloop
  refine proceeds_repeatUpTo (J := fun _ t => t.reading.Sharp ∧ s.reading.Reaches t.reading)
    (m := fun t => t.reading.left) ?_ _ a s ⟨hs, .refl _⟩ ?_
  · rintro a t ⟨ht, hst⟩
    refine (hstep a t ht hst).mono fun r u hr => ?_
    cases r with
    | inl a => exact ⟨⟨hr.sharp, hst.trans hr.reaches⟩, fun _ => hr.left_lt⟩
    | inr b => exact hback t b u hst hr
  · intro _
    have := s.reading.left_le
    omega

theorem proceeds_forIn {J : EvalState → Prop} {f : α → PUnit → Eval (ForInStep PUnit)} (xs : List α)
    (hf : ∀ x u t, J t → Proceeds I spent t (f x u) fun r t => J t ∧ ∃ u, r = ForInStep.yield u)
    (hi : J s) (u : PUnit) : Proceeds I spent s (forIn xs u f) fun _ t => J t := by
  induction xs generalizing s u with
  | nil => exact .pure hi
  | cons x xs ih =>
    rw [List.forIn_cons]
    refine (hf x u s hi).bind ?_
    rintro _ t ⟨ht, u', rfl⟩
    exact ih ht u'

end Eval
end Ditlang
