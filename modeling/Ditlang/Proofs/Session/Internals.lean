import Ditlang.Proofs.Session.Driven

/-!
# Ditlang.Proofs.Session.Internals

Faults of the interpreter itself. The evaluator has branches for what should not be: a number without a
value, a word that names something without its slot, a path through JSON without keys, a function
without a body, an instance without a class, a built-in function with the wrong number of arguments. No
program gets there.

* `Heap.Backed`: functions and instances that are stored anywhere can be used.
* `followPath_led`: a path through JSON has a key, however it was followed.
* `feed_ordinary`: whatever is run in a new session, no input ends with such a fault, unless guest
  workers are involved.
-/

namespace Ditlang

open Source (Feed)

/-! ## Values -/

namespace Heap

variable {h : Heap}

/-- What a value names can be used: a function is built in or has a body, an instance has a class. -/
def Backs (h : Heap) : Value → Prop
  | .funcRef f => ∃ data, (h.container f).kind = .func data ∧
      (data.native.isSome ∨ (h.container f).body.isSome)
  | .instanceRef i => ∃ c, (h.container i).kind = .inst c ∧ (h.container c).isClass = true
  | _ => True

/-- All values that are stored can be used, and a call that is let through gives a built-in function as
many arguments as it is declared with. -/
structure Backed (h : Heap) : Prop where
  slot : ∀ s, h.Backs (h.value s)
  list : ∀ l, ∀ v ∈ (h.list l).items, h.Backs v
  map : ∀ m, (h.map m).All h.Backs
  native : ∀ f data b args, (h.container f).kind = .func data → data.native = some b →
    h.checkArguments (h.nameOf f) data.params args = .ok () →
    args.length = (Prelude.signature b).1.length

theorem Sourced.backs (hs : h.Sourced) (hclosed : h.Closed) {v : Value} (hv : v.Valid h) :
    h.Backs v := by
  cases v with
  | funcRef f =>
    obtain ⟨data, hk⟩ := IsKind.exists_func hv
    refine ⟨data, hk, ?_⟩
    have hfunc := (hs f).func data hk
    cases hn : data.native with
    | some b => exact .inl rfl
    | none =>
      rw [hn] at hfunc
      exact .inr hfunc
  | instanceRef i =>
    obtain ⟨c, hk⟩ := IsKind.exists_inst hv
    have hc := (hclosed.container i).kind
    rw [hk] at hc
    exact ⟨c, hk, isKind_cls_iff.1 hc⟩
  | _ => trivial

theorem Sourced.backed (hs : h.Sourced) (hclosed : h.Closed) : h.Backed where
  slot s := hs.backs hclosed (hclosed.slot s).value
  list l v hv := hs.backs hclosed ((hclosed.list l).items v hv)
  map m := (hclosed.map m).imp fun _ => hs.backs hclosed
  native f data b args hk hn hok := by
    have hparams := (hs f).func data hk
    rw [hn] at hparams
    rw [← hparams]
    exact length_of_checkArguments hok

end Heap

/-! ## Paths -/

namespace Eval

variable {d : Deeper} {s : EvalState}

/-- A member that is found in a container is not reached through JSON. -/
theorem containerMember_led (base : Value) (qualifier : Option ContainerId) (name : String) :
    Yields s (containerMember d base qualifier name) fun o _ => o.Led := by
  unfold containerMember
  refine .gets (.gets ?_)
  dsimp only
  split
  · refine .bind fun _ _ _ => .gets (.bind fun _ _ _ => .gets (.bind fun m _ _ => ?_))
    cases m <;> exact .pure trivial
  · refine .gets (.bind fun _ _ _ => .gets (.bind fun m _ _ => ?_))
    cases m <;> exact .pure trivial

theorem memberStep_led (o : Operand) : Yields s (memberStep d o) fun o' _ => o'.Led := by
  unfold memberStep
  refine .bind fun name _ _ => ?_
  split
  · exact .pure (by simp [Operand.Led])
  · exact containerMember_led _ _ _
  · refine .bind fun v _ _ => ?_
    split
    · exact .pure (by simp [Operand.Led])
    · refine .gets ?_
      split
      · exact .pure (by simp [Operand.Led])
      · exact containerMember_led _ _ _
    · exact containerMember_led _ _ _

/-- Members and calls that follow never lead to a path through JSON without keys. -/
theorem followPath_led {o : Operand} (ho : o.Led) :
    Yields s (followPath d o) fun o' _ => o'.Led := by
  unfold followPath
  refine .repeatTokens (I := Operand.Led) ?_ ho
  intro o s ho
  refine .gets ?_
  split
  · exact .bind fun _ _ hstep => .pure (memberStep_led o _ _ hstep)
  · exact .bind fun _ _ _ => .pure trivial
  · exact .pure ho

/-- In whatever body an expression is evaluated, its value can be used. -/
theorem termAt_backs {fuel : Nat} {a : Activation} {outer : List Activation} (hs : s.Stands a outer) :
    Yields s (termAt fuel) fun v t => t.session.heap.Backs v := by
  intro v t hdone
  have hd := deeper_keeping 0 fuel
  have hkeeps := hd.term a outer s.session.heap s hs rfl
  dsimp only at hkeeps
  rw [hdone] at hkeeps
  obtain ⟨ht, -, -, hv⟩ := hkeeps
  exact ht.session.sourced.backs ht.sound.session.heap.closed hv

end Eval

/-! ## Sessions -/

namespace Session

variable {s s' : Session} {inputs : List Input} {failures : List Failure} {e : Failure}

theorem Ends.ordinary (he : s.Ends e) (hdaemon : s.daemon = none) : ¬ e.IsCritical := by
  intro hcritical
  cases he with
  | left hleft =>
    have hsome := hleft.ordinary hcritical
    rw [hdaemon] at hsome
    cases hsome
  | thrown text => cases hcritical
  | unread hload =>
    exact (Host.load_error (congrArg Prod.fst hload)).2.2 hcritical

/-- One input after the other: the daemon stays once it is there, and as long as it is not there no
input ends with a fault of the interpreter itself. -/
theorem AtRest.feed (hs : s.AtRest) (hf : s.feed inputs = some (failures, s')) :
    s'.AtRest ∧ (s'.daemon = none → s.daemon = none ∧ ∀ e ∈ failures, ¬ e.IsCritical) := by
  induction inputs generalizing s failures with
  | nil =>
    cases hf
    exact ⟨hs, fun hdaemon => ⟨hdaemon, nofun⟩⟩
  | cons input rest ih =>
    obtain ⟨⟨failure, s₁⟩, htake, hf⟩ := Option.bind_eq_some_iff.1 hf
    obtain ⟨⟨more, _⟩, hrest, he⟩ := Option.map_eq_some_iff.1 hf
    cases he
    obtain ⟨hend, hordinary⟩ := ih (hs.step htake) hrest
    obtain ⟨-, hpassed⟩ := hs.take htake
    refine ⟨hend, fun hdaemon => ?_⟩
    obtain ⟨hnone, hmore⟩ := hordinary hdaemon
    refine ⟨?_, ?_⟩
    · by_contra hsome
      have := hpassed.daemon (Option.isSome_iff_ne_none.2 hsome)
      rw [hnone] at this
      cases this
    · intro e he
      rcases List.mem_append.1 he with he | he
      · exact (hpassed.ends e (Option.mem_toList.1 he)).ordinary hnone
      · exact hmore e he

/-- Whatever programs, lines and files are run in a new session: if no guest function was handed to a
worker, so that no daemon was started, then no input ends with a fault of the interpreter itself. Behind
this: what is stored can be used, and so can the value of an expression; tokens carry what they stand
for; no scan takes more bytes than there are, or reports that it did; and paths through JSON have keys. -/
theorem feed_ordinary (mainPath tmpDir : String) (launcher : Option Guest.Launcher) (host : Host)
    (hf : (start mainPath tmpDir launcher host).feed inputs = some (failures, s'))
    (hdaemon : s'.daemon = none) :
    (∀ d, .diagnostic d ∈ failures → d.kind ≠ .critical) ∧
    s'.heap.Backed ∧
    (∀ fuel a outer t u v, EvalState.Stands a outer t → Eval.termAt fuel t = .done v u →
      u.session.heap.Backs v) ∧
    (∀ resolver resolveNames f, Lexer.Contained f (Lexer.next resolver resolveNames f) ∧
      ∀ t, (Lexer.next resolver resolveNames f).1 = .ok t → t.Laden) ∧
    (∀ quote f, Lexer.Contained f (Lexer.scanString quote f)) ∧
    (∀ f, Lexer.Contained f (Lexer.captureBraces f)) ∧
    ∀ d o t o' t', o.Led → Eval.followPath d o t = .done o' t' → o'.Led := by
  obtain ⟨hend, hordinary⟩ := (atRest_start mainPath tmpDir launcher host).feed hf
  refine ⟨fun d hd => (hordinary hdaemon).2 _ hd, ?_, ?_, ?_, Lexer.scanString_contained,
    Lexer.captureBraces_contained, ?_⟩
  · exact hend.orderly.sourced.backed hend.reached.sound.heap.closed
  · intro fuel a outer t u v ht hdone
    exact Eval.termAt_backs ht v u hdone
  · intro resolver resolveNames f
    exact ⟨Lexer.next_contained resolver resolveNames f, fun t => Lexer.next_laden⟩
  · intro d o t o' t' ho hdone
    exact Eval.followPath_led ho o' t' hdone

/-- A call with too few arguments, a number that is called, a member that an instance has not, and a key
below a number: four inputs fail, none of them with a fault of the interpreter itself. -/
theorem feed_ordinary_of_failing_lines : ∃ failures s',
    bare.feed [.source "class A \x7b Num n = 1; \x7d A a = A(); JSON j = \x7b\x22k\x22: 1\x7d;",
      .line "append(1)", .line "a.n()", .line "a.m", .line "j.k.x = 2;"] = some (failures, s') ∧
    failures.length = 4 ∧ s'.daemon = none ∧
    ∀ d, .diagnostic d ∈ failures → d.kind ≠ .critical := by
  obtain ⟨failures, s', hfeed, -, hp⟩ := exists_driven
    [.source "class A \x7b Num n = 1; \x7d A a = A(); JSON j = \x7b\x22k\x22: 1\x7d;",
      .line "append(1)", .line "a.n()", .line "a.m", .line "j.k.x = 2;"]
    (fun failures s' => failures.length == 4 && s'.daemon.isNone) (by decide +kernel)
  rw [Bool.and_eq_true, beq_iff_eq, Option.isNone_iff_eq_none] at hp
  exact ⟨failures, s', hfeed, hp.1, hp.2, (feed_ordinary _ _ _ _ hfeed hp.2).1⟩

end Session
end Ditlang
