import Ditlang.Proofs.Guest.Refusals
import Ditlang.Proofs.Heap.Bodies

/-!
# Ditlang.Proofs.History.Log

The law of the log in which a session keeps what happens to bodies.

Bodies are run inside each other: what ends is the body that began last, and the bodies that are being
run can be read off the log (`active`). A failure that comes out of a body is either caught there, and
placed there, or it is on its way out of a body inside, and gets no more than frames of the trace
(`Leaves`). A class or a Lang begins at most once, and has begun when it counts as ready. `Kept` says all
this event by event; `Recorded` adds what the log has to do with the store.
-/

namespace Ditlang

open Source (Location View)

/-- A place of a view, with the line of that number in the whole buffer. -/
structure Origin.At (path : String) (v : View) (o : Origin) : Prop where
  path : o.path = path
  loc : o.loc.On v
  code : ∃ line, Source.lineOf v.buffer o.loc.line = some line ∧ o.code = Text.ofBytes line

/-- The line that a body quotes with one of its places. -/
theorem Origin.at_lineText {v : View} {l : Location} (hl : l.On v) (path : String) :
    Origin.At path v ⟨path, l, v.lineText l.pos⟩ where
  path := rfl
  loc := hl
  code := by
    refine ⟨_, ?_, rfl⟩
    have hline : l.line = (v.place l.pos).line := congrArg Location.line hl.eq
    show Source.lineOf v.buffer l.line = _
    rw [hline]
    exact Source.lineOf_placeAt _ _

namespace History

/-- The bodies that are being run, innermost first. -/
def active : List BodyEvent → List Activation
  | [] => []
  | .began a :: past => a :: active past
  | .finished _ _ :: past | .failed _ _ :: past => (active past).tail
  | .ready _ :: past | .fenced _ _ _ :: past => active past

/-- The failure that is on its way out. -/
def inFlight : List BodyEvent → Option Failure
  | .failed _ e :: _ => some e
  | _ => none

def begins (c : ContainerId) : BodyEvent → Bool
  | .began a => a.body == c
  | _ => false

def ends (c : ContainerId) : BodyEvent → Bool
  | .finished d _ | .failed d _ => d == c
  | _ => false

/-- How often a body began. -/
def begun (c : ContainerId) (log : List BodyEvent) : Nat :=
  log.countP (begins c)

/-- How a failure comes out of a body, after what happened before. -/
inductive Leaves (a : Activation) (past : List BodyEvent) : Failure → Prop where
  | io (reason : String) : Leaves a past (.io reason)
  /-- It was raised in the body. -/
  | caught {d : Diagnostic} {o : Origin} : inFlight past = none → d.origin = some o →
      o.At a.path a.view → Leaves a past (.diagnostic d)
  /-- It came out of a body inside. -/
  | carried {d : Diagnostic} (frames : List TraceFrame) : inFlight past = some (.diagnostic d) →
      Leaves a past (.diagnostic { d with trace := d.trace ++ frames })
  /-- It was raised in the text of a guest function. -/
  | fenced {d : Diagnostic} {o : Origin} {func : ContainerId} {path : String} {view : View} :
      past.head? = some (.fenced func path view) → d.origin = some o → o.At path view →
      Leaves a past (.diagnostic d)

/-- A log as it comes about. -/
inductive Kept : List BodyEvent → Prop where
  | nil : Kept []
  | began {a : Activation} {past : List BodyEvent} : Kept past → a.view.Placed →
      Kept (.began a :: past)
  | finished {a : Activation} {outer : List Activation} {past : List BodyEvent} (signal : Signal) :
      Kept past → active past = a :: outer → Kept (.finished a.body signal :: past)
  | failed {a : Activation} {outer : List Activation} {past : List BodyEvent} {e : Failure} :
      Kept past → active past = a :: outer → Leaves a past e → Kept (.failed a.body e :: past)
  | ready {c : ContainerId} {past : List BodyEvent} : Kept past → begun c past = 1 →
      Kept (.ready c :: past)
  | fenced {func : ContainerId} {path : String} {view : View} {past : List BodyEvent} : Kept past →
      view.Placed → Kept (.fenced func path view :: past)

variable {log past later : List BodyEvent} {c : ContainerId}

theorem Kept.drop (h : Kept (later ++ past)) : Kept past := by
  induction later with
  | nil => exact h
  | cons e later ih =>
    refine ih ?_
    cases h <;> assumption

theorem begun_cons (c : ContainerId) (e : BodyEvent) (past : List BodyEvent) :
    begun c (e :: past) = begun c past + if begins c e then 1 else 0 :=
  List.countP_cons

/-- Every beginning of a body has come to its end, unless the body is being run. -/
theorem Kept.begun_eq (h : Kept log) :
    begun c log = (active log).countP (·.body == c) + log.countP (ends c) := by
  induction h with
  | nil => rfl
  | @began a _ _ _ ih =>
    rw [begun_cons, ih, active, List.countP_cons, List.countP_cons]
    cases hc : a.body == c with
    | false => simp [begins, ends, hc]
    | true =>
      simp only [begins, ends, hc, if_true, Bool.false_eq_true, if_false]
      omega
  | @finished a _ _ signal _ ha ih =>
    rw [ha, List.countP_cons] at ih
    rw [begun_cons, ih, active, ha, List.tail_cons, List.countP_cons]
    cases hc : a.body == c with
    | false => simp [begins, ends, hc]
    | true =>
      simp only [begins, ends, hc, if_true, Bool.false_eq_true, if_false]
      omega
  | @failed a _ _ _ _ ha _ ih =>
    rw [ha, List.countP_cons] at ih
    rw [begun_cons, ih, active, ha, List.tail_cons, List.countP_cons]
    cases hc : a.body == c with
    | false => simp [begins, ends, hc]
    | true =>
      simp only [begins, ends, hc, if_true, Bool.false_eq_true, if_false]
      omega
  | ready _ _ ih | fenced _ _ ih =>
    rw [begun_cons, ih, active, List.countP_cons]
    simp [begins, ends]

theorem begun_eq_zero (h : ∀ a, .began a ∈ log → a.body ≠ c) : begun c log = 0 := by
  refine List.countP_eq_zero.2 fun e he => ?_
  cases e with
  | began a => simpa [begins] using h a he
  | _ => simp [begins]

/-- What a session keeps of bodies agrees with its store. -/
structure Recorded (h : Heap) (log : List BodyEvent) : Prop where
  kept : Kept log
  body : ∀ a, .began a ∈ log → a.body.index < h.containers.size
  lazy : ∀ c, (h.container c).kind.isLazy →
    begun c log = if (h.container c).interpreted then 1 else 0
  ready : ∀ c, .ready c ∈ log → c.index < h.containers.size ∧ (h.container c).kind.isLazy

namespace Recorded

variable {h h' : Heap}

theorem codes (hr : Recorded h log) (hc' : h.Codes h') : Recorded h' log where
  kept := hr.kept
  body a ha := Nat.lt_of_lt_of_le (hr.body a ha) hc'.size
  lazy c hlazy := by
    by_cases hlt : c.index < h.containers.size
    · rw [ContainerKind.isLazy, (hc'.kind c hlt).valueKind?_eq] at hlazy
      rw [Container.interpreted, hc'.body c hlt]
      exact hr.lazy c hlazy
    · rw [(hc'.new c (Nat.not_lt.1 hlt)).waits hlazy]
      refine begun_eq_zero fun a ha he => hlt ?_
      rw [← he]
      exact hr.body a ha
  ready c hc := by
    obtain ⟨hlt, hlazy⟩ := hr.ready c hc
    refine ⟨Nat.lt_of_lt_of_le hlt hc'.size, ?_⟩
    rw [ContainerKind.isLazy, (hc'.kind c hlt).valueKind?_eq]
    exact hlazy

theorem note {e : BodyEvent} (hr : Recorded h log) (he : ∀ c, begins c e = false)
    (hready : ∀ c, e = .ready c → c.index < h.containers.size ∧ (h.container c).kind.isLazy)
    (hk : Kept (e :: log)) : Recorded h (e :: log) where
  kept := hk
  body a ha := by
    rcases List.mem_cons.1 ha with rfl | ha
    · have := he a.body
      simp [begins] at this
    · exact hr.body a ha
  lazy c hlazy := by
    rw [← hr.lazy c hlazy, begun_cons, he]
    rfl
  ready c hc := by
    rcases List.mem_cons.1 hc with rfl | hc
    · exact hready c rfl
    · exact hr.ready c hc

theorem setBody (hr : Recorded h log) {c : ContainerId} (hc : h.Plain c) (b : Body) :
    Recorded (h.modifyContainer c ({ · with body := some b })) log where
  kept := hr.kept
  body a ha := by
    rw [Heap.size_modifyContainer]
    exact hr.body a ha
  lazy d hd := by
    rw [Heap.container_modifyContainer] at hd ⊢
    by_cases hcd : c = d ∧ c.index < h.containers.size
    · obtain ⟨rfl, -⟩ := hcd
      rw [if_pos ⟨rfl, hc.there⟩] at hd
      exact absurd hd hc.plain
    · rw [if_neg hcd] at hd ⊢
      exact hr.lazy d hd
  ready d hd := by
    rw [Heap.size_modifyContainer, Heap.container_modifyContainer]
    split
    · exact hr.ready d hd
    · exact hr.ready d hd

/-- A body begins that is not interpreted when it is needed. -/
theorem began (hr : Recorded h log) {a : Activation} (ha : h.Plain a.body) (hv : a.view.Placed) :
    Recorded h (.began a :: log) where
  kept := hr.kept.began hv
  body b hb := by
    rcases List.mem_cons.1 hb with ⟨⟨⟩⟩ | hb
    · exact ha.there
    · exact hr.body b hb
  lazy c hc := by
    have hne : a.body ≠ c := fun he => ha.plain (he ▸ hc)
    rw [← hr.lazy c hc, begun_cons]
    simp [begins, hne]
  ready c hc := hr.ready c ((List.mem_cons.1 hc).resolve_left (by rintro ⟨⟩))

/-- A class or a Lang begins when it is needed for the first time. -/
theorem interpret (hr : Recorded h log) {c : ContainerId} {b : Body}
    (hb : (h.container c).body = some b) (hi : b.interpreted = false) (hv : b.view.Placed) :
    Recorded (h.modifyContainer c fun container =>
      { container with body := some { b with interpreted := true } })
      (.began ⟨c, b.path, b.view⟩ :: log) := by
  have hlt : c.index < h.containers.size := by
    by_contra hle
    rw [Heap.container_of_size_le (Nat.not_lt.1 hle)] at hb
    cases hb
  refine ⟨hr.kept.began hv, ?_, ?_, ?_⟩
  · intro a ha
    rw [Heap.size_modifyContainer]
    rcases List.mem_cons.1 ha with ⟨⟨⟩⟩ | ha
    · exact hlt
    · exact hr.body a ha
  · intro d hd
    rw [begun_cons]
    by_cases hcd : c = d
    · subst hcd
      have hnew : (h.modifyContainer c fun container =>
          { container with body := some { b with interpreted := true } }).container c =
          { h.container c with body := some { b with interpreted := true } } := by
        rw [Heap.container_modifyContainer, if_pos ⟨rfl, hlt⟩]
      rw [hnew] at hd ⊢
      have hold : begun c log = 0 := by
        rw [hr.lazy c hd, Container.interpreted, hb, Option.any_some, hi]
        rfl
      simp [hold, begins, Container.interpreted]
    · have hsame : (h.modifyContainer c fun container =>
          { container with body := some { b with interpreted := true } }).container d =
          h.container d := by
        rw [Heap.container_modifyContainer, if_neg fun hboth => hcd hboth.1]
      rw [hsame] at hd ⊢
      simp [hr.lazy d hd, begins, hcd]
  · intro d hd
    rw [Heap.size_modifyContainer, Heap.container_modifyContainer]
    have hready := hr.ready d ((List.mem_cons.1 hd).resolve_left (by rintro ⟨⟩))
    split
    · exact hready
    · exact hready

/-- A class or a Lang that has begun counts as interpreted. -/
theorem interpreted (hr : Recorded h log) {a : Activation} (hlazy : (h.container a.body).kind.isLazy)
    (ha : .began a ∈ log) : (h.container a.body).interpreted := by
  have hpos : 0 < begun a.body log := List.countP_pos_iff.2 ⟨_, ha, by simp [begins]⟩
  rw [hr.lazy a.body hlazy] at hpos
  by_contra hi
  rw [if_neg hi] at hpos
  exact absurd hpos (Nat.lt_irrefl 0)

end Recorded
end History
end Ditlang
