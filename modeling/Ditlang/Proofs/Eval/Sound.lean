import Ditlang.Eval.Basic
import Ditlang.Proofs.Heap.Steps

/-!
# Ditlang.Proofs.Eval.Sound

Sound states of the evaluator. A state is `Sound` when its store is reachable and what is being read
refers to things of the store. What was valid earlier stays valid as the store grows.
-/

namespace Ditlang

open Source (View)

def Token.Valid (h : Heap) (t : Token) : Prop :=
  ∀ s, t.slot? = some s → h.HasSlot s

/-- What is being read refers to things of the store. -/
structure Reading.Valid (h : Heap) (r : Reading) : Prop where
  body : r.body.index < h.containers.size
  prev : r.prev.Valid h
  curr : r.curr.Valid h
  next : r.next.Valid h
  lastValue : ∀ v, r.lastValue = some v → v.Valid h

/-- The store of a session is reachable and holds the prelude and the main dit. -/
structure Session.Sound (s : Session) : Prop where
  heap : s.heap.Reachable
  prelude : s.prelude.index < s.heap.containers.size
  main : s.main.index < s.heap.containers.size

/-- The session is sound, and what is being read refers to things of its store. -/
structure EvalState.Sound (s : EvalState) : Prop where
  session : s.session.Sound
  reading : s.reading.Valid s.session.heap

section Mono

variable {h h' : Heap} (g : h.Grows h')

include g

theorem Token.Valid.mono {t : Token} (ht : t.Valid h) : t.Valid h' :=
  fun s hs => (ht s hs).mono g

theorem Reading.Valid.mono {r : Reading} (hr : r.Valid h) : r.Valid h' where
  body := Nat.lt_of_lt_of_le hr.body g.containers
  prev := hr.prev.mono g
  curr := hr.curr.mono g
  next := hr.next.mono g
  lastValue v hv := (hr.lastValue v hv).mono g

end Mono

/-- The session with the store it has after some steps. -/
theorem Session.Sound.setHeap {s : Session} (hs : s.Sound) {h : Heap} (hsteps : s.heap.Steps h) :
    ({ s with heap := h } : Session).Sound where
  heap := hs.heap.steps hsteps
  prelude := Nat.lt_of_lt_of_le hs.prelude hsteps.grows.containers
  main := Nat.lt_of_lt_of_le hs.main hsteps.grows.containers

theorem Session.Sound.note {s : Session} (hs : s.Sound) (e : BodyEvent) : (s.note e).Sound :=
  ⟨hs.heap, hs.prelude, hs.main⟩

theorem EvalState.Sound.setHeap {s : EvalState} (hs : s.Sound) {h : Heap}
    (hsteps : s.session.heap.Steps h) :
    ({ s with session := { s.session with heap := h } } : EvalState).Sound :=
  ⟨hs.session.setHeap hsteps, hs.reading.mono hsteps.grows⟩

theorem Reading.valid_start {h : Heap} {body : ContainerId} (hb : body.index < h.containers.size)
    (path : String) (view : View) (fragment : Bool) :
    (Reading.start body path view fragment).Valid h := by
  refine ⟨hb, ?_, ?_, ?_, ?_⟩
  all_goals
    intro _ hs
    cases hs

end Ditlang
