import Ditlang.Guest.Fencing

/-!
# Ditlang.Proofs.Guest.Nesting

The language of the fences. Guest code holds groups `<|` … `|>` of Ditlang, and Ditlang holds groups
`(|` … `|)` of guest code: `Nested` is this grammar, with one rule for both levels. A beginning of a
sequence is described by the openers that wait for their closers (`Waiting`), and what may follow it by
`Continues`; `Waiting.nested_append_iff` says that the two descriptions belong together. The checker
keeps nothing but the stack of the waiting openers, and the level is the parity of its length.
-/

namespace Ditlang
namespace Guest

open Source (Location)

/-- What is written between two fences. -/
inductive Level where
  | guest | ditlang
deriving DecidableEq, Repr

namespace Level

/-- What is written inside a group. -/
def inner : Level → Level
  | .guest => .ditlang
  | .ditlang => .guest

/-- The fence that opens a group. -/
def opener : Level → Fence
  | .guest => .triangleLeft
  | .ditlang => .circleLeft

/-- The fence that closes a group. -/
def closer : Level → Fence
  | .guest => .triangleRight
  | .ditlang => .circleRight

/-- What is written inside of so many groups. -/
def ofDepth (n : Nat) : Level := if n % 2 = 0 then .guest else .ditlang

@[simp] theorem ofDepth_zero : ofDepth 0 = .guest := rfl

@[simp] theorem ofDepth_succ (n : Nat) : ofDepth (n + 1) = (ofDepth n).inner := by
  unfold ofDepth
  by_cases h : n % 2 = 0
  · rw [if_pos h, if_neg (by omega)]
    rfl
  · rw [if_neg h, if_pos (by omega)]
    rfl

theorem opener_ne_closer (l m : Level) : l.opener ≠ m.closer := by
  cases l <;> cases m <;> decide

theorem opener_injective {l m : Level} (h : l.opener = m.opener) : l = m := by
  revert h
  cases l <;> cases m <;> decide

end Level

/-- The sequences of fences at a level: any number of groups, each with a sequence of the other level
inside. -/
inductive Nested : Level → List Fence → Prop where
  | nil (l : Level) : Nested l []
  | group {l : Level} {u v : List Fence} :
      Nested l.inner u → Nested l v → Nested l (l.opener :: (u ++ l.closer :: v))

/-- A sequence that can be continued to guest code. -/
def Viable (w : List Fence) : Prop := ∃ v, Nested .guest (w ++ v)

/-- A group that was opened before some fences is closed by one of them. -/
def ClosedIn (l : Level) (w : List Fence) : Prop :=
  ∃ u v, Nested l.inner u ∧ w = u ++ l.closer :: v

/-- The group that was opened before some fences is not closed by any of them, and every group that is
opened among them is. -/
structure InnermostOpen (l : Level) (w : List Fence) : Prop where
  unclosed : ¬ ClosedIn l w
  later : ∀ u m v, w = u ++ Level.opener m :: v → ClosedIn m v

namespace Nested

variable {l : Level} {u v w r : List Fence} {f : Fence}

theorem append (hu : Nested l u) (hv : Nested l v) : Nested l (u ++ v) := by
  induction hu with
  | nil l => exact hv
  | group hi _ _ ih => simpa only [List.cons_append, List.append_assoc] using Nested.group hi (ih hv)

theorem head (h : Nested l (f :: w)) : f = l.opener := by
  cases h
  rfl

/-- A sequence at the beginning of another one can be taken off; what comes after it is a sequence
again. The fence after the other one is one that ends a sequence. -/
theorem cancel (hu : Nested l u) (hv : Nested l v) (hf : f ≠ l.opener) (h : u ++ w = v ++ f :: r) :
    ∃ v', Nested l v' ∧ v = u ++ v' ∧ w = v' ++ f :: r := by
  induction hu generalizing v w f r with
  | nil l => exact ⟨v, hv, rfl, h⟩
  | @group l i u' _ _ ihi ihu =>
    cases hv with
    | nil =>
      cases h
      exact absurd rfl hf
    | @group _ i' v' hi' hv' =>
      simp only [List.cons_append, List.append_assoc, List.cons.injEq, true_and] at h
      obtain ⟨t, ht, rfl, hrest⟩ := ihi hi' (Level.opener_ne_closer _ _).symm h
      cases t with
      | cons g t =>
        -- What is left inside of the second group would start with the closer of the first.
        rw [← (List.cons.inj hrest).1] at ht
        exact absurd ht.head (Level.opener_ne_closer _ _).symm
      | nil =>
        obtain ⟨v'', hv'', rfl, rfl⟩ := ihu hv' hf (List.cons.inj hrest).2
        exact ⟨v'', hv'', by simp, rfl⟩

theorem of_append (hu : Nested l u) (h : Nested l (u ++ v)) : Nested l v := by
  obtain ⟨v', hv', he, -⟩ := hu.cancel (f := l.closer) (r := []) h (Level.opener_ne_closer _ _).symm
    (List.append_assoc _ _ _).symm
  rwa [List.append_cancel_left he]

theorem closedIn (h : Nested l w) {m : Level} (hw : w = u ++ m.opener :: v) : ClosedIn m v := by
  induction h generalizing u v with
  | nil l => simp at hw
  | @group l i r hi hr ihi ihr =>
    cases u with
    | nil =>
      obtain ⟨hm, rfl⟩ := List.cons.inj hw
      rw [← Level.opener_injective hm]
      exact ⟨i, r, hi, rfl⟩
    | cons g u =>
      obtain ⟨-, hrest⟩ := List.cons.inj hw
      rcases List.append_eq_append_iff.1 hrest with ⟨t, rfl, ht⟩ | ⟨t, rfl, ht⟩
      · cases t with
        | nil => exact absurd (List.cons.inj ht).1.symm (Level.opener_ne_closer _ _)
        | cons g t => exact ihr (List.cons.inj ht).2
      · cases t with
        | nil => exact absurd (List.cons.inj ht).1 (Level.opener_ne_closer _ _)
        | cons g t =>
          obtain ⟨rfl, rfl⟩ := List.cons.inj ht
          obtain ⟨u', v', hu', rfl⟩ := ihi rfl
          exact ⟨u', v' ++ l.closer :: r, hu', by simp⟩

/-- A sequence inside of a group does not close it. -/
theorem innermostOpen (h : Nested l.inner w) : InnermostOpen l w := by
  refine ⟨?_, fun u m v hw => h.closedIn hw⟩
  rintro ⟨u, v, hu, rfl⟩
  exact Level.opener_ne_closer _ _ (hu.of_append h).head.symm

end Nested

/-! ## Beginnings and continuations -/

/-- What was read when the openers at the places of a stack wait for their closers, the innermost one
first. -/
def Waiting : List Location → List (Fence × Location) → Prop
  | [], w => Nested .guest (w.map (·.1))
  | loc :: outer, w => ∃ u v, Waiting outer u ∧
      Nested (Level.ofDepth outer.length).inner (v.map (·.1)) ∧
      w = u ++ ((Level.ofDepth outer.length).opener, loc) :: v

/-- What may follow inside of so many groups. -/
def Continues : Nat → List Fence → Prop
  | 0, w => Nested .guest w
  | n + 1, w => ∃ u v, Nested (Level.ofDepth n).inner u ∧ Continues n v ∧
      w = u ++ (Level.ofDepth n).closer :: v

section Continues

variable {n : Nat} {u v w : List Fence} {f : Fence}

theorem continues_append_iff (hu : Nested (Level.ofDepth n) u) :
    Continues n (u ++ w) ↔ Continues n w := by
  cases n with
  | zero => exact ⟨hu.of_append, hu.append⟩
  | succ n =>
    rw [Level.ofDepth_succ] at hu
    constructor
    · rintro ⟨v, r, hv, hr, h⟩
      obtain ⟨v', hv', -, rfl⟩ := hu.cancel hv (Level.opener_ne_closer _ _).symm h
      exact ⟨v', r, hv', hr, rfl⟩
    · rintro ⟨v, r, hv, hr, rfl⟩
      exact ⟨u ++ v, r, hu.append hv, hr, (List.append_assoc _ _ _).symm⟩

theorem continues_opener_iff :
    Continues n ((Level.ofDepth n).opener :: w) ↔ Continues (n + 1) w := by
  constructor
  · intro h
    cases n with
    | zero =>
      cases h with
      | group hi hr => exact ⟨_, _, hi, hr, rfl⟩
    | succ n =>
      obtain ⟨u, v, hu, hv, h⟩ := h
      rw [Level.ofDepth_succ] at h
      cases hu with
      | nil => exact absurd (List.cons.inj h).1 (Level.opener_ne_closer _ _)
      | @group _ i r hi hr =>
        refine ⟨i, r ++ (Level.ofDepth n).closer :: v, ?_, ⟨r, v, hr, hv, rfl⟩, ?_⟩
        · rwa [Level.ofDepth_succ]
        · simpa using h
  · rintro ⟨i, r, hi, hr, rfl⟩
    cases n with
    | zero => exact .group hi hr
    | succ n =>
      obtain ⟨u, v, hu, hv, rfl⟩ := hr
      rw [Level.ofDepth_succ] at hi ⊢
      exact ⟨_, v, .group hi hu, hv, by simp⟩

theorem continues_head (h : Continues n (f :: w)) :
    f = (Level.ofDepth n).opener ∨ ∃ m, n = m + 1 ∧ f = (Level.ofDepth m).closer := by
  cases n with
  | zero => exact .inl h.head
  | succ n =>
    obtain ⟨u, v, hu, -, h⟩ := h
    cases u with
    | nil => exact .inr ⟨n, rfl, (List.cons.inj h).1⟩
    | cons g u =>
      rw [(List.cons.inj h).1, Level.ofDepth_succ]
      exact .inl hu.head

theorem exists_continues (n : Nat) : ∃ w, Continues n w := by
  induction n with
  | zero => exact ⟨[], .nil _⟩
  | succ n ih =>
    obtain ⟨w, hw⟩ := ih
    exact ⟨_, [], w, .nil _, hw, rfl⟩

end Continues

namespace Waiting

variable {stack stack' : List Location} {w : List (Fence × Location)} {f : Fence} {loc : Location}

theorem nested_append_iff (h : Waiting stack w) (r : List Fence) :
    Nested .guest (w.map (·.1) ++ r) ↔ Continues stack.length r := by
  induction stack generalizing w r with
  | nil => exact continues_append_iff (n := 0) h
  | cons loc outer ih =>
    obtain ⟨u, v, hu, hv, rfl⟩ := h
    have hsplit : (u ++ ((Level.ofDepth outer.length).opener, loc) :: v).map (·.1) ++ r =
        u.map (·.1) ++ (Level.ofDepth outer.length).opener :: (v.map (·.1) ++ r) := by simp
    rw [← Level.ofDepth_succ] at hv
    rw [hsplit, ih hu, continues_opener_iff, continues_append_iff hv, List.length_cons]

theorem viable (h : Waiting stack w) : Viable (w.map (·.1)) := by
  obtain ⟨r, hr⟩ := exists_continues stack.length
  exact ⟨r, (h.nested_append_iff r).2 hr⟩

theorem append_nested (h : Waiting stack w) {v : List (Fence × Location)}
    (hv : Nested (Level.ofDepth stack.length) (v.map (·.1))) : Waiting stack (w ++ v) := by
  cases stack with
  | nil =>
    rw [Waiting, List.map_append]
    exact Nested.append h hv
  | cons loc outer =>
    obtain ⟨u, v', hu, hv', rfl⟩ := h
    refine ⟨u, v' ++ v, hu, ?_, by simp⟩
    rw [List.length_cons, Level.ofDepth_succ] at hv
    rw [List.map_append]
    exact hv'.append hv

end Waiting

/-! ## The stack -/

/-- A fence opens a group of the level it stands in, or closes the innermost one. -/
theorem stepFence_eq (stack : List Location) (f : Fence) (loc : Location) :
    stepFence stack f loc =
      if f = (Level.ofDepth stack.length).opener then some (loc :: stack)
      else match stack with
        | [] => none
        | _ :: outer => if f = (Level.ofDepth outer.length).closer then some outer else none := by
  cases stack with
  | nil => cases f <;> rfl
  | cons top outer =>
    have hparity : outer.length % 2 = 0 ∧ (outer.length + 1) % 2 = 1 ∨
        outer.length % 2 = 1 ∧ (outer.length + 1) % 2 = 0 := by omega
    rcases hparity with ⟨h, h'⟩ | ⟨h, h'⟩
    · cases f <;> simp only [stepFence, List.length_cons, Level.ofDepth, h, h'] <;> rfl
    · cases f <;> simp only [stepFence, List.length_cons, Level.ofDepth, h, h'] <;> rfl

theorem stepFence_opener (stack : List Location) (loc : Location) :
    stepFence stack (Level.ofDepth stack.length).opener loc = some (loc :: stack) := by
  rw [stepFence_eq, if_pos rfl]

theorem stepFence_closer (top : Location) (outer : List Location) (loc : Location) :
    stepFence (top :: outer) (Level.ofDepth outer.length).closer loc = some outer := by
  rw [stepFence_eq, if_neg (Level.opener_ne_closer _ _).symm]
  exact if_pos rfl

namespace Waiting

variable {stack stack' : List Location} {w : List (Fence × Location)} {f : Fence} {loc : Location}

/-- A fence that may stand here leads to the next stack. -/
theorem step (h : Waiting stack w) (hstep : stepFence stack f loc = some stack') :
    Waiting stack' (w ++ [(f, loc)]) := by
  rw [stepFence_eq] at hstep
  split at hstep
  · rename_i hf
    cases hstep
    rw [hf]
    exact ⟨w, [], h, .nil _, rfl⟩
  · cases stack with
    | nil => cases hstep
    | cons top outer =>
      dsimp only at hstep
      split at hstep
      · rename_i hf
        cases hstep
        obtain ⟨u, v, hu, hv, rfl⟩ := h
        rw [List.append_assoc, List.cons_append]
        refine hu.append_nested ?_
        simpa [hf] using Nested.group hv (.nil _)
      · cases hstep

/-- After a fence that may not stand here no continuation is guest code. -/
theorem not_viable (h : Waiting stack w) (hstep : stepFence stack f loc = none) :
    ¬ Viable (w.map (·.1) ++ [f]) := by
  rintro ⟨r, hr⟩
  rw [List.append_assoc, h.nested_append_iff] at hr
  rcases continues_head hr with rfl | ⟨n, hn, rfl⟩
  · rw [stepFence_opener] at hstep
    cases hstep
  · cases stack with
    | nil => cases hn
    | cons top outer =>
      cases hn
      rw [stepFence_closer] at hstep
      cases hstep

end Waiting

end Guest
end Ditlang
