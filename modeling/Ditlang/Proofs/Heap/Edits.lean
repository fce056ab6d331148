import Ditlang.Proofs.Heap.Asking
import Ditlang.Proofs.Heap.GuestPaths

/-!
# Ditlang.Proofs.Heap.Edits

What a program may do to the containers of the store. A program makes containers (`Made`),
declares and assigns, gives names and parents, and merges Langs (`Edit`). What happens to bodies when
they are run, and to functions when they get their files, is not among it. So bodies stay what they are
(`Edits.codes`) and functions get no files (`Edits.unfiled`), whatever a program does.

The views of new bodies and the names of new functions and Langs are those that the parameters `view`
and `word` allow.
-/

namespace Ditlang

open Host (Slashless)
open Source (View)

/-- A container as it is made: what is needed to run it is there, and nothing was done with it yet. -/
structure Container.Made (view : View → Prop) (word : String → Prop) (c : Container) : Prop where
  viewed : ∀ b, c.body = some b → view b.view
  waits : c.kind.isLazy → c.interpreted = false
  cls : c.kind.valueKind? = some .cls → c.body.isSome
  func : ∀ data, c.kind = .func data → c.body.isSome ∧ data.native = none ∧ data.guestPath = none
  named : c.kind.Naming → word c.displayName

namespace Container.Made

variable {view : View → Prop} {word : String → Prop} {c : Container}

/-- A container that is neither a class nor a Lang nor a function. -/
theorem of_plain (hv : ∀ b, c.body = some b → view b.view) (hlazy : ¬ c.kind.isLazy)
    (hnaming : ¬ c.kind.Naming) : c.Made view word where
  viewed := hv
  waits h := absurd h hlazy
  cls h := absurd (.inl h) hlazy
  func data h := by
    refine absurd (.inl ?_) hnaming
    rw [h]
    rfl
  named h := absurd h hnaming

/-- A container with a body that was captured for it. -/
theorem of_captured {b : Body} (hb : c.body = some b) (hv : view b.view) (hi : b.interpreted = false)
    (hfunc : ∀ data, c.kind = .func data → data.native = none ∧ data.guestPath = none)
    (hnamed : c.kind.Naming → word c.displayName) : c.Made view word where
  viewed b' h := by
    cases hb.symm.trans h
    exact hv
  waits _ := by rw [Container.interpreted, hb]; exact hi
  cls _ := by rw [hb]; rfl
  func data h := ⟨by rw [hb]; rfl, hfunc data h⟩
  named := hnamed

theorem toWaits (hc : c.Made View.Placed word) : c.Waits where
  placed := hc.viewed
  cls := hc.cls
  func data h := by
    obtain ⟨hbody, hnative, -⟩ := hc.func data h
    rw [hnative]
    exact hbody
  waits := hc.waits

end Container.Made

namespace Heap

/-- One thing that a program does to the containers of the store. -/
inductive Edit (view : View → Prop) (word : String → Prop) (h : Heap) : Heap → Prop where
  | other {h' : Heap} : h'.containers = h.containers → Edit view word h h'
  | alloc {c : Container} : c.Made view word → Edit view word h (h.alloc c).2
  | declare {owner : ContainerId} {name : String} {d : Declared} {s : SlotId} {h' : Heap} :
      h.declare owner name d = .ok (s, h') → Edit view word h h'
  | insertAlias {c : ContainerId} {name : String} {s : SlotId} {h' : Heap} :
      h.insertAlias c name s = .ok h' → Edit view word h h'
  | addParent {c parent : ContainerId} {h' : Heap} : h.addParent c parent = .ok h' →
      Edit view word h h'
  | assign {s : SlotId} {v : Value} {h' : Heap} : h.Closed → h.assign s v = .ok h' →
      Edit view word h h'
  | materialize (inst : ContainerId) (key : String) (template : SlotId) :
      Edit view word h (h.materialize inst key template).2
  | mergeLangs {left : ContainerId} (right : ContainerId) : h.IsKind .lang left →
      Edit view word h (h.mergeLangs left right).2

def Edits (view : View → Prop) (word : String → Prop) : Heap → Heap → Prop :=
  Relation.ReflTransGen (Edit view word)

variable {view : View → Prop} {word : String → Prop} {h h' : Heap}

theorem edits_append {l : ListId} {v : Value} (hok : h.append l v = .ok h') :
    h.Edits view word h' := by
  obtain ⟨-, -, rfl⟩ := append_inv hok
  exact .single (.other rfl)

theorem edits_newInstance (c : ContainerId) : h.Edits view word (h.newInstance c).2 :=
  .single (.alloc (.of_plain nofun (by simp [ContainerKind.isLazy, ContainerKind.valueKind?])
    (by simp [ContainerKind.Naming, ContainerKind.valueKind?])))

theorem edits_warmAll (asked : List ContainerId) : h.Edits view word (h.warmAll asked) :=
  .single (.other (containers_warmAll asked))

theorem Edits.codes (he : h.Edits View.Placed word h') : h.Codes h' := by
  induction he with
  | refl => exact .refl h
  | tail _ hstep ih =>
    refine ih.trans ?_
    cases hstep with
    | other hc => exact .of_containers hc
    | alloc hc => exact codes_alloc hc.toWaits
    | declare hok => exact codes_declare hok
    | insertAlias hok => exact codes_insertAlias hok
    | addParent hok => exact codes_addParent hok
    | assign _ hok => exact codes_assign hok
    | materialize inst key template => exact codes_materialize inst key template
    | mergeLangs right _ => exact codes_mergeLangs _ right

theorem Edits.unfiled (he : h.Edits view Slashless h') : h.Unfiled h' := by
  induction he with
  | refl => exact .refl h
  | tail _ hstep ih =>
    refine ih.trans ?_
    cases hstep with
    | other hc => exact .of_containers hc
    | alloc hc => exact .alloc (fun data hk => (hc.func data hk).2.2) fun _ => hc.named
    | declare hok => exact unfiled_declare hok
    | insertAlias hok => exact unfiled_insertAlias hok
    | addParent hok => exact unfiled_addParent hok
    | assign hclosed hok => exact unfiled_assign hclosed hok
    | materialize inst key template => exact unfiled_materialize inst key template
    | mergeLangs right hleft => exact unfiled_mergeLangs hleft right

end Heap
end Ditlang
