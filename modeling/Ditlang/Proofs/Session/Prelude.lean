import Ditlang.Prelude.Basic
import Ditlang.Proofs.Heap.Steps

/-!
# Ditlang.Proofs.Session.Prelude

The prelude is a reachable store. It is written with slots that hold their values from the start, but
each of them is what declaring a new name and assigning to it gives (`steps_bind`). That the names are
new is followed through the writing of the prelude: `Awaits h c names` says that none of `names` is
bound in `c` yet.
-/

namespace Ditlang
namespace Prelude

open Heap

variable {h : Heap}

/-- The container is there, is not a class, and binds none of the names. -/
structure Awaits (h : Heap) (c : ContainerId) (names : List String) : Prop where
  lt_size : c.index < h.containers.size
  not_class : (h.container c).isClass = false
  free : ∀ name ∈ names, h.findLocal? c name = none

/-! ## Binding a name -/

theorem container_bind (owner d : ContainerId) (name : String) (ty : TypeSpec) (v : Value) :
    (bind h owner name ty v).container d = if owner = d ∧ owner.index < h.containers.size then
      { h.container d with attrs := (h.container d).attrs.insert name ⟨h.slots.size⟩ }
    else h.container d :=
  container_modifyContainer _ owner d _

theorem Awaits.bind {owner c : ContainerId} {name : String} {names : List String}
    (ha : Awaits h c names) (hn : owner = c → name ∉ names) (ty : TypeSpec) (v : Value) :
    Awaits (bind h owner name ty v) c names := by
  have hcon := container_bind (h := h) owner c name ty v
  split at hcon
  · rename_i hoc
    refine ⟨?_, ?_, ?_⟩
    · simpa [Prelude.bind, attach, newSlot] using ha.lt_size
    · rw [hcon]
      exact ha.not_class
    · intro n hmem
      have hne : n ≠ name := fun he => hn hoc.1 (he ▸ hmem)
      have hfree := Container.find?_eq_none.1 (ha.free n hmem)
      rw [findLocal?, hcon, Container.find?_eq_none]
      exact ⟨by rw [OrderedMap.get?_insert, if_neg hne]; exact hfree.1, hfree.2⟩
  · refine ⟨?_, ?_, ?_⟩
    · simpa [Prelude.bind, attach, newSlot] using ha.lt_size
    · rw [hcon]
      exact ha.not_class
    · intro n hmem
      rw [findLocal?, hcon]
      exact ha.free n hmem

theorem Awaits.alloc {c : ContainerId} {names : List String} (ha : Awaits h c names)
    (new : Container) : Awaits (h.alloc new).2 c names := by
  have hcon : (h.alloc new).2.container c = h.container c := by
    rw [container_alloc, if_neg (Nat.ne_of_lt ha.lt_size)]
  refine ⟨Nat.lt_of_lt_of_le ha.lt_size (grows_alloc h new).containers, hcon ▸ ha.not_class, ?_⟩
  intro n hn
  rw [findLocal?, hcon]
  exact ha.free n hn

theorem Awaits.head {c : ContainerId} {name : String} {names : List String}
    (ha : Awaits h c (name :: names)) : Awaits h c [name] := by
  refine ⟨ha.lt_size, ha.not_class, ?_⟩
  intro n hn
  exact ha.free n (List.mem_singleton.1 hn ▸ List.mem_cons_self)

theorem Awaits.tail {c : ContainerId} {name : String} {names : List String}
    (ha : Awaits h c (name :: names)) : Awaits h c names :=
  ⟨ha.lt_size, ha.not_class, fun n hn => ha.free n (List.mem_cons_of_mem _ hn)⟩

/-- A text, a function or a Lang, with its type. -/
inductive Typed : TypeSpec → Value → Prop where
  | str (text : String) : Typed .str (.str text)
  | func (f : ContainerId) : Typed .func (.funcRef f)
  | lang (c : ContainerId) : Typed .lang (.langRef c)

theorem Typed.valid {ty : TypeSpec} {v : Value} (ht : Typed ty v) : ty.Valid h := by
  cases ht <;> trivial

theorem assign_declared {s : SlotId} {name : String} {ty : TypeSpec} {v : Value}
    (ht : Typed ty v) (hs : h.slot s = .declare name (.scalar ty)) :
    h.assign s v = .ok (h.setValue s v) := by
  unfold assign
  rw [hs]
  cases ht <;> rfl

theorem setValue_attach_newSlot (owner : ContainerId) (name : String) (ty : TypeSpec) (v : Value) :
    ((h.newSlot (.declare name (.scalar ty))).2.attach owner name ⟨h.slots.size⟩).setValue
      ⟨h.slots.size⟩ v = bind h owner name ty v := by
  simp [Prelude.bind, attach, newSlot, modifyContainer, setContainer, setValue, setSlot, slot,
    container, Slot.declare, Array.setIfInBounds, Array.set_push]

/-- A slot that holds its value from the start is a slot that is declared and then assigned to. -/
theorem steps_bind {owner : ContainerId} {name : String} {ty : TypeSpec} {v : Value}
    (ha : Awaits h owner [name]) (ht : Typed ty v) (hv : v.Valid h) :
    h.Steps (bind h owner name ty v) := by
  have hdecl : h.declare owner name (.scalar ty) = .ok (⟨h.slots.size⟩,
      (h.newSlot (.declare name (.scalar ty))).2.attach owner name ⟨h.slots.size⟩) := by
    unfold declare
    rw [ha.free name List.mem_cons_self]
    show (if (h.container owner).isClass = true then _ else _) = _
    rw [ha.not_class]
    rfl
  have hd : (Declared.scalar ty).Valid h := ht.valid
  have hstep : h.Step _ := .declare hd hdecl
  have hslot : ((h.newSlot (.declare name (.scalar ty))).2.attach owner name
      ⟨h.slots.size⟩).slot ⟨h.slots.size⟩ = .declare name (.scalar ty) := by
    show (h.newSlot _).2.slot _ = _
    rw [slot_newSlot, if_pos rfl]
  have hassign := assign_declared ht hslot
  rw [setValue_attach_newSlot] at hassign
  have hhas : HasSlot ((h.newSlot (.declare name (.scalar ty))).2.attach owner name
      ⟨h.slots.size⟩) ⟨h.slots.size⟩ := by
    simp [HasSlot, attach, newSlot, modifyContainer, setContainer]
  exact (Relation.ReflTransGen.single hstep).tail (.assign hhas (hv.mono hstep.grows) hassign)

/-! ## Filling a container -/

/-- Names are bound one after the other, each new to the container. -/
theorem steps_foldl {α : Type} {c : ContainerId} {fill : Heap → α → Heap} (label : α → String)
    (rest : List String) : ∀ (xs : List α) (h : Heap),
      (∀ x ∈ xs, ∀ h names, label x ∉ names → Awaits h c (label x :: names) →
        h.Steps (fill h x) ∧ Awaits (fill h x) c names) →
      (xs.map label ++ rest).Nodup → Awaits h c (xs.map label ++ rest) →
      h.Steps (xs.foldl fill h) ∧ Awaits (xs.foldl fill h) c rest
  | [], _, _, _, ha => ⟨.refl, ha⟩
  | x :: xs, h, hfill, hn, ha => by
    rw [List.map_cons, List.cons_append, List.nodup_cons] at hn
    obtain ⟨hs, ha'⟩ := hfill x List.mem_cons_self h (xs.map label ++ rest) hn.1 ha
    have hfill' := fun y hy => hfill y (List.mem_cons_of_mem x hy)
    obtain ⟨hs', harest⟩ := steps_foldl label rest xs (fill h x) hfill' hn.2 ha'
    exact ⟨hs.trans hs', harest⟩

section

variable {prelude : ContainerId} {name : String} {names : List String}

theorem step_alloc (hp : prelude.index < h.containers.size) {k : ContainerKind} (hk : k.Valid h)
    (hcls : ∀ data, k ≠ .cls data) (name : String) :
    h.Step (h.alloc ⟨some name, k, .empty, .empty, some prelude, none⟩).2 :=
  .alloc ⟨rfl, rfl, fun data he => absurd he (hcls data)⟩ hk fun _ ho => Option.some.inj ho ▸ hp

theorem signature_valid (b : Builtin) :
    ContainerKind.Valid h (.func ⟨(signature b).1, (signature b).2, .ditlang, none, some b⟩) := by
  refine ⟨?_, ?_, fun _ hl => nomatch hl⟩
  · cases b <;> simp [signature, anyParam, Declared.Valid, Declared.scalar, Declared.listOf,
      TypeSpec.Valid]
  · cases b <;> simp [signature, Declared.Valid, Declared.scalar, TypeSpec.Valid]

theorem steps_addBuiltin (b : Builtin) (hn : builtinName b ∉ names)
    (ha : Awaits h prelude (builtinName b :: names)) :
    h.Steps (addBuiltin prelude h b) ∧ Awaits (addBuiltin prelude h b) prelude names := by
  have hstep := step_alloc ha.lt_size (signature_valid b) (by simp) (builtinName b)
  have ha' := ha.alloc ⟨some (builtinName b),
    .func ⟨(signature b).1, (signature b).2, .ditlang, none, some b⟩, .empty, .empty, some prelude,
    none⟩
  refine ⟨(Relation.ReflTransGen.single hstep).trans (steps_bind ?_ (.func _) ?_), ?_⟩
  · exact ha'.head
  · exact isKind_alloc rfl
  · exact ha'.tail.bind (fun _ => hn) _ _

/-- Properties of a Lang are no names of the prelude. -/
theorem Awaits.foldl_bind {c : ContainerId} (hc : c ≠ prelude) :
    ∀ (props : List (String × String)) {h : Heap}, Awaits h prelude names →
      Awaits (props.foldl (fun h p => Prelude.bind h c p.1 .str (.str p.2)) h) prelude names
  | [], _, ha => ha
  | _ :: props, _, ha => foldl_bind hc props (ha.bind (fun he => absurd he hc) _ _)

theorem steps_props {c : ContainerId} {props : List (String × String)}
    (hp : (props.map Prod.fst).Nodup) (ha : Awaits h c (props.map Prod.fst)) :
    h.Steps (props.foldl (fun h p => bind h c p.1 .str (.str p.2)) h) := by
  refine (steps_foldl Prod.fst [] props h ?_ (by simpa using hp) (by simpa using ha)).1
  intro p _ h names hn ha
  exact ⟨steps_bind ha.head (.str _) trivial, ha.tail.bind (fun _ => hn) _ _⟩

theorem steps_addLang {props : List (String × String)} (hp : (props.map Prod.fst).Nodup)
    (hn : name ∉ names) (ha : Awaits h prelude (name :: names)) :
    h.Steps (addLang prelude h (name, props)) ∧
      Awaits (addLang prelude h (name, props)) prelude names := by
  have hstep := step_alloc (k := .lang) ha.lt_size trivial (by simp) name
  have ha' := ha.alloc ⟨some name, .lang, .empty, .empty, some prelude, none⟩
  have hcon : (h.alloc ⟨some name, .lang, .empty, .empty, some prelude, none⟩).2.container
      ⟨h.containers.size⟩ = ⟨some name, .lang, .empty, .empty, some prelude, none⟩ := by
    rw [container_alloc, if_pos rfl]
  have hown : Awaits (h.alloc ⟨some name, .lang, .empty, .empty, some prelude, none⟩).2
      ⟨h.containers.size⟩ (props.map Prod.fst) := by
    refine ⟨by simp [Heap.alloc], by rw [hcon]; rfl, ?_⟩
    intro n _
    rw [findLocal?, hcon]
    rfl
  have hne : (⟨h.containers.size⟩ : ContainerId) ≠ prelude := by
    rintro rfl
    exact Nat.lt_irrefl _ ha.lt_size
  have hprops := steps_props hp hown
  have hafter := ha'.foldl_bind hne props
  refine ⟨(Relation.ReflTransGen.single hstep).trans (hprops.trans (steps_bind ?_ (.lang _) ?_)), ?_⟩
  · exact hafter.head
  · exact IsKind.mono hprops.grows (isKind_alloc rfl)
  · exact hafter.tail.bind (fun _ => hn) _ _

end

theorem props_nodup : ∀ lang ∈ [("Python", python), ("JavaScript", javaScript)],
    (lang.2.map Prod.fst).Nodup := by
  simp [python, javaScript]

/-- The prelude is reached from the store without anything in it. -/
theorem install_reachable :
    install.2.Reachable ∧ install.1.index < install.2.containers.size := by
  have hstep : Heap.empty.Step (Heap.empty.alloc ⟨some "prelude", .prelude, .empty, .empty, none,
      none⟩).2 :=
    .alloc ⟨rfl, rfl, fun _ hk => nomatch hk⟩ trivial fun _ ho => nomatch ho
  have ha : Awaits (Heap.empty.alloc ⟨some "prelude", .prelude, .empty, .empty, none, none⟩).2 ⟨0⟩
      (["print", "str", "append", "len"] ++ ["Python", "JavaScript"]) :=
    ⟨Nat.zero_lt_one, rfl, fun _ _ => rfl⟩
  obtain ⟨hs, ha⟩ := steps_foldl builtinName ["Python", "JavaScript"]
    [Builtin.print, .str, .append, .len] _ (fun b _ _ _ => steps_addBuiltin b) (by decide) ha
  obtain ⟨hs', ha⟩ := steps_foldl Prod.fst [] [("Python", python), ("JavaScript", javaScript)] _
    (fun lang hmem _ _ => steps_addLang (props_nodup lang hmem)) (by simp) ha
  exact ⟨(Relation.ReflTransGen.single hstep).trans (hs.trans hs'), ha.lt_size⟩

end Prelude
end Ditlang
