import Ditlang.Proofs.Heap.Asking
import Ditlang.Proofs.Heap.Bodies

/-!
# Ditlang.Proofs.Heap.OwnNames

The own names of a container: its attributes, and the aliases that it has for slots of others. No
name is both, as long as no instance has an alias (`Reachable.disjoint`). A declaration and an alias are
refused if the name is there already, but the copy of an inherited attribute into an instance looks at
attributes only.

Nothing but an import gives a container an alias, and it gives them to the container whose body is
read. So what is kept while bodies are read is that instances are bare, and that what is read is not one
of them: `Tidy`. The operations of the language spare instances (`spares_declare`, `spares_assign`, …).
-/

namespace Ditlang

/-- No name is both an attribute and an alias. -/
def Container.Disjoint (c : Container) : Prop :=
  ∀ name, c.attrs.get? name = none ∨ c.aliases.get? name = none

namespace Container.Disjoint

theorem of_aliases {c : Container} (hc : ∀ name, c.aliases.get? name = none) : c.Disjoint :=
  fun name => .inr (hc name)

theorem of_empty {c : Container} (hc : c.aliases = .empty) : c.Disjoint :=
  of_aliases fun _ => hc ▸ rfl

variable {c : Container} {name : String} (s : SlotId)

theorem insertAttr (hc : c.Disjoint) (hn : c.find? name = none) :
    Container.Disjoint { c with attrs := c.attrs.insert name s } := by
  intro other
  rw [OrderedMap.get?_insert]
  split
  · rename_i heq
    rw [heq]
    exact .inr (find?_eq_none.1 hn).2
  · exact hc other

theorem insertAlias (hc : c.Disjoint) (hn : c.find? name = none) :
    Container.Disjoint { c with aliases := c.aliases.insert name s } := by
  intro other
  rw [OrderedMap.get?_insert]
  split
  · rename_i heq
    rw [heq]
    exact .inl (find?_eq_none.1 hn).1
  · exact hc other

end Container.Disjoint

namespace Heap

/-- No instance has an alias. -/
def Unaliased (h : Heap) : Prop :=
  ∀ i, h.IsKind .inst i → ∀ name, (h.container i).aliases.get? name = none

variable {h h' h'' : Heap}

/-! ## Steps -/

theorem Grows.isKind_iff (g : h.Grows h') {k : ValueKind} {c : ContainerId}
    (hc : c.index < h.containers.size) : h'.IsKind k c ↔ h.IsKind k c := by
  rw [IsKind, IsKind, (g.container c hc).kind.valueKind?_eq]

/-- What a container is given by a change of one container. -/
theorem disjoint_modifyContainer (hd : ∀ c, (h.container c).Disjoint) {c : ContainerId}
    {f : Container → Container} (hf : (f (h.container c)).Disjoint) (d : ContainerId) :
    ((h.modifyContainer c f).container d).Disjoint := by
  rw [container_modifyContainer]
  split
  · rename_i hcd
    exact hcd.1 ▸ hf
  · exact hd d

theorem disjoint_alloc (hd : ∀ c, (h.container c).Disjoint) {new : Container} (hnew : new.Disjoint)
    (c : ContainerId) : ((h.alloc new).2.container c).Disjoint := by
  rw [container_alloc]
  split
  · exact hnew
  · exact hd c

theorem disjoint_of_containers (hd : ∀ c, (h.container c).Disjoint)
    (hc : h'.containers = h.containers) (c : ContainerId) : (h'.container c).Disjoint := by
  have hcon : h'.container c = h.container c := by rw [container, hc]; rfl
  exact hcon ▸ hd c

theorem disjoint_addConflicts (hd : ∀ c, (h.container c).Disjoint) (c : ContainerId)
    (found : List Conflict) (d : ContainerId) : ((h.addConflicts c found).container d).Disjoint := by
  refine disjoint_modifyContainer hd ?_ d
  split <;> exact hd c

theorem disjoint_mergeLangs (hd : ∀ c, (h.container c).Disjoint) (left right c : ContainerId) :
    ((h.mergeLangs left right).2.container c).Disjoint :=
  disjoint_alloc (disjoint_of_containers hd (containers_copySlots _)) (.of_empty rfl) c

theorem disjoint_attach (hd : ∀ c, (h.container c).Disjoint) {c : ContainerId} {name : String}
    (hn : (h.container c).find? name = none) (s : SlotId) (d : ContainerId) :
    ((h.attach c name s).container d).Disjoint :=
  disjoint_modifyContainer hd ((hd c).insertAttr s hn) d

theorem find?_addConflicts (c d : ContainerId) (found : List Conflict) (name : String) :
    ((h.addConflicts c found).container d).find? name = (h.container d).find? name := by
  rw [addConflicts, container_modifyContainer]
  split
  · split <;> rfl
  · rfl

/-- A step makes no name ambiguous in a container, unless it copies an attribute into an instance that
has an alias. -/
theorem Step.disjoint (hs : h.Step h') (hd : ∀ c, (h.container c).Disjoint)
    (hu : h'.Unaliased) (c : ContainerId) : (h'.container c).Disjoint := by
  cases hs with
  | alloc hfresh => exact disjoint_alloc hd (.of_empty hfresh.aliases) c
  | @declare owner name d s _ _ hok =>
    have hslot : ∀ c, ((h.newSlot (.declare name d)).2.container c).Disjoint :=
      disjoint_of_containers hd rfl
    obtain ⟨hfree, rfl, ⟨-, rfl⟩ | ⟨-, found, -, rfl⟩⟩ := declare_inv hok
    · exact disjoint_attach hslot hfree _ c
    · have hfree' := (find?_addConflicts (h := (h.newSlot (.declare name d)).2) owner owner found
        name).trans hfree
      exact disjoint_of_containers
        (disjoint_attach (disjoint_addConflicts hslot owner found) hfree' _) rfl c
  | @insertAlias c₀ name s _ _ hok =>
    obtain ⟨hfree, rfl⟩ := insertAlias_inv hok
    exact disjoint_modifyContainer hd ((hd c₀).insertAlias s hfree) c
  | @assign s v _ _ _ hok =>
    obtain ⟨-, rfl⟩ | ⟨-, -, rfl⟩ := assign_inv hok
    · exact disjoint_of_containers hd rfl c
    · rcases settle_cases (h := h) (h.slot s).declared (h.slot s).value v with
        hs | ⟨a, b, -, -, hs, -⟩ | ⟨l, -, -, -, -, hs⟩
      · rw [hs]
        exact disjoint_of_containers hd rfl c
      · rw [hs]
        exact disjoint_of_containers (disjoint_mergeLangs hd a b) rfl c
      · rw [hs]
        exact disjoint_of_containers hd rfl c
  | append _ hok =>
    obtain ⟨-, -, rfl⟩ := append_inv hok
    exact disjoint_of_containers hd rfl c
  | @materialize inst key template hi =>
    by_cases hc : c = inst
    · subst hc
      exact .of_aliases (hu c (hi.mono (grows_materialize c key template)))
    · rcases materialize_cases (h := h) inst key template with ⟨s, -, hm⟩ | ⟨-, hm⟩
      · rw [hm]
        exact hd c
      · rw [hm]
        show ((Heap.attach _ inst key _).container c).Disjoint
        rw [attach, container_modifyContainer, if_neg fun he => hc he.1.symm]
        exact hd c
  | mergeLangs left right => exact disjoint_mergeLangs hd left right c
  | @addParent c₀ parent _ hok =>
    obtain ⟨-, -, -, found, -, rfl⟩ := addParent_inv hok
    have hfound := disjoint_addConflicts hd c₀ found
    refine disjoint_modifyContainer hfound (f := withParent parent) ?_ c
    rw [withParent]
    split <;> exact hfound c₀
  | newList => exact disjoint_of_containers hd rfl c
  | newMap => exact disjoint_of_containers hd rfl c
  | putEntry => exact disjoint_of_containers hd rfl c
  | warm => exact disjoint_of_containers hd rfl c
  | @describe c₀ f hf =>
    refine disjoint_modifyContainer hd ?_ c
    rw [hf]
    exact hd c₀
  | @keepFile c₀ data _ => exact disjoint_modifyContainer hd (hd c₀) c

/-- Since aliases stay, an instance that has none had none before. -/
theorem Unaliased.of_grows (hu : h'.Unaliased) (g : h.Grows h') : h.Unaliased := by
  intro i hi name
  cases hname : (h.container i).aliases.get? name with
  | none => rfl
  | some s =>
    have hkept := (g.container i hi.lt_size).aliases name s hname
    rw [hu i (hi.mono g) name] at hkept
    cases hkept

/-- Where no instance has an alias, no name is both. -/
theorem Reachable.disjoint (hr : h.Reachable) (hu : h.Unaliased) (c : ContainerId) :
    (h.container c).Disjoint := by
  refine hr.induction (P := fun h => h.Unaliased → ∀ c, (h.container c).Disjoint) ?_ ?_ hu c
  · exact fun _ _ => .of_empty rfl
  · exact fun h h' _ ih hs hu => hs.disjoint (ih (hu.of_grows hs.grows)) hu

/-! ## Operations spare instances -/

/-- Instances stay what they are, and get neither an alias nor a body. -/
structure Spares (h h' : Heap) : Prop where
  size : h.containers.size ≤ h'.containers.size
  inst : ∀ c, c.index < h.containers.size → (h'.IsKind .inst c ↔ h.IsKind .inst c)
  aliases : ∀ c, h'.IsKind .inst c → (h'.container c).aliases = (h.container c).aliases
  body : ∀ c, h'.IsKind .inst c → (h'.container c).body = (h.container c).body

namespace Spares

theorem of_containers (hc : h'.containers = h.containers) : h.Spares h' := by
  have hcon : ∀ c, h'.container c = h.container c := fun c => by rw [container, hc]; rfl
  refine ⟨Nat.le_of_eq (congrArg _ hc.symm), fun c _ => ?_, fun c _ => ?_, fun c _ => ?_⟩
  · rw [IsKind, hcon, IsKind]
  · rw [hcon]
  · rw [hcon]

theorem refl (h : Heap) : h.Spares h :=
  of_containers rfl

theorem trans (hs : h.Spares h') (hs' : h'.Spares h'') : h.Spares h'' := by
  -- A container that is made on the way is not there before, and there it reads as a bare one.
  have hmiddle : ∀ c, h''.IsKind .inst c → h'.IsKind .inst c ∨
      h'.container c = default ∧ h.container c = default := by
    intro c hc
    by_cases hlt : c.index < h'.containers.size
    · exact .inl ((hs'.inst c hlt).1 hc)
    · have hle := Nat.not_lt.1 hlt
      exact .inr ⟨container_of_size_le hle, container_of_size_le (hs.size.trans hle)⟩
  refine ⟨hs.size.trans hs'.size, fun c hlt => ?_, fun c hc => ?_, fun c hc => ?_⟩
  · exact (hs'.inst c (Nat.lt_of_lt_of_le hlt hs.size)).trans (hs.inst c hlt)
  · rw [hs'.aliases c hc]
    obtain hc | ⟨hdef, hdef'⟩ := hmiddle c hc
    · exact hs.aliases c hc
    · rw [hdef, hdef']
  · rw [hs'.body c hc]
    obtain hc | ⟨hdef, hdef'⟩ := hmiddle c hc
    · exact hs.body c hc
    · rw [hdef, hdef']

theorem modifyContainer (c : ContainerId) {f : Container → Container}
    (hk : (f (h.container c)).kind.valueKind? = some .inst ↔ h.IsKind .inst c)
    (hf : h.IsKind .inst c → (f (h.container c)).aliases = (h.container c).aliases ∧
      (f (h.container c)).body = (h.container c).body) : h.Spares (h.modifyContainer c f) := by
  have hinst : ∀ d, (h.modifyContainer c f).IsKind .inst d ↔ h.IsKind .inst d := by
    intro d
    rw [IsKind, container_modifyContainer]
    split
    · rename_i hcd
      rw [← hcd.1]
      exact hk
    · rfl
  refine ⟨by simp, fun d _ => hinst d, fun d hd => ?_, fun d hd => ?_⟩
  · rw [container_modifyContainer]
    split
    · rename_i hcd
      obtain ⟨rfl, -⟩ := hcd
      exact (hf ((hinst c).1 hd)).1
    · rfl
  · rw [container_modifyContainer]
    split
    · rename_i hcd
      obtain ⟨rfl, -⟩ := hcd
      exact (hf ((hinst c).1 hd)).2
    · rfl

theorem attach (c : ContainerId) (name : String) (s : SlotId) : h.Spares (h.attach c name s) :=
  .modifyContainer c .rfl fun _ => ⟨rfl, rfl⟩

theorem addConflicts (c : ContainerId) (found : List Conflict) :
    h.Spares (h.addConflicts c found) := by
  refine .modifyContainer c ?_ fun _ => ?_
  · split
    · rename_i data hk
      rw [IsKind, hk]
      rfl
    · exact .rfl
  · split <;> exact ⟨rfl, rfl⟩

theorem alloc {c : Container} (ha : c.aliases = .empty)
    (hb : c.body = none ∨ c.kind.valueKind? ≠ some .inst) :
    h.Spares (h.alloc c).2 := by
  refine ⟨(grows_alloc h c).containers, fun d hd => (grows_alloc h c).isKind_iff hd, ?_, ?_⟩
  · intro d hd
    rw [container_alloc]
    split
    · rename_i hnew
      rw [container_of_size_le (Nat.le_of_eq hnew.symm)]
      exact ha
    · rfl
  · intro d hd
    rw [IsKind, container_alloc] at hd
    rw [container_alloc]
    split
    · rename_i hnew
      rw [if_pos hnew] at hd
      rw [container_of_size_le (Nat.le_of_eq hnew.symm)]
      exact hb.resolve_right fun h => h hd
    · rfl

end Spares

theorem spares_declare {owner : ContainerId} {name : String} {d : Declared} {s : SlotId}
    (hok : h.declare owner name d = .ok (s, h')) : h.Spares h' := by
  have hslot : h.Spares (h.newSlot (.declare name d)).2 := .of_containers rfl
  obtain ⟨-, rfl, ⟨-, rfl⟩ | ⟨-, found, -, rfl⟩⟩ := declare_inv hok
  · exact hslot.trans (.attach owner name _)
  · exact (hslot.trans (.addConflicts owner found)).trans
      ((Spares.attach owner name _).trans (.of_containers rfl))

theorem spares_addParent {c parent : ContainerId} (hok : h.addParent c parent = .ok h') :
    h.Spares h' := by
  obtain ⟨-, -, -, found, -, rfl⟩ := addParent_inv hok
  refine (Spares.addConflicts c found).trans (.trans (.modifyContainer c ?_ fun _ => ?_)
    (.of_containers rfl))
  · rw [withParent, IsKind]
    split
    · rename_i data hk
      rw [hk]
      rfl
    · rfl
  · rw [withParent]
    split <;> exact ⟨rfl, rfl⟩

theorem spares_mergeLangs (left right : ContainerId) : h.Spares (h.mergeLangs left right).2 :=
  (Spares.of_containers (containers_copySlots _)).trans (.alloc rfl (.inl rfl))

theorem spares_assign {s : SlotId} {v : Value} (hok : h.assign s v = .ok h') : h.Spares h' := by
  have hset {g : Heap} {w : Value} : g.Spares (g.setValue s w) := .of_containers rfl
  obtain ⟨-, rfl⟩ | ⟨-, -, rfl⟩ := assign_inv hok
  · exact hset
  · refine .trans ?_ hset
    rcases settle_cases (h := h) (h.slot s).declared (h.slot s).value v with
      hs | ⟨a, b, -, -, hs, -⟩ | ⟨l, -, -, -, -, hs⟩
    · rw [hs]
      exact .refl h
    · rw [hs]
      exact spares_mergeLangs a b
    · rw [hs]
      exact .of_containers rfl

theorem spares_append {l : ListId} {v : Value} (hok : h.append l v = .ok h') : h.Spares h' := by
  obtain ⟨-, -, rfl⟩ := append_inv hok
  exact .of_containers rfl

theorem spares_materialize (inst : ContainerId) (key : String) (template : SlotId) :
    h.Spares (h.materialize inst key template).2 := by
  rcases materialize_cases (h := h) inst key template with ⟨s, -, hm⟩ | ⟨-, hm⟩
  · rw [hm]
    exact .refl h
  · rw [hm]
    have hslot : h.Spares (h.newSlot { h.slot template with name := key }).2 := .of_containers rfl
    exact hslot.trans (.attach inst key _)

theorem spares_newInstance (cls : ContainerId) : h.Spares (h.newInstance cls).2 :=
  .alloc rfl (.inl rfl)

theorem spares_warmAll (asked : List ContainerId) : h.Spares (h.warmAll asked) :=
  .of_containers (containers_warmAll asked)

/-! ## Tidy stores -/

/-- Instances have neither aliases nor bodies. -/
structure Bare (h : Heap) : Prop where
  aliases : h.Unaliased
  body : ∀ i, h.IsKind .inst i → (h.container i).body = none

/-- A body can be read in the container: it is there and not an instance. And instances are bare. -/
structure Tidy (c : ContainerId) (h : Heap) : Prop extends h.Bare where
  lt_size : c.index < h.containers.size
  not_inst : ¬ h.IsKind .inst c

theorem bare_empty : Bare .empty :=
  ⟨fun _ hi => (nomatch hi), fun _ hi => (nomatch hi)⟩

theorem Bare.spares (hb : h.Bare) (hs : h.Spares h') : h'.Bare := by
  -- An instance that is new reads as a bare one in the old store.
  have hold : ∀ i, h'.IsKind .inst i → h.IsKind .inst i ∨ h.container i = default := by
    intro i hi
    by_cases hlt : i.index < h.containers.size
    · exact .inl ((hs.inst i hlt).1 hi)
    · exact .inr (container_of_size_le (Nat.not_lt.1 hlt))
  refine ⟨fun i hi name => ?_, fun i hi => ?_⟩
  · rw [hs.aliases i hi]
    obtain hi | hdef := hold i hi
    · exact hb.aliases i hi name
    · rw [hdef]
      rfl
  · rw [hs.body i hi]
    obtain hi | hdef := hold i hi
    · exact hb.body i hi
    · rw [hdef]
      rfl

theorem Tidy.spares {c : ContainerId} (ht : h.Tidy c) (hs : h.Spares h') : h'.Tidy c :=
  ⟨ht.toBare.spares hs, Nat.lt_of_lt_of_le ht.lt_size hs.size,
    fun hc => ht.not_inst ((hs.inst c ht.lt_size).1 hc)⟩

end Heap
end Ditlang
