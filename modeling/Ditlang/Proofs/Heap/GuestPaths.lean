import Ditlang.Proofs.Heap.Bodies
import Ditlang.Proofs.Host.Files

/-!
# Ditlang.Proofs.Heap.GuestPaths

What a guest file is made from, and where it is. A function has its text from its body, and its file is
named after it and its Lang. `Unfiled h h'` says that from one store to another no function changed its
body or got a file, and that the names of functions and Langs are without path separators if they were
before. Every operation of the language does that (`unfiled_declare`, `unfiled_assign`, …), as long as
what is defined has a name without one; only Langs are merged, which have such names.
-/

namespace Ditlang

open Host (Slashless)

/-- The names of functions and Langs go into the names of files. -/
def ContainerKind.Naming (k : ContainerKind) : Prop :=
  k.valueKind? = some .func ∨ k.valueKind? = some .lang

namespace Container

/-- The same function, with the same body and the same file, or no function in both cases; and no
other name of a function or a Lang. -/
structure Unfiled (c c' : Container) : Prop where
  func : ∀ data, c'.kind = .func data ↔ c.kind = .func data
  view : ∀ data, c.kind = .func data → c'.body.map (·.view) = c.body.map (·.view)
  name : c'.kind.Naming → c.kind.Naming ∧ c'.displayName = c.displayName

theorem Unfiled.of_kind {c c' : Container} (hk : c'.kind = c.kind)
    (hv : c'.body.map (·.view) = c.body.map (·.view)) (hn : c'.name = c.name) : c.Unfiled c' where
  func _ := hk ▸ Iff.rfl
  view _ _ := hv
  name h := ⟨hk ▸ h, congrArg (·.getD "anonymous") hn⟩

theorem Unfiled.refl (c : Container) : c.Unfiled c :=
  .of_kind rfl rfl rfl

/-- What is neither a function nor a Lang may change. -/
theorem Unfiled.of_other {c c' : Container} (hc : ¬ c.kind.Naming) (hc' : ¬ c'.kind.Naming) :
    c.Unfiled c' where
  func data := by
    refine ⟨fun h => absurd ?_ hc', fun h => absurd ?_ hc⟩
    · rw [h]
      exact .inl rfl
    · rw [h]
      exact .inl rfl
  view data h := by
    refine absurd ?_ hc
    rw [h]
    exact .inl rfl
  name h := absurd h hc'

end Container

namespace Heap

def SlashlessNames (h : Heap) : Prop :=
  ∀ c, (h.container c).kind.Naming → Slashless (h.nameOf c)

/-- The path of the file of a function, once it has one. -/
def guestPath? (h : Heap) (c : ContainerId) : Option String :=
  match (h.container c).kind with
  | .func data => data.guestPath
  | _ => none

/-- Functions stay what they are, and those that are new have no file. -/
structure Unfiled (h h' : Heap) : Prop where
  kind : ∀ c data, (h.container c).kind = .func data → (h'.container c).kind = .func data
  view : ∀ c data, (h.container c).kind = .func data →
    (h'.container c).body.map (·.view) = (h.container c).body.map (·.view)
  new : ∀ c data, (h'.container c).kind = .func data →
    (h.container c).kind = .func data ∨ data.guestPath = none
  named : h.SlashlessNames → h'.SlashlessNames

variable {h h' h'' : Heap}

theorem guestPath?_eq_some_iff {c : ContainerId} {path : String} :
    h.guestPath? c = some path ↔
      ∃ data, (h.container c).kind = .func data ∧ data.guestPath = some path := by
  unfold guestPath?
  constructor
  · intro hpath
    split at hpath
    · rename_i data hk
      exact ⟨data, hk, hpath⟩
    · cases hpath
  · rintro ⟨data, hk, hpath⟩
    rw [hk]
    exact hpath

namespace Unfiled

theorem of_each (hc : ∀ c, (h.container c).Unfiled (h'.container c)) : h.Unfiled h' where
  kind c data hk := ((hc c).func data).2 hk
  view c := (hc c).view
  new c data hk := .inl (((hc c).func data).1 hk)
  named hn c hk := by
    obtain ⟨hk', hname⟩ := (hc c).name hk
    rw [nameOf, hname]
    exact hn c hk'

theorem of_containers (hc : h'.containers = h.containers) : h.Unfiled h' := by
  have hcon : ∀ c, h'.container c = h.container c := fun c => by rw [container, hc]; rfl
  exact of_each fun c => hcon c ▸ .refl _

theorem refl (h : Heap) : h.Unfiled h :=
  of_containers rfl

theorem trans (hu : h.Unfiled h') (hu' : h'.Unfiled h'') : h.Unfiled h'' where
  kind c data hk := hu'.kind c data (hu.kind c data hk)
  view c data hk := (hu'.view c data (hu.kind c data hk)).trans (hu.view c data hk)
  new c data hk := by
    rcases hu'.new c data hk with hk' | hnone
    · exact hu.new c data hk'
    · exact .inr hnone
  named := hu'.named ∘ hu.named

theorem guestPath?_eq (hu : h.Unfiled h') {c : ContainerId} {path : String} :
    h'.guestPath? c = some path ↔ h.guestPath? c = some path := by
  rw [guestPath?_eq_some_iff, guestPath?_eq_some_iff]
  constructor
  · rintro ⟨data, hk, hpath⟩
    rcases hu.new c data hk with hk' | hnone
    · exact ⟨data, hk', hpath⟩
    · cases hnone.symm.trans hpath
  · rintro ⟨data, hk, hpath⟩
    exact ⟨data, hu.kind c data hk, hpath⟩

theorem alloc {c : Container} (hfile : ∀ data, c.kind = .func data → data.guestPath = none)
    (hname : h.SlashlessNames → c.kind.Naming → Slashless c.displayName) :
    h.Unfiled (h.alloc c).2 := by
  -- The place of the new container was empty before.
  have hplace : ∀ d data, (h.container d).kind = .func data →
      (h.alloc c).2.container d = h.container d := by
    intro d data hk
    rw [container_alloc, if_neg]
    intro hd
    rw [container_of_size_le (Nat.le_of_eq hd.symm)] at hk
    cases hk
  refine ⟨fun d data hk => ?_, fun d data hk => ?_, fun d data hk => ?_, fun hn d hk => ?_⟩
  · rw [hplace d data hk]
    exact hk
  · rw [hplace d data hk]
  · rw [container_alloc] at hk
    split at hk
    · exact .inr (hfile data hk)
    · exact .inl hk
  · rw [nameOf, container_alloc]
    rw [container_alloc] at hk
    split at hk
    · rename_i hd
      rw [if_pos hd]
      exact hname hn hk
    · rename_i hd
      rw [if_neg hd]
      exact hn d hk

/-- A container that is neither a function nor a Lang. -/
theorem alloc_other {c : Container} (hc : ¬ c.kind.Naming) : h.Unfiled (h.alloc c).2 := by
  refine alloc (fun data hk => absurd ?_ hc) fun _ hk => absurd hk hc
  rw [hk]
  exact .inl rfl

theorem modifyContainer (c : ContainerId) {f : Container → Container}
    (hf : (h.container c).Unfiled (f (h.container c))) : h.Unfiled (h.modifyContainer c f) := by
  refine of_each fun d => ?_
  rw [container_modifyContainer]
  split
  · rename_i hcd
    rw [← hcd.1]
    exact hf
  · exact .refl _

theorem attach (c : ContainerId) (name : String) (s : SlotId) : h.Unfiled (h.attach c name s) :=
  .modifyContainer c (.of_kind rfl rfl rfl)

theorem addConflicts (c : ContainerId) (found : List Conflict) :
    h.Unfiled (h.addConflicts c found) := by
  refine .modifyContainer c ?_
  split
  · rename_i data hk
    refine .of_other ?_ ?_
    · rw [hk]
      simp [ContainerKind.Naming, ContainerKind.valueKind?]
    · simp [ContainerKind.Naming, ContainerKind.valueKind?]
  · exact .refl _

end Unfiled

/-! ## The operations of the language -/

theorem unfiled_declare {owner : ContainerId} {name : String} {d : Declared} {s : SlotId}
    (hok : h.declare owner name d = .ok (s, h')) : h.Unfiled h' := by
  have hslot : h.Unfiled (h.newSlot (.declare name d)).2 := .of_containers rfl
  obtain ⟨-, rfl, ⟨-, rfl⟩ | ⟨-, found, -, rfl⟩⟩ := declare_inv hok
  · exact hslot.trans (.attach owner name _)
  · exact (hslot.trans (.addConflicts owner found)).trans
      ((Unfiled.attach owner name _).trans (.of_containers rfl))

theorem unfiled_insertAlias {c : ContainerId} {name : String} {s : SlotId}
    (hok : h.insertAlias c name s = .ok h') : h.Unfiled h' := by
  obtain ⟨-, rfl⟩ := insertAlias_inv hok
  exact .modifyContainer c (.of_kind rfl rfl rfl)

theorem unfiled_addParent {c parent : ContainerId} (hok : h.addParent c parent = .ok h') :
    h.Unfiled h' := by
  obtain ⟨-, -, -, found, -, rfl⟩ := addParent_inv hok
  have hparent : (h.addConflicts c found).Unfiled
      ((h.addConflicts c found).modifyContainer c (withParent parent)) := by
    refine .modifyContainer c ?_
    unfold withParent
    split
    · rename_i data hk
      refine .of_other ?_ ?_
      · rw [hk]
        simp [ContainerKind.Naming, ContainerKind.valueKind?]
      · simp [ContainerKind.Naming, ContainerKind.valueKind?]
    · exact .refl _
  exact (Unfiled.addConflicts c found).trans (hparent.trans (.of_containers rfl))

/-- A merged Lang has the name of the first one. -/
theorem unfiled_mergeLangs {left : ContainerId} (hleft : h.IsKind .lang left) (right : ContainerId) :
    h.Unfiled (h.mergeLangs left right).2 := by
  have hcopied := containers_copySlots (h := h) (h.mergeSources left right)
  unfold mergeLangs
  generalize h.copySlots (h.mergeSources left right) = copies at hcopied ⊢
  obtain ⟨attrs, g⟩ := copies
  have hkind : g.IsKind .lang left := by
    rw [IsKind, container, hcopied]
    exact hleft
  refine (Unfiled.of_containers hcopied).trans (.alloc (by rintro _ ⟨⟩) fun hn _ => ?_)
  exact hn left (.inr hkind)

theorem unfiled_assign (hc : h.Closed) {s : SlotId} {v : Value} (hok : h.assign s v = .ok h') :
    h.Unfiled h' := by
  have hset {g : Heap} {w : Value} : g.Unfiled (g.setValue s w) := .of_containers rfl
  obtain ⟨-, rfl⟩ | ⟨-, -, rfl⟩ := assign_inv hok
  · exact hset
  · refine .trans ?_ hset
    rcases settle_cases (h := h) (h.slot s).declared (h.slot s).value v with
      hs | ⟨a, b, -, -, hs, hold⟩ | ⟨l, -, -, -, -, hs⟩
    · rw [hs]
      exact .refl h
    · rw [hs]
      have ha := (hc.slot s).value
      rw [hold] at ha
      exact unfiled_mergeLangs ha b
    · rw [hs]
      exact .of_containers rfl

theorem unfiled_materialize (inst : ContainerId) (key : String) (template : SlotId) :
    h.Unfiled (h.materialize inst key template).2 := by
  rcases materialize_cases (h := h) inst key template with ⟨s, -, hm⟩ | ⟨-, hm⟩
  · rw [hm]
    exact .refl h
  · rw [hm]
    have hslot : h.Unfiled (h.newSlot { h.slot template with name := key }).2 := .of_containers rfl
    exact hslot.trans (.attach inst key _)

/-- A body that counts as interpreted is the same source. -/
theorem unfiled_interpret {c : ContainerId} {b : Body} (hb : (h.container c).body = some b) :
    h.Unfiled (h.modifyContainer c fun x =>
      { x with body := some { b with interpreted := true } }) := by
  refine .modifyContainer c (.of_kind rfl ?_ rfl)
  rw [hb]
  rfl

/-! ## The store at the start -/

theorem unfiled_bind (owner : ContainerId) (name : String) (ty : TypeSpec) (v : Value) :
    h.Unfiled (Prelude.bind h owner name ty v) := by
  have hslot : h.Unfiled (h.newSlot { Slot.declare name (.scalar ty) with value := v }).2 :=
    .of_containers rfl
  exact hslot.trans (.attach owner name _)

theorem unfiled_addBuiltin (prelude : ContainerId) (b : Builtin) :
    h.Unfiled (Prelude.addBuiltin prelude h b) := by
  have hname : Slashless (Prelude.builtinName b) := by cases b <;> decide
  have hnew : h.Unfiled (h.alloc ⟨some (Prelude.builtinName b), .func ⟨(Prelude.signature b).1,
      (Prelude.signature b).2, .ditlang, none, some b⟩, .empty, .empty, some prelude, none⟩).2 :=
    .alloc (by rintro _ ⟨⟩; rfl) fun _ _ => hname
  exact hnew.trans (unfiled_bind _ _ _ _)

theorem unfiled_addLang (prelude : ContainerId) {lang : String × List (String × String)}
    (hname : Slashless lang.1) : h.Unfiled (Prelude.addLang prelude h lang) := by
  have hnew : h.Unfiled (h.alloc { name := some lang.1, kind := .lang, scope := some prelude }).2 :=
    .alloc (by rintro _ ⟨⟩) fun _ _ => hname
  refine .trans ?_ (unfiled_bind _ _ _ _)
  refine List.foldlRecOn (motive := h.Unfiled) lang.2 _ hnew fun g hg prop _ => ?_
  exact hg.trans (unfiled_bind _ _ _ _)

/-- The functions of the prelude have no files, and there is no path separator in a name. -/
theorem unfiled_install : Heap.empty.Unfiled Prelude.install.2 := by
  have hprelude : Heap.empty.Unfiled (Heap.empty.alloc ⟨some "prelude", .prelude, .empty, .empty, none,
      none⟩).2 :=
    .alloc_other (by simp [ContainerKind.Naming, ContainerKind.valueKind?])
  unfold Prelude.install
  refine List.foldlRecOn (motive := Heap.empty.Unfiled) _ _ ?_ fun h hu lang hmem =>
    hu.trans (unfiled_addLang _ ?_)
  · exact List.foldlRecOn (motive := Heap.empty.Unfiled) _ _ hprelude fun h hu b _ =>
      hu.trans (unfiled_addBuiltin _ b)
  · revert lang
    decide

theorem named_empty : Heap.empty.SlashlessNames := by
  rintro c (hk | hk) <;> cases hk

end Heap
end Ditlang
