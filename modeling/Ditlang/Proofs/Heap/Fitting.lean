import Ditlang.Proofs.Heap.Steps

/-!
# Ditlang.Proofs.Heap.Fitting

What it means that a value is of a type. `Fits` says it for values that are neither null nor lists,
and `ElemFits` says when a list of one element type may stand for a list of another, both in terms
of the class graph itself. The checks of the language decide them (`scalarFits_iff`,
`elemFits_iff`), and both are kept while the store grows: a class only gets more ancestors.
-/

namespace Ditlang
namespace Heap

variable {h h' : Heap}

/-- A value that is neither null nor a list is of a type. -/
inductive Fits (h : Heap) : Value → TypeSpec → Prop where
  | thing (v : Value) : Fits h v .thing
  | str (s : String) : Fits h (.str s) .str
  | bool (b : Bool) : Fits h (.bool b) .bool
  | num (x : Number) : Fits h (.num x) .num
  | json (m : MapId) : Fits h (.jsonRef m) .json
  | cls (c : ContainerId) : Fits h (.classRef c) .cls
  | inst (c : ContainerId) : Fits h (.instanceRef c) .inst
  | func (c : ContainerId) : Fits h (.funcRef c) .func
  | dit (c : ContainerId) : Fits h (.ditRef c) .dit
  | lang (c : ContainerId) : Fits h (.langRef c) .lang
  /-- An instance is of the type of its class and of every class above it. -/
  | of {i own c : ContainerId} : h.classOf? i = some own → h.Subclass own c →
      Fits h (.instanceRef i) (.of c)

/-- A list with elements of one type may stand where elements of another type are expected. -/
inductive ElemFits (h : Heap) : TypeSpec → TypeSpec → Prop where
  | refl (ty : TypeSpec) : ElemFits h ty ty
  | inst (c : ContainerId) : ElemFits h (.of c) .inst
  | of {sub sup : ContainerId} : h.Subclass sub sup → ElemFits h (.of sub) (.of sup)

/-! ## The checks decide them -/

theorem Lineal.scalarFits_iff (hl : h.Lineal) {v : Value} {ty : TypeSpec} :
    h.scalarFits v ty = true ↔ h.Fits v ty := by
  constructor
  · intro hf
    unfold scalarFits at hf
    split at hf
    case h_11 c i =>
      split at hf
      · rename_i own ho
        exact .of ho (hl.isSubclass_iff.1 hf)
      · cases hf
    case h_12 => cases hf
    all_goals constructor
  · intro hf
    cases hf with
    | of ho hsub => simp only [scalarFits, ho, hl.isSubclass_iff.2 hsub]
    | _ => rfl

theorem Lineal.elemFits_iff (hl : h.Lineal) {a b : TypeSpec} :
    h.elemFits a b = true ↔ h.ElemFits a b := by
  constructor
  · intro hf
    unfold elemFits at hf
    split at hf
    · exact .of (hl.isSubclass_iff.1 hf)
    · exact .inst _
    · rw [eq_of_beq hf]
      exact .refl _
  · intro hf
    cases hf with
    | refl =>
      cases a with
      | of c => exact hl.isSubclass_iff.2 .refl
      | _ => rfl
    | inst => rfl
    | of hsub => exact hl.isSubclass_iff.2 hsub

/-- What fits an element type fits every type that may stand for it. -/
theorem Fits.trans {v : Value} {a b : TypeSpec} (hv : h.Fits v a) (hab : h.ElemFits a b) :
    h.Fits v b := by
  cases hab with
  | refl => exact hv
  | inst =>
    cases hv
    exact .inst _
  | of hsub =>
    cases hv with
    | of ho hown => exact .of ho (hown.trans hsub)

theorem ElemFits.trans {a b c : TypeSpec} (hab : h.ElemFits a b) (hbc : h.ElemFits b c) :
    h.ElemFits a c := by
  cases hab with
  | refl => exact hbc
  | inst =>
    cases hbc
    exact .inst _
  | of hsub =>
    cases hbc with
    | refl => exact .of hsub
    | inst => exact .inst _
    | of hsup => exact .of (hsub.trans hsup)

/-! ## They are kept while the store grows -/

theorem lt_size_of_classOf? {i own : ContainerId} (ho : h.classOf? i = some own) :
    i.index < h.containers.size := by
  by_contra hlt
  rw [classOf?, container_of_size_le (Nat.not_lt.1 hlt)] at ho
  cases ho

theorem classOf?_eq_some {i own : ContainerId} :
    h.classOf? i = some own ↔ (h.container i).kind = .inst own := by
  unfold classOf?
  cases (h.container i).kind <;> simp

theorem Grows.classOf? (g : h.Grows h') {i own : ContainerId} (ho : h.classOf? i = some own) :
    h'.classOf? i = some own := by
  have hb := (g.container i (lt_size_of_classOf? ho)).kind
  rw [classOf?_eq_some.1 ho] at hb
  refine classOf?_eq_some.2 ?_
  cases hk : (h'.container i).kind <;> rw [hk] at hb <;> cases hb
  rfl

theorem Grows.mem_parents (g : h.Grows h') {c p : ContainerId} (hp : p ∈ h.parents c) :
    p ∈ h'.parents c := by
  have hb := (g.container c (lt_size_of_isClass (isClass_of_mem_parents hp))).kind
  rw [parents_eq] at hp ⊢
  generalize (h.container c).kind = k at hb hp
  generalize (h'.container c).kind = k' at hb
  cases hb with
  | same => exact hp
  | cls hpre => exact hpre.subset hp
  | func => cases hp

theorem Subclass.mono (g : h.Grows h') {c a : ContainerId} (hs : h.Subclass c a) :
    h'.Subclass c a :=
  Relation.ReflTransGen.mono (fun _ _ hp => g.mem_parents hp) _ _ hs

theorem Fits.mono (g : h.Grows h') {v : Value} {ty : TypeSpec} (hv : h.Fits v ty) :
    h'.Fits v ty := by
  cases hv with
  | of ho hsub => exact .of (g.classOf? ho) (hsub.mono g)
  | _ => constructor

theorem ElemFits.mono (g : h.Grows h') {a b : TypeSpec} (hab : h.ElemFits a b) :
    h'.ElemFits a b := by
  cases hab with
  | refl => exact .refl _
  | inst => exact .inst _
  | of hsub => exact .of (hsub.mono g)

/-! ## What a passed check says -/

/-- An item that may stand in a list with elements of type `ty`, as far as it can be told without
looking into other lists. -/
def ItemFits (h : Heap) (v : Value) (ty : TypeSpec) : Prop :=
  v = .null ∨ (∃ l, v = .listRef l) ∨ h.Fits v ty

theorem ItemFits.mono (g : h.Grows h') {v : Value} {ty : TypeSpec} (hv : h.ItemFits v ty) :
    h'.ItemFits v ty :=
  hv.imp_right (Or.imp_right (Fits.mono g))

/-- A list that passes the check has an element type that fits, if it has one, and items that fit;
and the lists among them pass the check one level down. -/
theorem listMismatch?_eq_none (hl : h.Lineal) {elem : TypeSpec} (he : elem ≠ .thing) {n : Nat}
    {l : ListId} (hc : h.listMismatch? elem (n + 1) l = none) :
    ((h.list l).elem ≠ .thing → h.ElemFits (h.list l).elem elem) ∧
      (∀ v ∈ (h.list l).items, h.ItemFits v elem) ∧
      ∀ k, .listRef k ∈ (h.list l).items → h.listMismatch? elem n k = none := by
  rw [listMismatch?, if_neg he] at hc
  split at hc
  · cases hc
  · rename_i hown
    rw [List.findSome?_eq_none_iff] at hc
    refine ⟨?_, ?_, ?_⟩
    · intro hne
      rw [← hl.elemFits_iff]
      simpa [hne] using hown
    · intro v hv
      have hitem := hc v hv
      split at hitem
      · exact .inl rfl
      · exact .inr (.inl ⟨_, rfl⟩)
      · split at hitem
        · rename_i hfit
          exact .inr (.inr (hl.scalarFits_iff.1 hfit))
        · cases hitem
    · intro k hk
      exact hc _ hk

/-- A value that passes the check is null, of the type, or a list that passes it. -/
theorem checkValue_eq_none (hl : h.Lineal) {v : Value} {d : Declared} (hg : d.isGeneric = false)
    (hc : h.checkValue v d = none) :
    v = .null ∨ (d.list = false ∧ h.Fits v d.ty) ∨
      (d.list = true ∧ ∃ l, v = .listRef l ∧ h.checkList l d.ty = none) := by
  unfold checkValue at hc
  rw [hg, Bool.or_false] at hc
  split at hc
  · rename_i hnull
    cases v with
    | null => exact .inl rfl
    | _ => cases hnull
  · split at hc
    · rename_i l hd _
      exact .inr (.inr ⟨hd, l, rfl, hc⟩)
    · cases hc
    · cases hc
    · rename_i hd _
      split at hc
      · rename_i hfit
        exact .inr (.inl ⟨hd, hl.scalarFits_iff.1 hfit⟩)
      · cases hc

/-- A value that may become an element is null, of the type, or a list that passes the check. -/
theorem elementFits_eq_true (hl : h.Lineal) {v : Value} {elem : TypeSpec}
    (hf : h.elementFits v elem = true) :
    h.ItemFits v elem ∧ ∀ k, v = .listRef k → h.checkList k elem = none := by
  unfold elementFits at hf
  split at hf
  · exact ⟨.inl rfl, fun _ hk => nomatch hk⟩
  · rename_i inner
    refine ⟨.inr (.inl ⟨inner, rfl⟩), ?_⟩
    rintro k ⟨⟩
    exact Option.isNone_iff_eq_none.1 hf
  · rename_i hne
    exact ⟨.inr (.inr (hl.scalarFits_iff.1 hf)), fun k hk => absurd hk (hne k)⟩

end Heap
end Ditlang
