import Ditlang.Proofs.Heap.Conflicts
import Ditlang.Proofs.Heap.ListGraph

/-!
# Ditlang.Proofs.Heap.Assignability

What it means that a value may live in a slot of a declared type. `ListFits` says it for lists: the
list and all lists inside of it are untyped or committed to a type that may stand for the element type,
and what else they hold is of that type. `Accepts` says it for all values. The checks of the language
decide both (`checkList_eq_none_iff`, `checkValue_eq_none_iff`), the one that is cut after as many
levels as there are lists because lists do not contain themselves.

Read off these relations, a value is accepted for every type that may stand for one it is accepted
for, and stays accepted while the store grows, unless a list of it is changed.
-/

namespace Ditlang
namespace Heap

variable {h h' : Heap}

/-- List `l` may stand where elements of type `elem` are expected. -/
def ListFits (h : Heap) (l : ListId) (elem : TypeSpec) : Prop :=
  ∀ k, h.Within l k → ((h.list k).elem ≠ .thing → h.ElemFits (h.list k).elem elem) ∧
    ∀ v ∈ (h.list k).items, h.ItemFits v elem

/-- A value may live in a slot of a declared type. -/
def Accepts (h : Heap) (v : Value) (d : Declared) : Prop :=
  v = .null ∨ d.isGeneric = true ∨ (d.list = false ∧ h.Fits v d.ty) ∨
    (d.list = true ∧ ∃ l, v = .listRef l ∧ (d.ty ≠ .thing → h.ListFits l d.ty))

/-! ## The checks decide them -/

theorem ListFits.holds {l k : ListId} {elem : TypeSpec} (hf : h.ListFits l elem)
    (hk : h.Holds l k) : h.ListFits k elem :=
  fun m hm => hf m (.head hk hm)

/-- A list that fits passes the check, however deep it goes. -/
theorem ListFits.listMismatch? (hl : h.Lineal) {elem : TypeSpec} (n : Nat) {l : ListId}
    (hf : h.ListFits l elem) : h.listMismatch? elem n l = none := by
  induction n generalizing l with
  | zero => rfl
  | succ n ih =>
    obtain ⟨hcommit, hitems⟩ := hf l .refl
    rw [Heap.listMismatch?]
    split
    · rfl
    · rw [if_neg fun hbad => ?_]
      · rw [List.findSome?_eq_none_iff]
        intro v hv
        split
        · rfl
        · exact ih (hf.holds hv)
        · rename_i hnull hlist
          rcases hitems v hv with rfl | ⟨k, rfl⟩ | hfits
          · exact (hnull rfl).elim
          · exact (hlist k rfl).elim
          · rw [if_pos (hl.scalarFits_iff.2 hfits)]
      · have hfits := hl.elemFits_iff.2 (hcommit hbad.1)
        rw [hfits] at hbad
        exact Bool.false_ne_true hbad.2

/-- A list that passes the check fits, if the check goes deep enough. -/
theorem listFits_of_listMismatch? (hl : h.Lineal) {rank : ListId → Nat}
    (hrank : ∀ a b, h.Holds a b → rank b < rank a) {elem : TypeSpec} (he : elem ≠ .thing) {n : Nat}
    {l : ListId} (hn : rank l < n) (hc : h.listMismatch? elem n l = none) : h.ListFits l elem := by
  induction n generalizing l with
  | zero => exact absurd hn (Nat.not_lt_zero _)
  | succ n ih =>
    obtain ⟨hcommit, hitems, hnested⟩ := listMismatch?_eq_none hl he hc
    intro k hk
    rcases hk.cases_head with rfl | ⟨m, hm, hmk⟩
    · exact ⟨hcommit, hitems⟩
    · have hlt := hrank l m hm
      exact ih (by omega) (hnested m hm) k hmk

theorem checkList_eq_none_iff (hl : h.Lineal) (hu : h.Untangled) {l : ListId} {elem : TypeSpec} :
    h.checkList l elem = none ↔ elem = .thing ∨ h.ListFits l elem := by
  by_cases he : elem = .thing
  · subst he
    exact ⟨fun _ => .inl rfl, fun _ => by rw [checkList, listMismatch?, if_pos rfl]⟩
  · obtain ⟨rank, hle, hlt⟩ := hu.exists_rank
    refine ⟨fun hc => .inr (listFits_of_listMismatch? hl hlt he (hle l) hc), fun hf => ?_⟩
    exact (hf.resolve_left he).listMismatch? hl _

theorem Accepts.checkValue (hl : h.Lineal) {v : Value} {d : Declared} (ha : h.Accepts v d) :
    h.checkValue v d = none := by
  unfold Heap.checkValue
  split
  · rfl
  · rename_i hopen
    rw [Bool.or_eq_true, not_or] at hopen
    obtain ⟨hnull, hgen⟩ := hopen
    obtain ⟨ty, list⟩ := d
    rcases ha with rfl | hg | ⟨rfl, hfits⟩ | ⟨rfl, l, rfl, hlist⟩
    · exact (hnull rfl).elim
    · exact (hgen hg).elim
    · -- Only `Thing` has lists among its single values, and that is generic.
      have hnolist : ∀ l, v ≠ .listRef l := by
        rintro l rfl
        cases hfits
        exact hgen rfl
      cases v with
      | listRef l => exact (hnolist l rfl).elim
      | _ => exact if_pos (hl.scalarFits_iff.2 hfits)
    · change h.checkList l ty = none
      by_cases ht : ty = .thing
      · rw [checkList, listMismatch?, if_pos ht]
      · exact (hlist ht).listMismatch? hl _

theorem checkValue_eq_none_iff (hl : h.Lineal) (hu : h.Untangled) {v : Value} {d : Declared} :
    h.checkValue v d = none ↔ h.Accepts v d := by
  refine ⟨fun hc => ?_, Accepts.checkValue hl⟩
  cases hg : d.isGeneric with
  | true => exact .inr (.inl hg)
  | false =>
    rcases checkValue_eq_none hl hg hc with hnull | hfits | ⟨hd, l, hv, hlist⟩
    · exact .inl hnull
    · exact .inr (.inr (.inl hfits))
    · refine .inr (.inr (.inr ⟨hd, l, hv, fun ht => ?_⟩))
      exact ((checkList_eq_none_iff hl hu).1 hlist).resolve_left ht

/-! ## Other types -/

theorem ItemFits.trans {v : Value} {a b : TypeSpec} (hv : h.ItemFits v a) (hab : h.ElemFits a b) :
    h.ItemFits v b :=
  hv.imp_right (Or.imp_right fun hf => hf.trans hab)

theorem ListFits.trans {l : ListId} {a b : TypeSpec} (hf : h.ListFits l a) (hab : h.ElemFits a b) :
    h.ListFits l b :=
  fun k hk => ⟨fun he => ((hf k hk).1 he).trans hab, fun v hv => ((hf k hk).2 v hv).trans hab⟩

/-! ## Later stores -/

/-- The lists that a value consists of are in the later store what they were. -/
def ListsKept (h h' : Heap) (v : Value) : Prop :=
  ∀ l k, v = .listRef l → h.Within l k → h'.list k = h.list k

theorem listsKept_of_lists (he : h'.lists = h.lists) (v : Value) : h.ListsKept h' v :=
  fun _ k _ _ => list_of_lists he k

/-- A way from a list that is what it was is there before if it is there later. -/
theorem within_of_kept {l m : ListId} (hkept : ∀ k, h.Within l k → h'.list k = h.list k)
    (hm : h'.Within l m) : h.Within l m := by
  induction hm with
  | refl => exact .refl
  | tail _ hab ih =>
    rw [Holds, hkept _ ih] at hab
    exact ih.tail hab

section

variable (g : h.Grows h')

include g

theorem ListFits.mono {l : ListId} {elem : TypeSpec} (hf : h.ListFits l elem)
    (hkept : ∀ k, h.Within l k → h'.list k = h.list k) : h'.ListFits l elem := by
  intro k hk
  have hk := within_of_kept hkept hk
  rw [hkept k hk]
  exact ⟨fun he => ((hf k hk).1 he).mono g, fun v hv => ((hf k hk).2 v hv).mono g⟩

theorem Accepts.mono {v : Value} {d : Declared} (ha : h.Accepts v d) (hkept : h.ListsKept h' v) :
    h'.Accepts v d := by
  rcases ha with hnull | hgen | ⟨hd, hfits⟩ | ⟨hd, l, rfl, hlist⟩
  · exact .inl hnull
  · exact .inr (.inl hgen)
  · exact .inr (.inr (.inl ⟨hd, hfits.mono g⟩))
  · exact .inr (.inr (.inr ⟨hd, l, rfl, fun ht => (hlist ht).mono g fun k => hkept l k rfl⟩))

/-- A value that passes a check passes it later, if its lists are what they were. -/
theorem Grows.checkValue_eq_none (hl : h.Lineal) (hu : h.Untangled) (hl' : h'.Lineal) {v : Value}
    {d : Declared} (hkept : h.ListsKept h' v) (hc : h.checkValue v d = none) :
    h'.checkValue v d = none :=
  (((checkValue_eq_none_iff hl hu).1 hc).mono g hkept).checkValue hl'

end

/-! ## Extensions of the class graph -/

/-- A declaration, another parent of a class, or a new container of any kind, a class being new with
no parents. -/
inductive Extension (h : Heap) : Heap → Prop where
  | declare {owner : ContainerId} {name : String} {d : Declared} {s : SlotId} {h' : Heap} :
      h.declare owner name d = .ok (s, h') → Extension h h'
  | addParent {c parent : ContainerId} {h' : Heap} : h.addParent c parent = .ok h' → Extension h h'
  | alloc {c : Container} : (∀ data, c.kind = .cls data → data = {}) → Extension h (h.alloc c).2
  | newInstance (cls : ContainerId) : Extension h (h.newInstance cls).2

theorem Extension.grows (he : h.Extension h') : h.Grows h' := by
  cases he with
  | declare hok => exact grows_declare hok
  | addParent hok => exact grows_addParent hok
  | alloc => exact grows_alloc h _
  | newInstance => exact grows_alloc h _

theorem Extension.lineal (he : h.Extension h') (hl : h.Lineal) : h'.Lineal := by
  cases he with
  | declare hok => exact hl.declare hok
  | addParent hok => exact hl.addParent hok
  | alloc hc => exact hl.alloc hc
  | newInstance => exact hl.alloc (by rintro data ⟨⟩)

theorem Extension.lists (he : h.Extension h') : h'.lists = h.lists := by
  cases he with
  | declare hok =>
    obtain ⟨-, -, ⟨-, rfl⟩ | ⟨-, found, -, rfl⟩⟩ := declare_inv hok
    · rfl
    · rfl
  | addParent hok =>
    obtain ⟨-, -, -, found, -, rfl⟩ := addParent_inv hok
    rfl
  | alloc => rfl
  | newInstance => rfl

theorem extensions_keep (he : Relation.ReflTransGen Extension h h') (hl : h.Lineal) :
    h.Grows h' ∧ h'.Lineal ∧ h'.lists = h.lists := by
  induction he with
  | refl => exact ⟨.refl h, hl, rfl⟩
  | tail _ he ih =>
    obtain ⟨g, hl, hlists⟩ := ih
    exact ⟨g.trans he.grows, he.lineal hl, he.lists.trans hlists⟩

/-- What any number of operations keep. -/
theorem classOps_keep (ho : Relation.ReflTransGen ClassOp h h') (hl : h.Lineal) :
    h.Grows h' ∧ h'.Lineal := by
  induction ho with
  | refl => exact ⟨.refl h, hl⟩
  | tail _ ho ih => exact ⟨ih.1.trans ho.grows, ho.lineal ih.2⟩

end Heap
end Ditlang
