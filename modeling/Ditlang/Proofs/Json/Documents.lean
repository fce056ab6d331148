import Ditlang.Json.Basic
import Mathlib.Data.List.Induction
import Mathlib.Data.List.Sort
import Mathlib.Data.String.Basic

/-!
# Ditlang.Proofs.Json.Documents

JSON documents as they are compared. Two documents are the same when their arrays agree item by item,
their objects key by key in any order, and their numbers as numbers of the language (`Json.same`).
An object is made of fields by sorting them under their keys: this reorders fields with different keys
(`sortFields_perm`), and leaves fields alone that are in order (`sortFields_of_pairwise`).
-/

namespace Ditlang
namespace Json

/-- What holds of a document when it holds of the items of an array and of the fields of an object
holds of every document. -/
@[elab_as_elim] theorem nestedInduction {P : Json → Prop} (null : P .null) (bool : ∀ b, P (.bool b))
    (int : ∀ n, P (.int n)) (real : ∀ x, P (.real x)) (str : ∀ s, P (.str s))
    (arr : ∀ items : List Json, (∀ j ∈ items, P j) → P (.arr items))
    (obj : ∀ fields : List (String × Json), (∀ f ∈ fields, P f.2) → P (.obj fields)) (j : Json) :
    P j :=
  @Json.rec P (fun items => ∀ j ∈ items, P j) (fun fields => ∀ f ∈ fields, P f.2) (fun f => P f.2)
    null bool int real str arr obj (fun _ hj => nomatch hj)
    (fun _ _ hj hrest => List.forall_mem_cons.2 ⟨hj, hrest⟩) (fun _ hf => nomatch hf)
    (fun _ _ hf hrest => List.forall_mem_cons.2 ⟨hf, hrest⟩) (fun _ _ hj => hj) j

/-! ## What holds throughout a document -/

mutual

/-- Whether something holds of a document and of all documents inside of it. -/
def all (p : Json → Bool) : Json → Bool
  | .arr items => p (.arr items) && allItems p items
  | .obj fields => p (.obj fields) && allFields p fields
  | j => p j

def allItems (p : Json → Bool) : List Json → Bool
  | [] => true
  | j :: rest => j.all p && allItems p rest

def allFields (p : Json → Bool) : List (String × Json) → Bool
  | [] => true
  | (_, j) :: rest => j.all p && allFields p rest

end

section

variable {p : Json → Bool}

theorem allItems_eq_all (items : List Json) : allItems p items = items.all (all p) := by
  induction items with
  | nil => rfl
  | cons j rest ih => rw [allItems, ih, List.all_cons]

theorem allFields_eq_all (fields : List (String × Json)) :
    allFields p fields = fields.all fun f => f.2.all p := by
  induction fields with
  | nil => rfl
  | cons f rest ih => rw [allFields, ih, List.all_cons]

theorem all_arr_iff {items : List Json} :
    (arr items).all p = true ↔ p (.arr items) = true ∧ ∀ j ∈ items, j.all p = true := by
  rw [all, allItems_eq_all, Bool.and_eq_true, List.all_eq_true]

theorem all_obj_iff {fields : List (String × Json)} :
    (obj fields).all p = true ↔ p (.obj fields) = true ∧ ∀ f ∈ fields, f.2.all p = true := by
  rw [all, allFields_eq_all, Bool.and_eq_true, List.all_eq_true]

end

def number? : Json → Option Number
  | .int n => some (.ofInt n)
  | .real x => some x
  | _ => none

/-- Whether all numbers of a document are finite. -/
def finite (j : Json) : Bool :=
  j.all fun k => k.number?.all Number.isFinite

/-- Whether no number of a document was read as an integer. -/
def fractional (j : Json) : Bool :=
  j.all fun
    | .int _ => false
    | _ => true

/-- Whether no object of a document has a key twice. -/
def keyed (j : Json) : Bool :=
  j.all fun
    | .obj fields => (fields.map Prod.fst).Nodup
    | _ => true

/-- Whether the fields of all objects of a document are in the order of their keys, each key once. -/
def sorted (j : Json) : Bool :=
  j.all fun
    | .obj fields => (fields.map Prod.fst).Pairwise (· < ·)
    | _ => true

/-! ## Equality of documents -/

mutual

/-- Equality of documents: arrays item by item, objects by their keys in any order, numbers as
numbers of the language. -/
def same : Json → Json → Bool
  | .arr as, .arr bs => sameItems as bs
  | .obj as, .obj bs => as.length == bs.length && sameFields as bs
  | .null, .null => true
  | .bool a, .bool b => a == b
  | .str a, .str b => a == b
  | .int m, b => some (.ofInt m) == b.number?
  | .real x, b => some x == b.number?
  | _, _ => false

def sameItems : List Json → List Json → Bool
  | [], [] => true
  | a :: as, b :: bs => a.same b && sameItems as bs
  | _, _ => false

/-- Whether every field has an equal one under its key in a second object. -/
def sameFields : List (String × Json) → List (String × Json) → Bool
  | [], _ => true
  | (k, a) :: rest, bs =>
    (match bs.lookup k with
    | some b => a.same b
    | none => false) && sameFields rest bs

end

theorem sameItems_map {α : Type} {f g : α → Json} {xs : List α}
    (hfg : ∀ x ∈ xs, (f x).same (g x) = true) : sameItems (xs.map f) (xs.map g) = true := by
  induction xs with
  | nil => rfl
  | cons x xs ih =>
    rw [List.forall_mem_cons] at hfg
    rw [List.map_cons, List.map_cons, sameItems, hfg.1, ih hfg.2, Bool.and_self]

theorem sameFields_of_lookup {as bs : List (String × Json)}
    (hab : ∀ f ∈ as, ∃ b, bs.lookup f.1 = some b ∧ f.2.same b = true) :
    sameFields as bs = true := by
  induction as with
  | nil => rfl
  | cons f as ih =>
    rw [List.forall_mem_cons] at hab
    obtain ⟨⟨b, hb, hsame⟩, hrest⟩ := hab
    simp only [sameFields, hb, hsame, ih hrest, Bool.and_self]

/-! ## The fields of an object -/

section

variable {key : String} {value : Json} {fields : List (String × Json)}

theorem insertField_perm (hk : key ∉ fields.map Prod.fst) :
    (insertField key value fields).Perm ((key, value) :: fields) := by
  induction fields with
  | nil => exact .refl _
  | cons f rest ih =>
    obtain ⟨k, v⟩ := f
    rw [List.map_cons, List.mem_cons, not_or] at hk
    rw [insertField, if_neg hk.1]
    split
    · exact .refl _
    · exact ((ih hk.2).cons _).trans (.swap _ _ _)

theorem mem_keys_insertField {k : String} (hk : k ∈ (insertField key value fields).map Prod.fst) :
    k = key ∨ k ∈ fields.map Prod.fst := by
  induction fields with
  | nil => simpa [insertField] using hk
  | cons f rest ih =>
    obtain ⟨k', v⟩ := f
    rw [insertField] at hk
    split at hk
    · simpa using hk
    · split at hk
      · rename_i heq
        simp only [List.map_cons, List.mem_cons] at hk ⊢
        tauto
      · simp only [List.map_cons, List.mem_cons] at hk ⊢
        tauto

theorem pairwise_insertField (hs : (fields.map Prod.fst).Pairwise (· < ·)) :
    ((insertField key value fields).map Prod.fst).Pairwise (· < ·) := by
  induction fields with
  | nil => simp [insertField]
  | cons f rest ih =>
    obtain ⟨k, v⟩ := f
    rw [List.map_cons, List.pairwise_cons] at hs
    rw [insertField]
    split
    · rename_i hlt
      refine List.pairwise_cons.2 ⟨fun k' hk' => ?_, List.pairwise_cons.2 hs⟩
      rcases List.mem_cons.1 hk' with rfl | hk'
      · exact hlt
      · exact hlt.trans (hs.1 k' hk')
    · split
      · rename_i heq
        exact List.pairwise_cons.2 ⟨heq ▸ hs.1, hs.2⟩
      · rename_i hnlt hne
        refine List.pairwise_cons.2 ⟨fun k' hk' => ?_, ih hs.2⟩
        rcases mem_keys_insertField hk' with rfl | hk'
        · exact lt_of_le_of_ne (not_lt.1 hnlt) (Ne.symm hne)
        · exact hs.1 k' hk'

end

/-- The fields of the object that is made of some fields. -/
def sortFields (fields : List (String × Json)) : List (String × Json) :=
  fields.foldl (fun acc (k, v) => insertField k v acc) []

theorem object_eq (fields : List (String × Json)) : object fields = .obj (sortFields fields) := rfl

theorem sortFields_concat (fields : List (String × Json)) (f : String × Json) :
    sortFields (fields ++ [f]) = insertField f.1 f.2 (sortFields fields) := by
  rw [sortFields, List.foldl_append]
  rfl

/-- The fields of an object are in the order of their keys, each key once. -/
theorem pairwise_sortFields (fields : List (String × Json)) :
    ((sortFields fields).map Prod.fst).Pairwise (· < ·) := by
  induction fields using List.reverseRecOn with
  | nil => exact .nil
  | append_singleton fields f ih =>
    rw [sortFields_concat]
    exact pairwise_insertField ih

theorem nodup_of_pairwise {keys : List String} (hs : keys.Pairwise (· < ·)) : keys.Nodup :=
  hs.imp fun hlt => ne_of_lt hlt

theorem sortFields_perm {fields : List (String × Json)} (hn : (fields.map Prod.fst).Nodup) :
    (sortFields fields).Perm fields := by
  induction fields using List.reverseRecOn with
  | nil => exact .refl _
  | append_singleton fields f ih =>
    rw [List.map_append, List.map_singleton, ← List.concat_eq_append, List.nodup_concat] at hn
    have hperm := ih hn.2
    have hnew : f.1 ∉ (sortFields fields).map Prod.fst :=
      fun hmem => hn.1 ((hperm.map Prod.fst).mem_iff.1 hmem)
    rw [sortFields_concat]
    exact (insertField_perm hnew).trans ((hperm.cons f).trans (List.perm_append_singleton f fields).symm)

theorem sortFields_of_pairwise {fields : List (String × Json)}
    (hs : (fields.map Prod.fst).Pairwise (· < ·)) : sortFields fields = fields := by
  have hsort : ∀ {fs : List (String × Json)}, (fs.map Prod.fst).Pairwise (· < ·) →
      fs.Pairwise fun f g => f.1 < g.1 := fun hp => List.pairwise_map.1 hp
  refine (sortFields_perm (nodup_of_pairwise hs)).eq_of_pairwise ?_ (hsort (pairwise_sortFields _))
    (hsort hs)
  intro f g _ _ hfg hgf
  exact absurd (hfg.trans hgf) (lt_irrefl _)

end Json
end Ditlang
