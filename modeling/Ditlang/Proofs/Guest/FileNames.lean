import Mathlib.Data.List.Nodup
import Mathlib.Data.List.Perm.Subperm
import Ditlang.Eval.Calls
import Ditlang.Proofs.Host.Files

/-!
# Ditlang.Proofs.Guest.FileNames

The names of guest files. A function takes the first name among `base`, `base_2`, `base_3`, … that no
other one has claimed. The names are all different (`stemAt_inj`, `fileName_inj`), so that one of the
first `n + 1` is free when `n` are claimed: the search ends, and what it ends with is the name that a
search without a bound would find (`exists_freeFileName`). A file with such a name is in the directory
it is written into, if the extension has no path separator (`plain_fileName`).
-/

namespace Ditlang

open Host (Slashless Path.Plain)

namespace Guest

/-- The name that a base has at the `n`-th try. -/
def stemAt (base : String) (n : Nat) : String :=
  if n = 1 then base else base ++ "_" ++ toString n

theorem length_lt_stemAt (base : String) {n : Nat} (hn : n ≠ 1) :
    base.length < (stemAt base n).length := by
  have hbar : "_".length = 1 := rfl
  rw [stemAt, if_neg hn, String.length_append, String.length_append, hbar]
  omega

theorem stemAt_inj {base : String} {m n : Nat} (h : stemAt base m = stemAt base n) : m = n := by
  by_cases hm : m = 1
  · by_cases hn : n = 1
    · exact hm.trans hn.symm
    · have hlt := length_lt_stemAt base hn
      rw [← h, hm, stemAt, if_pos rfl] at hlt
      omega
  · by_cases hn : n = 1
    · have hlt := length_lt_stemAt base hm
      rw [h, hn, stemAt, if_pos rfl] at hlt
      omega
    · rw [stemAt, stemAt, if_neg hm, if_neg hn] at h
      have hlist := congrArg String.toList h
      simp only [String.toList_append] at hlist
      have hdigits := List.append_cancel_left hlist
      have hnumber := congrArg (fun cs => Nat.ofDigitChars 10 cs 0) hdigits
      simpa [Nat.toString_eq_ofList_toDigits] using hnumber

theorem slashless_toString (n : Nat) : Slashless (toString n) := by
  intro h
  rw [Nat.toString_eq_repr, Nat.toList_repr] at h
  have hdigit := Nat.isDigit_of_mem_toDigits (by decide) (by decide) h
  exact absurd hdigit (by decide)

theorem slashless_stemAt {base : String} (hb : Slashless base) (n : Nat) :
    Slashless (stemAt base n) := by
  unfold stemAt
  split
  · exact hb
  · exact (hb.append (by decide)).append (slashless_toString n)

theorem slashless_stemOf {name : String} (hn : Slashless name) (c : ContainerId) :
    Slashless (stemOf name c) := by
  unfold stemOf
  split
  · exact Slashless.append (by decide) (slashless_toString _)
  · exact hn

theorem fileName_inj {lang stem stem' ext : String}
    (h : fileName lang stem ext = fileName lang stem' ext) : stem = stem' := by
  have hlist := congrArg String.toList h
  simp only [fileName, String.toList_append, List.append_assoc] at hlist
  exact String.toList_inj.1 (List.append_cancel_right (List.append_cancel_left
    (List.append_cancel_left hlist)))

/-- It does not begin with a path separator, whatever the extension is. -/
theorem isAbsolute_fileName {lang : String} (hl : Slashless lang) (stem ext : String) :
    Host.Path.isAbsolute (fileName lang stem ext) = false := by
  rw [Host.Path.isAbsolute, beq_eq_false_iff_ne]
  intro h
  simp only [fileName, String.toList_append, List.append_assoc] at h
  cases hlang : lang.toList with
  | nil =>
    rw [hlang] at h
    exact absurd h (by simp)
  | cons c cs =>
    rw [hlang] at h
    cases h
    exact hl (hlang ▸ List.mem_cons_self)

/-- It leads to something in the directory it is written into. -/
theorem plain_fileName {lang stem ext : String} (hl : Slashless lang) (hs : Slashless stem)
    (he : Slashless ext) : Path.Plain (fileName lang stem ext) := by
  have hmiddle : '_' ∈ (fileName lang stem ext).toList := by
    simp [fileName, String.toList_append]
  refine ⟨?_, ?_, ?_, ?_⟩
  · exact (((hl.append (by decide)).append hs).append (by decide)).append he
  all_goals
    intro heq
    rw [heq] at hmiddle
    exact absurd hmiddle (by decide)

end Guest

namespace Session

open Guest (stemAt)

/-- The first try whose file no function has claimed. -/
structure FirstFree (s : Session) (fileOf : String → String) (base : String) (n : Nat) : Prop where
  one_le : 1 ≤ n
  free : fileOf (stemAt base n) ∉ s.guestFiles
  taken : ∀ m, 1 ≤ m → m < n → fileOf (stemAt base m) ∈ s.guestFiles

variable (s : Session) {fileOf : String → String}

/-- The search ends with the first free name, or all names that it tries are taken. -/
theorem freeFileName_cases (fileOf : String → String) (base : String) (k n : Nat) :
    (∃ m, n ≤ m ∧ s.freeFileName fileOf base k n = fileOf (stemAt base m) ∧
        fileOf (stemAt base m) ∉ s.guestFiles ∧
        ∀ i, n ≤ i → i < m → fileOf (stemAt base i) ∈ s.guestFiles) ∨
      ∀ i, n ≤ i → i < n + k → fileOf (stemAt base i) ∈ s.guestFiles := by
  induction k generalizing n with
  | zero => exact .inr fun i hle hlt => by omega
  | succ k ih =>
    rw [freeFileName]
    show (∃ m, n ≤ m ∧ (if s.guestFiles.contains (fileOf (stemAt base n)) = true then
      s.freeFileName fileOf base k (n + 1) else fileOf (stemAt base n)) = _ ∧ _) ∨ _
    by_cases htaken : fileOf (stemAt base n) ∈ s.guestFiles
    · rw [if_pos (List.contains_iff_mem.2 htaken)]
      have hfrom : ∀ {m}, (∀ i, n + 1 ≤ i → i < m → fileOf (stemAt base i) ∈ s.guestFiles) →
          ∀ i, n ≤ i → i < m → fileOf (stemAt base i) ∈ s.guestFiles := by
        intro m hall i hle hlt
        rcases Nat.eq_or_lt_of_le hle with rfl | hle
        · exact htaken
        · exact hall i hle hlt
      rcases ih (n + 1) with ⟨m, hle, hname, hfree, hall⟩ | hall
      · exact .inl ⟨m, by omega, hname, hfree, hfrom hall⟩
      · exact .inr (hfrom fun i hle hlt => hall i hle (by omega))
    · rw [if_neg (fun hc => htaken (List.contains_iff_mem.1 hc))]
      exact .inl ⟨n, Nat.le_refl n, rfl, htaken, fun i hle hlt => by omega⟩

/-- More names than there are claimed ones are not all taken. -/
theorem not_all_taken (hinj : ∀ a b, fileOf a = fileOf b → a = b) (base : String) :
    ¬ ∀ i, 1 ≤ i → i < 1 + (s.guestFiles.length + 1) → fileOf (stemAt base i) ∈ s.guestFiles := by
  intro hall
  let names := (List.range (s.guestFiles.length + 1)).map fun i => fileOf (stemAt base (i + 1))
  have hnodup : names.Nodup := by
    refine List.Nodup.map ?_ List.nodup_range
    intro i j hij
    have := Guest.stemAt_inj (hinj _ _ hij)
    omega
  have hsub : names ⊆ s.guestFiles := by
    intro name hname
    obtain ⟨i, hi, rfl⟩ := List.mem_map.1 hname
    have hlt := List.mem_range.1 hi
    exact hall (i + 1) (by omega) (by omega)
  have hle := (List.subperm_of_subset hnodup hsub).length_le
  simp only [names, List.length_map, List.length_range] at hle
  omega

/-- The search for the name of a guest file ends, with the first free one. -/
theorem exists_freeFileName (lang ext base : String) :
    ∃ n, s.FirstFree (Guest.fileName lang · ext) base n ∧
      s.freeFileName (Guest.fileName lang · ext) base (s.guestFiles.length + 1) 1 =
        Guest.fileName lang (stemAt base n) ext := by
  rcases s.freeFileName_cases (Guest.fileName lang · ext) base (s.guestFiles.length + 1) 1 with
    ⟨n, hle, hname, hfree, htaken⟩ | hall
  · exact ⟨n, ⟨hle, hfree, htaken⟩, hname⟩
  · exact absurd hall (s.not_all_taken (fun _ _ => Guest.fileName_inj) base)

end Session
end Ditlang
