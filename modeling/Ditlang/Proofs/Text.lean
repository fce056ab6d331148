import Mathlib.Data.List.Basic
import Ditlang.Text.Utf8

/-!
# Ditlang.Proofs.Text

The bytes of a text are those of its characters, one after the other. A character below 128 is one
byte, its own number; all bytes of the others are 128 or more, so that a search for such a byte never
finds a part of another character.

So a look at one byte tells where a text may be cut. An offset between two characters is a boundary
(`Boundary`), and what lies between two boundaries is a text again (`Boundary.exists_between`);
`isBoundary_iff` finds them. Before and after a byte below 128 there is always one (`boundary_beside`), so
that a search for such a byte, or a run over such bytes, ends on a boundary.
-/

namespace Ditlang
namespace Text

theorem toList_loop (bs : ByteArray) (i : Nat) (r : List UInt8) :
    ByteArray.toList.loop bs i r = r.reverse ++ bs.data.toList.drop i := by
  fun_induction ByteArray.toList.loop bs i r with
  | case1 i r hlt ih =>
    have hlt' : i < bs.data.toList.length := hlt
    have hget : bs.get! i = bs.data.toList[i] := by simp [ByteArray.get!, hlt]
    rw [ih, hget, List.reverse_cons, List.append_assoc, List.singleton_append,
      ← List.drop_eq_getElem_cons hlt']
  | case2 i r hle =>
    rw [List.drop_of_length_le (by simpa using hle), List.append_nil]

theorem bytes_eq_data (s : String) : bytes s = s.toByteArray.data.toList := by
  rw [bytes, String.toUTF8_eq_toByteArray, ByteArray.toList, toList_loop]
  rfl

theorem bytes_append (a b : String) : bytes (a ++ b) = bytes a ++ bytes b := by
  rw [bytes_eq_data, bytes_eq_data, bytes_eq_data, String.toByteArray_append, ByteArray.data_append,
    Array.toList_append]

/-- The bytes of a list of characters. -/
def encode (cs : List Char) : List UInt8 := cs.flatMap String.utf8EncodeChar

@[simp] theorem encode_nil : encode [] = [] := rfl

@[simp] theorem encode_cons (c : Char) (cs : List Char) :
    encode (c :: cs) = String.utf8EncodeChar c ++ encode cs :=
  List.flatMap_cons

@[simp] theorem encode_append (cs ds : List Char) : encode (cs ++ ds) = encode cs ++ encode ds :=
  List.flatMap_append

theorem bytes_ofList (cs : List Char) : bytes (String.ofList cs) = encode cs := by
  rw [bytes_eq_data, String.toByteArray_ofList, List.utf8Encode, List.data_toByteArray,
    List.toList_toArray, encode]

theorem bytes_eq_encode (s : String) : bytes s = encode s.toList := by
  rw [← bytes_ofList, String.ofList_toList]

theorem ofBytes?_bytes (s : String) : ofBytes? (bytes s) = some s := by
  have harray : (⟨(bytes s).toArray⟩ : ByteArray) = s.toByteArray := by
    rw [bytes_eq_data, Array.toArray_toList]
  rw [ofBytes?, harray, String.fromUTF8?, dif_pos s.isValidUTF8]
  rfl

theorem ofBytes_bytes (s : String) : ofBytes (bytes s) = s := by
  rw [ofBytes, ofBytes?_bytes, Option.getD_some]

theorem bytes_of_ofBytes? {bs : List UInt8} {s : String} (h : ofBytes? bs = some s) : bytes s = bs := by
  unfold ofBytes? String.fromUTF8? at h
  split at h
  · cases h
    rw [bytes_eq_data]
    rfl
  · cases h

theorem le_ofNat {n : Nat} (h : 128 ≤ n) (h' : n < 256) : 128 ≤ UInt8.ofNat n := by
  rw [UInt8.le_iff_toNat_le, UInt8.toNat_ofNat_of_lt' h']
  exact h

/-- A character is one byte, its number, or several bytes that are no such character. -/
theorem utf8EncodeChar_cases (c : Char) :
    (c.toNat < 128 ∧ String.utf8EncodeChar c = [UInt8.ofNat c.toNat]) ∨
      (128 ≤ c.toNat ∧ ∀ b ∈ String.utf8EncodeChar c, 128 ≤ b) := by
  unfold String.utf8EncodeChar
  dsimp only
  rw [show c.val.toNat = c.toNat from rfl]
  generalize c.toNat = n
  split
  · exact .inl ⟨by omega, rfl⟩
  · refine .inr ⟨by omega, ?_⟩
    split
    · simp only [List.forall_mem_cons, List.not_mem_nil, false_imp_iff, implies_true, and_true]
      exact ⟨le_ofNat (by omega) (by omega), le_ofNat (by omega) (by omega)⟩
    · split
      · simp only [List.forall_mem_cons, List.not_mem_nil, false_imp_iff, implies_true, and_true]
        exact ⟨le_ofNat (by omega) (by omega), le_ofNat (by omega) (by omega),
          le_ofNat (by omega) (by omega)⟩
      · simp only [List.forall_mem_cons, List.not_mem_nil, false_imp_iff, implies_true, and_true]
        exact ⟨le_ofNat (by omega) (by omega), le_ofNat (by omega) (by omega),
          le_ofNat (by omega) (by omega), le_ofNat (by omega) (by omega)⟩

/-! ## Boundaries -/

/-- A byte that goes on with a character: every byte of a character but its first. -/
def isContinuation (b : UInt8) : Bool :=
  0x80 ≤ b && b < 0xC0

/-- An offset between two characters: the bytes before it and those after it are those of texts. -/
def Boundary (bs : List UInt8) (n : Nat) : Prop :=
  ∃ s t, bs = bytes s ++ bytes t ∧ (bytes s).length = n

/-- The test for boundaries that looks at one byte. It is meant for the bytes of a text. -/
def isBoundary (bs : List UInt8) (n : Nat) : Bool :=
  n == 0 ||
    match bs[n]? with
    | some b => !isContinuation b
    | none => n == bs.length

/-! ### Characters -/

theorem isContinuation_ofNat {n : Nat} (h : 128 ≤ n) (h' : n < 192) :
    isContinuation (UInt8.ofNat n) = true := by
  have hn : n % 256 = n := Nat.mod_eq_of_lt (by omega)
  simp only [isContinuation, UInt8.lt_iff_toNat_lt, UInt8.le_iff_toNat_le, UInt8.toNat_ofNat', hn,
    UInt8.reduceToNat, Bool.and_eq_true, decide_eq_true_eq]
  omega

/-- A byte that does not go on with a character begins one, and tells how many bytes it has. -/
theorem lead_ofNat {n : Nat} (h : n < 128 ∨ 192 ≤ n) (h' : n < 256) :
    isContinuation (UInt8.ofNat n) = false ∧ widthOfLead (UInt8.ofNat n) =
      if n < 128 then 1 else if n < 224 then 2 else if n < 240 then 3 else 4 := by
  have hn : n % 256 = n := Nat.mod_eq_of_lt h'
  constructor
  · simp only [isContinuation, UInt8.lt_iff_toNat_lt, UInt8.le_iff_toNat_le, UInt8.toNat_ofNat', hn,
      UInt8.reduceToNat, Bool.and_eq_false_iff, decide_eq_false_iff_not]
    omega
  · simp only [widthOfLead, UInt8.lt_iff_toNat_lt, UInt8.toNat_ofNat', hn, UInt8.reduceToNat]

/-- The first byte of a character tells how many there are, and all others go on with it. -/
theorem utf8EncodeChar_lead (c : Char) : ∃ b rest, String.utf8EncodeChar c = b :: rest ∧
    isContinuation b = false ∧ widthOfLead b = rest.length + 1 ∧
    ∀ x ∈ rest, isContinuation x = true := by
  have hmax : c.val.toNat < 0x110000 := by
    have := c.valid
    simp only [UInt32.isValidChar, Nat.isValidChar] at this
    omega
  have lead (n : Nat) (rest : List UInt8) (h : n < 128 ∨ 192 ≤ n) (h' : n < 256)
      (hrest : ∀ x ∈ rest, isContinuation x = true)
      (hwidth : (if n < 128 then 1 else if n < 224 then 2 else if n < 240 then 3 else 4) =
        rest.length + 1) :
      ∃ b rest', UInt8.ofNat n :: rest = b :: rest' ∧ isContinuation b = false ∧
        widthOfLead b = rest'.length + 1 ∧ ∀ x ∈ rest', isContinuation x = true :=
    ⟨_, _, rfl, (lead_ofNat h h').1, (lead_ofNat h h').2.trans hwidth, hrest⟩
  unfold String.utf8EncodeChar
  dsimp only
  generalize c.val.toNat = v at hmax
  split
  · refine lead _ _ (by omega) (by omega) (by simp) ?_
    rw [if_pos (by omega), List.length_nil]
  · split
    · refine lead _ _ (by omega) (by omega) ?_ ?_
      · simp only [List.forall_mem_cons, List.not_mem_nil, false_imp_iff, implies_true, and_true]
        exact isContinuation_ofNat (by omega) (by omega)
      · rw [if_neg (by omega), if_pos (by omega)]
        rfl
    · split
      · refine lead _ _ (by omega) (by omega) ?_ ?_
        · simp only [List.forall_mem_cons, List.not_mem_nil, false_imp_iff, implies_true, and_true]
          exact ⟨isContinuation_ofNat (by omega) (by omega), isContinuation_ofNat (by omega) (by omega)⟩
        · rw [if_neg (by omega), if_neg (by omega), if_pos (by omega)]
          rfl
      · refine lead _ _ (by omega) (by omega) ?_ ?_
        · simp only [List.forall_mem_cons, List.not_mem_nil, false_imp_iff, implies_true, and_true]
          exact ⟨isContinuation_ofNat (by omega) (by omega), isContinuation_ofNat (by omega) (by omega),
            isContinuation_ofNat (by omega) (by omega)⟩
        · rw [if_neg (by omega), if_neg (by omega), if_neg (by omega)]
          rfl

/-! ### The test -/

theorem bytes_empty : bytes "" = [] := by
  rw [bytes_eq_encode]
  rfl

theorem exists_encode (s : String) : ∃ cs, bytes s = encode cs :=
  ⟨s.toList, bytes_eq_encode s⟩

theorem isBoundary_of_eq_some {bs : List UInt8} {n : Nat} {b : UInt8} (hn : n ≠ 0)
    (hb : bs[n]? = some b) : isBoundary bs n = !isContinuation b := by
  simp [isBoundary, hn, hb]

/-- The test does not look at what stands in front. -/
theorem isBoundary_append (as bs : List UInt8) {n : Nat} (hn : n ≠ 0) :
    isBoundary (as ++ bs) (as.length + n) = isBoundary bs n := by
  have hget : (as ++ bs)[as.length + n]? = bs[n]? := by
    rw [List.getElem?_append_right (by omega), Nat.add_sub_cancel_left]
  have hzero : (as.length + n == 0) = (n == 0) := by
    rw [Bool.eq_iff_iff, beq_iff_eq, beq_iff_eq]
    omega
  have hend : (as.length + n == (as ++ bs).length) = (n == bs.length) := by
    rw [Bool.eq_iff_iff, beq_iff_eq, beq_iff_eq, List.length_append]
    omega
  rw [isBoundary, isBoundary, hget, hzero, hend]

namespace Boundary

variable {bs : List UInt8} {m n : Nat}

theorem zero (s : String) : Boundary (bytes s) 0 :=
  ⟨"", s, by simp [bytes_empty], by simp [bytes_empty]⟩

theorem length (s : String) : Boundary (bytes s) (bytes s).length :=
  ⟨s, "", by simp [bytes_empty], rfl⟩

theorem exists_bytes (h : Boundary bs n) : ∃ s, bs = bytes s := by
  obtain ⟨s, t, rfl, -⟩ := h
  exact ⟨s ++ t, (bytes_append s t).symm⟩

theorem le_length (h : Boundary bs n) : n ≤ bs.length := by
  obtain ⟨s, t, rfl, rfl⟩ := h
  simp

theorem append_left (a : String) (h : Boundary bs n) :
    Boundary (bytes a ++ bs) ((bytes a).length + n) := by
  obtain ⟨s, t, rfl, rfl⟩ := h
  exact ⟨a ++ s, t, by rw [bytes_append, List.append_assoc], by rw [bytes_append, List.length_append]⟩

/-- What stands at a boundary does not go on with a character. -/
theorem isBoundary (h : Boundary bs n) : isBoundary bs n = true := by
  obtain ⟨s, t, rfl, rfl⟩ := h
  rcases Nat.eq_zero_or_pos (bytes s).length with hzero | hpos
  · simp [Text.isBoundary, hzero]
  · obtain ⟨cs, hcs⟩ := exists_encode t
    rw [hcs]
    cases cs with
    | nil => simp [Text.isBoundary]
    | cons c cs =>
      obtain ⟨b, rest, hc, hb, -, -⟩ := utf8EncodeChar_lead c
      rw [isBoundary_of_eq_some (b := b) (by omega) (by simp [hc]), hb]
      rfl

end Boundary

theorem boundary_encode {cs : List Char} {n : Nat} (h : isBoundary (encode cs) n = true) :
    Boundary (encode cs) n := by
  induction cs generalizing n with
  | nil =>
    have hn : n = 0 := by simpa [isBoundary] using h
    exact ⟨"", "", by simp [bytes_empty], by simp [bytes_empty, hn]⟩
  | cons c cs ih =>
    rcases Nat.eq_zero_or_pos n with rfl | hpos
    · rw [← bytes_ofList]
      exact .zero _
    obtain ⟨b, rest, hc, hb, -, hrest⟩ := utf8EncodeChar_lead c
    have hchar : bytes (String.ofList [c]) = b :: rest := by rw [bytes_ofList, encode_cons, hc]; simp
    rw [encode_cons, hc] at h ⊢
    by_cases hn : n < (b :: rest).length
    · -- inside the first character
      obtain ⟨x, hx⟩ : ∃ x, (b :: rest)[n]? = some x := ⟨_, List.getElem?_eq_getElem hn⟩
      have hmem : x ∈ rest := by
        obtain ⟨k, rfl⟩ : ∃ k, n = k + 1 := ⟨n - 1, by omega⟩
        exact List.mem_of_getElem? (by simpa using hx)
      rw [isBoundary_of_eq_some (by omega) (by rw [List.getElem?_append_left hn, hx]), hrest x hmem] at h
      cases h
    · obtain ⟨m, rfl⟩ : ∃ m, n = (b :: rest).length + m := ⟨n - (b :: rest).length, by omega⟩
      rw [← hchar]
      refine (ih ?_).append_left _
      by_cases hm : m = 0
      · simp [isBoundary, hm]
      · rwa [isBoundary_append _ _ hm] at h

theorem isBoundary_iff (s : String) (n : Nat) : isBoundary (bytes s) n = true ↔ Boundary (bytes s) n := by
  refine ⟨fun h => ?_, Boundary.isBoundary⟩
  rw [bytes_eq_encode] at h ⊢
  exact boundary_encode h

/-! ### Cutting -/

namespace Boundary

variable {bs : List UInt8} {m n : Nat}

/-- The bytes from a boundary on are a text, and its boundaries are those of the whole. -/
theorem drop (hm : Boundary bs m) (hn : Boundary bs n) (hle : m ≤ n) :
    Boundary (bs.drop m) (n - m) := by
  obtain ⟨s, t, rfl, rfl⟩ := hm
  rw [List.drop_left]
  obtain ⟨k, rfl⟩ : ∃ k, n = (bytes s).length + k := ⟨n - (bytes s).length, by omega⟩
  rw [Nat.add_sub_cancel_left]
  by_cases hk : k = 0
  · exact hk ▸ .zero t
  · rw [← isBoundary_iff, ← isBoundary_append (bytes s) _ hk]
    exact hn.isBoundary

/-- The bytes up to a boundary are a text, and its boundaries are those of the whole. -/
theorem take (hm : Boundary bs m) (hn : Boundary bs n) (hle : m ≤ n) : Boundary (bs.take n) m := by
  obtain ⟨t, u, hdrop, hlen⟩ := hm.drop hn hle
  obtain ⟨s, t', rfl, rfl⟩ := hm
  rw [List.drop_left] at hdrop
  refine ⟨s, t, ?_, rfl⟩
  have hn : n = (bytes s ++ bytes t).length := by
    rw [List.length_append, hlen]
    omega
  rw [hdrop, ← List.append_assoc, hn, List.take_left]

theorem exists_between (hm : Boundary bs m) (hn : Boundary bs n) (hle : m ≤ n) :
    ∃ s, (bs.drop m).take (n - m) = bytes s := by
  obtain ⟨s, t, hdrop, hlen⟩ := hm.drop hn hle
  exact ⟨s, by rw [hdrop, ← hlen, List.take_left]⟩

theorem exists_drop (hm : Boundary bs m) : ∃ s, bs.drop m = bytes s := by
  obtain ⟨s, t, rfl, rfl⟩ := hm
  exact ⟨t, List.drop_left⟩

end Boundary

theorem not_isContinuation {b : UInt8} (hb : b < 0x80) : isContinuation b = false := by
  simp only [UInt8.lt_iff_toNat_lt, UInt8.reduceToNat] at hb
  simp only [isContinuation, UInt8.le_iff_toNat_le, UInt8.reduceToNat, Bool.and_eq_false_iff,
    decide_eq_false_iff_not]
  omega

/-- Before and after a byte below 128 there is a boundary. -/
theorem boundary_beside {s : String} {n : Nat} {b : UInt8} (hb : (bytes s)[n]? = some b)
    (hlow : b < 0x80) : Boundary (bytes s) n ∧ Boundary (bytes s) (n + 1) := by
  have hbefore : Boundary (bytes s) n := by
    rw [← isBoundary_iff]
    by_cases hn : n = 0
    · simp [isBoundary, hn]
    · rw [isBoundary_of_eq_some hn hb, not_isContinuation hlow]
      rfl
  refine ⟨hbefore, ?_⟩
  -- the byte is all of the character that stands there
  obtain ⟨s', t, hs, rfl⟩ := hbefore
  rw [hs, List.getElem?_append_right (by omega), Nat.sub_self] at hb
  obtain ⟨cs, hcs⟩ := exists_encode t
  cases cs with
  | nil => rw [hcs, encode_nil] at hb; cases hb
  | cons c cs =>
    rw [hcs, encode_cons] at hb
    obtain ⟨-, hc⟩ | ⟨-, hc⟩ := utf8EncodeChar_cases c
    · refine ⟨s' ++ String.ofList [c], String.ofList cs, ?_, ?_⟩
      · rw [hs, hcs, bytes_append, bytes_ofList, bytes_ofList]
        simp
      · rw [bytes_append, bytes_ofList, encode_cons, encode_nil, hc]
        simp
    · obtain ⟨x, rest, hx, -⟩ := utf8EncodeChar_lead c
      rw [hx] at hb
      cases hb
      exact absurd (hc b (by simp [hx])) (by simpa using hlow)

theorem firstChar?_bytes (s : String) : firstChar? (bytes s) = s.toList.head? := by
  rw [bytes_eq_encode]
  cases s.toList with
  | nil => rfl
  | cons c cs =>
    obtain ⟨b, rest, hc, -, hwidth, -⟩ := utf8EncodeChar_lead c
    have hchar : b :: rest = bytes (String.ofList [c]) := by
      rw [bytes_ofList, encode_cons, encode_nil, List.append_nil, hc]
    have htake : (b :: rest ++ encode cs).take (widthOfLead b) = bytes (String.ofList [c]) := by
      rw [hwidth, ← hchar, ← List.length_cons (a := b), List.take_left]
    rw [encode_cons, hc, List.cons_append, firstChar?, ← List.cons_append, htake, ofBytes?_bytes]
    simp

end Text
end Ditlang
