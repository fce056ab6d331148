import Ditlang.Host.Basic
import Ditlang.Proofs.Text

/-!
# Ditlang.Proofs.Host.Files

Files in one directory. A `Plain` name leads from a directory to something in it, so that different
names lead to different places (`join_inj`, `resolve_join`). Making directories takes nothing away
(`Keeps`), and writing a file changes nothing but that file (`Stays`, `write_join_cases`). So a file that
was written into a directory can be read back from there (`read_of_writeInto`), and it reads the same
after others were written beside it (`read_writeInto_of_ne`).
-/

namespace Ditlang
namespace Host

/-- A text without a path separator. -/
def Slashless (s : String) : Prop :=
  '/' ∉ s.toList

instance Slashless.decidable : DecidablePred Slashless :=
  fun s => inferInstanceAs (Decidable ('/' ∉ s.toList))

theorem Slashless.append {a b : String} (ha : Slashless a) (hb : Slashless b) :
    Slashless (a ++ b) := by
  rw [Slashless, String.toList_append, List.mem_append, not_or]
  exact ⟨ha, hb⟩

namespace Path

/-- A name that leads from a directory to something in it. -/
structure Plain (name : String) : Prop where
  slashless : Slashless name
  ne_empty : name ≠ ""
  ne_dot : name ≠ "."
  ne_dots : name ≠ ".."

theorem isAbsolute_eq_false {name : String} (hn : Slashless name) : isAbsolute name = false := by
  rw [isAbsolute, beq_eq_false_iff_ne]
  exact fun h => hn (List.mem_of_mem_head? h)

/-- What a directory puts before the names in it. -/
def lead (dir : String) : List Char :=
  if dir.isEmpty || dir.toList.getLast? == some '/' then dir.toList else dir.toList ++ ['/']

theorem toList_join (dir : String) {name : String} (hn : isAbsolute name = false) :
    (join dir name).toList = lead dir ++ name.toList := by
  simp only [join, lead, hn, Bool.false_eq_true, if_false]
  split
  · rw [String.toList_append]
  · simp

theorem join_inj {dir name name' : String} (hn : isAbsolute name = false)
    (hn' : isAbsolute name' = false) (h : join dir name = join dir name') : name = name' := by
  have hlist := congrArg String.toList h
  rw [toList_join dir hn, toList_join dir hn'] at hlist
  exact String.toList_inj.1 (List.append_cancel_left hlist)

theorem lead_cases (dir : String) : lead dir = [] ∨ ∃ cs, lead dir = cs ++ ['/'] := by
  unfold lead
  split
  · rename_i h
    rcases Bool.or_eq_true_iff.1 h with h | h
    · exact .inl (by simpa using h)
    · obtain ⟨cs, hcs⟩ := List.getLast?_eq_some_iff.1 (eq_of_beq h)
      exact .inr ⟨cs, hcs⟩
  · exact .inr ⟨_, rfl⟩

/-- The components that lead to a directory, and whether the path starts at the root, are the same for
all names in the directory. -/
theorem exists_components (dir : String) : ∃ absolute base, ∀ name, Slashless name →
    isAbsolute (join dir name) = absolute ∧ components (join dir name) = base ++ [name] := by
  rcases lead_cases dir with h | ⟨cs, h⟩
  · refine ⟨false, [], fun name hn => ?_⟩
    have hlist := toList_join dir (isAbsolute_eq_false hn)
    rw [h, List.nil_append] at hlist
    rw [String.toList_inj.1 hlist]
    refine ⟨isAbsolute_eq_false hn, ?_⟩
    rw [components, List.splitOn_eq_singleton hn, List.map_singleton, String.ofList_toList]
    rfl
  · refine ⟨(cs ++ ['/']).head? == some '/', (cs.splitOn '/').map String.ofList, fun name hn => ?_⟩
    have hlist := toList_join dir (isAbsolute_eq_false hn)
    rw [h] at hlist
    constructor
    · rw [isAbsolute, hlist]
      cases cs <;> rfl
    · rw [components, hlist, List.append_assoc, List.singleton_append,
        List.splitOn_append_cons_self, List.splitOn_eq_singleton hn, List.map_append,
        List.map_singleton, String.ofList_toList]

end Path

namespace FileTree

variable {t t' t'' : FileTree} {dir name path text : String}

/-! ## Places that stay what they are -/

theorem lookup_filter_ne (nodes : List (List String × Node)) {place p : List String} (h : p ≠ place) :
    (nodes.filter (·.1 ≠ place)).lookup p = nodes.lookup p := by
  induction nodes with
  | nil => rfl
  | cons x nodes ih =>
    obtain ⟨q, n⟩ := x
    by_cases hq : q = place
    · have hpq : (p == q) = false := by simpa [hq] using h
      rw [List.filter_cons_of_neg (by simpa using hq), ih, List.lookup_cons, hpq]
    · rw [List.filter_cons_of_pos (by simpa using hq), List.lookup_cons, List.lookup_cons, ih]

theorem node?_set (t : FileTree) {place : List String} (hp : place ≠ []) (n : Node) (p : List String) :
    (t.set place n).node? p = if p = place then some n else t.node? p := by
  unfold node? set
  by_cases h : p = place
  · subst h
    simp [hp]
  · simp only [if_neg h, List.lookup_cons, beq_eq_false_iff_ne.2 h]
    rw [lookup_filter_ne _ h]

/-- Directories and devices stay where they are. -/
structure Stays (t t' : FileTree) : Prop where
  cwd : t'.cwd = t.cwd
  node : ∀ p n, t.node? p = some n → (∀ bytes, n ≠ .file bytes) → t'.node? p = some n

/-- All that is there stays what it is. -/
structure Keeps (t t' : FileTree) : Prop where
  cwd : t'.cwd = t.cwd
  node : ∀ p n, t.node? p = some n → t'.node? p = some n

theorem Stays.refl (t : FileTree) : t.Stays t :=
  ⟨rfl, fun _ _ h _ => h⟩

theorem Stays.trans (h : t.Stays t') (h' : t'.Stays t'') : t.Stays t'' :=
  ⟨h'.cwd.trans h.cwd, fun p n hn hf => h'.node p n (h.node p n hn hf) hf⟩

theorem Keeps.refl (t : FileTree) : t.Keeps t :=
  ⟨rfl, fun _ _ h => h⟩

theorem Keeps.trans (h : t.Keeps t') (h' : t'.Keeps t'') : t.Keeps t'' :=
  ⟨h'.cwd.trans h.cwd, fun p n hn => h'.node p n (h.node p n hn)⟩

theorem Keeps.stays (h : t.Keeps t') : t.Stays t' :=
  ⟨h.cwd, fun p n hn _ => h.node p n hn⟩

/-- Something is put where no directory and no device stands. -/
theorem stays_set {place : List String} (hp : place ≠ []) (n : Node)
    (hn : ∀ m, t.node? place = some m → ∃ bytes, m = .file bytes) : t.Stays (t.set place n) := by
  refine ⟨rfl, fun p m hm hf => ?_⟩
  rw [node?_set t hp]
  split
  · rename_i heq
    subst heq
    obtain ⟨bytes, rfl⟩ := hn m hm
    exact absurd rfl (hf bytes)
  · exact hm

theorem keeps_set {place : List String} (hp : place ≠ []) (n : Node) (hn : t.node? place = none) :
    t.Keeps (t.set place n) := by
  refine ⟨rfl, fun p m hm => ?_⟩
  rw [node?_set t hp, if_neg]
  · exact hm
  · rintro rfl
    cases hn.symm.trans hm

/-- A walk goes through directories, so that it is the same where they stay. -/
theorem Stays.walk (h : t.Stays t') {place parts r : List String} (hw : t.walk place parts = .ok r) :
    t'.walk place parts = .ok r := by
  induction parts generalizing place with
  | nil => exact hw
  | cons part rest ih =>
    rw [FileTree.walk] at hw ⊢
    cases hn : t.node? place with
    | none =>
      rw [hn] at hw
      cases hw
    | some n =>
      rw [hn] at hw
      cases n with
      | file bytes => cases hw
      | device => cases hw
      | dir =>
        rw [h.node place .dir hn nofun]
        dsimp only at hw ⊢
        split at hw
        · rename_i hstay
          rw [if_pos hstay]
          exact ih hw
        · rename_i hstay
          rw [if_neg hstay]
          split at hw
          · rename_i hup
            rw [if_pos hup]
            exact ih hw
          · rename_i hup
            rw [if_neg hup]
            split at hw
            · cases hw
            · rename_i hshort
              rw [if_neg hshort]
              exact ih hw

theorem Stays.start? (h : t.Stays t') (path : String) : t'.start? path = t.start? path := by
  rw [FileTree.start?, FileTree.start?, h.cwd]

theorem resolve_eq_ok_iff {place : List String} :
    t.resolve path = .ok place ↔
      ∃ start parts, t.start? path = .ok (start, parts) ∧ t.walk start parts = .ok place := by
  unfold resolve
  cases hs : t.start? path with
  | error e => exact ⟨nofun, nofun⟩
  | ok r =>
    constructor
    · exact fun h => ⟨r.1, r.2, rfl, h⟩
    · rintro ⟨start, parts, ⟨⟩, h⟩
      exact h

theorem Stays.resolve (h : t.Stays t') {place : List String} (hr : t.resolve path = .ok place) :
    t'.resolve path = .ok place := by
  obtain ⟨start, parts, hs, hw⟩ := resolve_eq_ok_iff.1 hr
  exact resolve_eq_ok_iff.2 ⟨start, parts, (h.start? path).trans hs, h.walk hw⟩

theorem stat_eq_ok_iff {n : Node} :
    t.stat path = .ok n ↔ ∃ place, t.resolve path = .ok place ∧ t.node? place = some n := by
  unfold stat
  cases hr : t.resolve path with
  | error e => exact ⟨nofun, nofun⟩
  | ok place =>
    simp only [Bind.bind, Except.bind]
    cases hn : t.node? place with
    | none => exact ⟨nofun, by rintro ⟨_, ⟨⟩, h⟩; cases hn.symm.trans h⟩
    | some m =>
      constructor
      · rintro ⟨⟩
        exact ⟨place, rfl, hn⟩
      · rintro ⟨_, ⟨⟩, h⟩
        cases hn.symm.trans h
        rfl

/-- What stands at the end of a path that can be read. -/
theorem read_of_stat {n : Node} (h : t.stat path = .ok n) (h' : t'.stat path = .ok n) :
    t'.read path = t.read path := by
  rw [read, read, h, h']

theorem exists_stat (h : t.read path = .ok text) : ∃ n, t.stat path = .ok n := by
  cases hs : t.stat path with
  | error e =>
    rw [read, hs] at h
    cases h
  | ok n => exact ⟨n, rfl⟩

/-- What can be read reads the same where what is read stays and the way to it. -/
theorem Stays.read (h : t.Stays t') (hr : t.read path = .ok text)
    (hsame : ∀ place, t.resolve path = .ok place → t'.node? place = t.node? place) :
    t'.read path = .ok text := by
  obtain ⟨n, hn⟩ := exists_stat hr
  obtain ⟨place, hplace, hnode⟩ := stat_eq_ok_iff.1 hn
  rw [← hr]
  exact read_of_stat hn
    (stat_eq_ok_iff.2 ⟨place, h.resolve hplace, (hsame place hplace).trans hnode⟩)

theorem Keeps.read (h : t.Keeps t') (hr : t.read path = .ok text) : t'.read path = .ok text := by
  obtain ⟨n, hn⟩ := exists_stat hr
  obtain ⟨place, hplace, hnode⟩ := stat_eq_ok_iff.1 hn
  rw [← hr]
  exact read_of_stat hn (stat_eq_ok_iff.2 ⟨place, h.stays.resolve hplace, h.node place n hnode⟩)

theorem Stays.device (h : t.Stays t') (hd : t.stat path = .ok .device) :
    t'.stat path = .ok .device := by
  obtain ⟨place, hplace, hnode⟩ := stat_eq_ok_iff.1 hd
  exact stat_eq_ok_iff.2 ⟨place, h.resolve hplace, h.node place _ hnode nofun⟩

/-! ## Making directories -/

theorem Entry.place_ne_nil (e : Entry) : e.place ≠ [] := by
  simp [Entry.place]

theorem makeDir_keeps (h : t.makeDir path = .ok t') : t.Keeps t' := by
  unfold makeDir at h
  cases he : t.entry? path with
  | error e =>
    rw [he] at h
    cases h
  | ok found =>
    rw [he] at h
    cases found with
    | none => cases h
    | some e =>
      cases hn : e.node? t with
      | error fault =>
        simp only [hn, bind, Except.bind] at h
        cases h
      | ok there =>
        simp only [hn, bind, Except.bind] at h
        cases there with
        | some n => cases h
        | none =>
          cases h
          refine keeps_set e.place_ne_nil _ ?_
          unfold Entry.node? at hn
          split at hn
          · cases hn
          · exact Except.ok.inj hn

theorem makeDirsWithin_keeps {n : Nat} (h : makeDirsWithin n t path = .ok t') : t.Keeps t' := by
  induction n generalizing t t' path with
  | zero => cases h
  | succ n ih =>
    rw [makeDirsWithin] at h
    split at h
    · cases h
      exact .refl t
    · split at h
      · rename_i hmade
        cases h
        exact makeDir_keeps hmade
      · split at h
        · cases h
        · rename_i outer _
          cases houter : makeDirsWithin n t outer with
          | error e =>
            rw [houter] at h
            cases h
          | ok u =>
            simp only [houter, bind, Except.bind] at h
            split at h
            · rename_i hmade
              cases h
              exact (ih houter).trans (makeDir_keeps hmade)
            · split at h
              · cases h
                exact ih houter
              · cases h
      · split at h
        · cases h
          exact .refl t
        · cases h

theorem makeDirs_keeps (h : t.makeDirs path = .ok t') : t.Keeps t' :=
  makeDirsWithin_keeps h

/-! ## Places in one directory -/

theorem walk_append (t : FileTree) (place parts rest : List String) :
    t.walk place (parts ++ rest) = t.walk place parts >>= fun p => t.walk p rest := by
  induction parts generalizing place with
  | nil => rfl
  | cons part parts ih =>
    rw [List.cons_append, FileTree.walk, FileTree.walk]
    cases t.node? place with
    | none => rfl
    | some n =>
      cases n with
      | file bytes => rfl
      | device => rfl
      | dir =>
        dsimp only
        split
        · exact ih _
        · split
          · exact ih _
          · split
            · rfl
            · exact ih _

/-- A plain name leads on from a directory. -/
theorem walk_plain_eq_ok_iff (hn : Path.Plain name) {place p : List String} :
    t.walk place [name] = .ok p ↔
      t.node? place = some .dir ∧ ¬ 255 < name.utf8ByteSize ∧ p = place ++ [name] := by
  have hempty : (name = "" || name = "." : Bool) = false := by simp [hn.ne_empty, hn.ne_dot]
  rw [FileTree.walk]
  cases t.node? place with
  | none => exact ⟨nofun, nofun⟩
  | some n =>
    cases n with
    | file bytes => exact ⟨nofun, nofun⟩
    | device => exact ⟨nofun, nofun⟩
    | dir =>
      simp only [hempty, Bool.false_eq_true, if_false, if_neg hn.ne_dots]
      by_cases hlong : 255 < name.utf8ByteSize
      · rw [if_pos hlong]
        exact ⟨nofun, fun h => absurd hlong h.2.1⟩
      · rw [if_neg hlong, FileTree.walk]
        constructor
        · rintro ⟨⟩
          exact ⟨trivial, hlong, rfl⟩
        · rintro ⟨-, -, rfl⟩
          rfl

/-- The place of a directory, if the path to something in it leads through it. -/
def Leads (t : FileTree) (dir : String) (place : List String) : Prop :=
  ∃ absolute base, (∀ name, Slashless name → Path.isAbsolute (Path.join dir name) = absolute ∧
      Path.components (Path.join dir name) = base ++ [name]) ∧
    t.walk (if absolute then [] else t.cwd) base = .ok place ∧ t.node? place = some .dir

theorem Leads.unique {p q : List String} (hp : t.Leads dir p) (hq : t.Leads dir q) : p = q := by
  obtain ⟨absolute, base, hdir, hwalk, -⟩ := hp
  obtain ⟨absolute', base', hdir', hwalk', -⟩ := hq
  have hname : Slashless "" := nofun
  obtain ⟨habs, hbase⟩ := hdir "" hname
  obtain ⟨habs', hbase'⟩ := hdir' "" hname
  rw [habs] at habs'
  rw [hbase] at hbase'
  rw [habs', (List.append_inj' hbase' rfl).1, hwalk'] at hwalk
  exact (Except.ok.inj hwalk).symm

/-- The components of the path of something in a directory. -/
theorem start?_join (t : FileTree) (dir : String) : ∃ absolute base,
    (∀ name, Slashless name → Path.isAbsolute (Path.join dir name) = absolute ∧
      Path.components (Path.join dir name) = base ++ [name]) ∧
    ∀ name, Slashless name → ∀ r, t.start? (Path.join dir name) = .ok r →
      r = (if absolute then [] else t.cwd, base ++ [name]) := by
  obtain ⟨absolute, base, hdir⟩ := Path.exists_components dir
  refine ⟨absolute, base, hdir, fun name hn r hr => ?_⟩
  obtain ⟨habs, hbase⟩ := hdir name hn
  unfold FileTree.start? at hr
  split at hr
  · cases hr
  · split at hr
    · cases hr
    · split at hr
      · cases hr
      · cases hr
        rw [habs, hbase]

theorem resolve_join (hn : Path.Plain name) {place : List String}
    (h : t.resolve (Path.join dir name) = .ok place) : ∃ d, t.Leads dir d ∧ place = d ++ [name] := by
  obtain ⟨absolute, base, hdir, hstart⟩ := t.start?_join dir
  obtain ⟨start, parts, hs, hw⟩ := resolve_eq_ok_iff.1 h
  cases hstart name hn.slashless _ hs
  rw [walk_append] at hw
  cases hbase : t.walk (if absolute then [] else t.cwd) base with
  | error e =>
    rw [hbase] at hw
    cases hw
  | ok d =>
    rw [hbase] at hw
    obtain ⟨hd, -, rfl⟩ := (walk_plain_eq_ok_iff hn).1 hw
    exact ⟨d, ⟨absolute, base, hdir, hbase, hd⟩, rfl⟩

/-- The entry of a plain name is in the directory. -/
theorem entry?_join (hn : Path.Plain name) {e : Option Entry}
    (h : t.entry? (Path.join dir name) = .ok e) :
    ∃ d, t.Leads dir d ∧ e = some ⟨d, name, false⟩ ∧
      (¬ 255 < name.utf8ByteSize → t.resolve (Path.join dir name) = .ok (d ++ [name])) := by
  obtain ⟨absolute, base, hdir, hstart⟩ := t.start?_join dir
  unfold entry? at h
  cases hs : t.start? (Path.join dir name) with
  | error fault =>
    rw [hs] at h
    cases h
  | ok r =>
    have hr := hstart name hn.slashless r hs
    subst hr
    -- nothing is dropped at the end, since the name is not empty
    have hnamed : ((base ++ [name]).reverse.dropWhile (· = "")).reverse = base ++ [name] := by
      simp [hn.ne_empty]
    simp only [hs, bind, Except.bind, hnamed, List.getLast?_concat, List.dropLast_concat] at h
    cases hbase : t.walk (if absolute then [] else t.cwd) base with
    | error fault =>
      rw [hbase] at h
      cases h
    | ok d =>
      simp only [hbase] at h
      cases hd : t.node? d with
      | none =>
        rw [hd] at h
        cases h
      | some n =>
        rw [hd] at h
        cases n with
        | file bytes => cases h
        | device => cases h
        | dir =>
          have hdots : (name = "." || name = ".." : Bool) = false := by simp [hn.ne_dot, hn.ne_dots]
          simp only [hdots, Bool.false_eq_true, if_false] at h
          cases h
          refine ⟨d, ⟨absolute, base, hdir, hbase, hd⟩, by simp, fun hshort => ?_⟩
          refine resolve_eq_ok_iff.2 ⟨_, _, hs, ?_⟩
          rw [walk_append, hbase]
          exact (walk_plain_eq_ok_iff hn).2 ⟨hd, hshort, rfl⟩

/-- Writing a file puts it at the place of the entry, over a file that is there, unless a device takes
what is written. -/
theorem write_cases (h : t.write path text = .ok t') :
    ∃ e, t.entry? path = .ok (some e) ∧ ¬ 255 < e.name.utf8ByteSize ∧
      ((t.node? e.place = some .device ∧ t' = t) ∨
        ((∀ n, t.node? e.place = some n → ∃ bytes, n = .file bytes) ∧
          t' = t.set e.place (.file (Text.bytes text)))) := by
  unfold write at h
  cases he : t.entry? path with
  | error fault =>
    rw [he] at h
    cases h
  | ok found =>
    rw [he] at h
    cases found with
    | none => cases h
    | some e =>
      simp only [bind, Except.bind] at h
      split at h
      · cases h
      · unfold Entry.node? at h
        by_cases hlong : 255 < e.name.utf8ByteSize
        · rw [if_pos hlong] at h
          cases h
        · rw [if_neg hlong] at h
          refine ⟨e, rfl, hlong, ?_⟩
          cases hnode : t.node? e.place with
          | none =>
            rw [hnode] at h
            cases h
            exact .inr ⟨nofun, rfl⟩
          | some n =>
            rw [hnode] at h
            cases n with
            | dir => cases h
            | device =>
              cases h
              exact .inl ⟨rfl, rfl⟩
            | file bytes =>
              cases h
              exact .inr ⟨by rintro _ ⟨⟩; exact ⟨bytes, rfl⟩, rfl⟩

theorem write_stays (h : t.write path text = .ok t') : t.Stays t' := by
  obtain ⟨e, -, -, ⟨-, rfl⟩ | ⟨hfile, rfl⟩⟩ := write_cases h
  · exact .refl _
  · exact stays_set e.place_ne_nil _ hfile

/-- A file that is written under a plain name is put into the directory. -/
theorem write_join_cases (hn : Path.Plain name) (h : t.write (Path.join dir name) text = .ok t') :
    ∃ d, t.Leads dir d ∧ t.resolve (Path.join dir name) = .ok (d ++ [name]) ∧
      ((t.node? (d ++ [name]) = some .device ∧ t' = t) ∨
        ((∀ n, t.node? (d ++ [name]) = some n → ∃ bytes, n = .file bytes) ∧
          t' = t.set (d ++ [name]) (.file (Text.bytes text)))) := by
  obtain ⟨e, he, hshort, hcases⟩ := write_cases h
  obtain ⟨d, hd, heq, hresolve⟩ := entry?_join hn he
  cases heq
  exact ⟨d, hd, hresolve hshort, hcases⟩

/-- A file that was written is read back. -/
theorem read_of_write (hn : Path.Plain name) (h : t.write (Path.join dir name) text = .ok t') :
    t'.stat (Path.join dir name) = .ok .device ∨ t'.read (Path.join dir name) = .ok text := by
  obtain ⟨d, -, hresolve, ⟨hdevice, rfl⟩ | ⟨hfile, rfl⟩⟩ := write_join_cases hn h
  · exact .inl (stat_eq_ok_iff.2 ⟨_, hresolve, hdevice⟩)
  · have hplace : d ++ [name] ≠ [] := by simp
    have hstays := stays_set hplace (.file (Text.bytes text)) hfile
    have hstat : (t.set (d ++ [name]) (.file (Text.bytes text))).stat (Path.join dir name) =
        .ok (.file (Text.bytes text)) :=
      stat_eq_ok_iff.2 ⟨_, hstays.resolve hresolve, by rw [node?_set t hplace, if_pos rfl]⟩
    refine .inr ?_
    simp only [read, hstat, Bind.bind, Except.bind, Text.ofBytes?_bytes]
    rfl

/-- Another file of the directory reads the same. -/
theorem read_write_of_ne {name' text' : String} (hn : Path.Plain name) (hn' : Path.Plain name')
    (hne : name' ≠ name) (h : t.write (Path.join dir name) text = .ok t')
    (hr : t.read (Path.join dir name') = .ok text') : t'.read (Path.join dir name') = .ok text' := by
  obtain ⟨d, hd, -, ⟨-, rfl⟩ | ⟨hfile, rfl⟩⟩ := write_join_cases hn h
  · exact hr
  · have hplace : d ++ [name] ≠ [] := by simp
    refine (stays_set hplace _ hfile).read hr fun place hplace' => ?_
    obtain ⟨d', hd', rfl⟩ := resolve_join hn' hplace'
    rw [node?_set t hplace, if_neg]
    rw [hd.unique hd']
    simpa using hne

end FileTree

/-! ## Writing into a directory -/

variable {h h' : Host} {dir name text : String} {result : Except OsError String}

/-- The directory is made, and then the file is written or not. -/
theorem writeInto_cases (hw : h.writeInto dir name text = (result, h')) :
    ∃ files, h.files.Keeps files ∧ ((h' = { h with files } ∧ ∃ e, result = .error e) ∨
      ∃ files', files.write (Path.join dir name) text = .ok files' ∧
        h' = { h with files := files' } ∧ result = .ok (Path.join dir name)) := by
  unfold writeInto at hw
  split at hw
  · rename_i e _
    cases hw
    exact ⟨_, .refl _, .inl ⟨rfl, e, rfl⟩⟩
  · rename_i files hdirs
    refine ⟨files, FileTree.makeDirs_keeps hdirs, ?_⟩
    dsimp only at hw
    split at hw
    · rename_i e _
      cases hw
      exact .inl ⟨rfl, e, rfl⟩
    · rename_i files' hwrite
      cases hw
      exact .inr ⟨files', hwrite, rfl, rfl⟩

/-- Directories and devices stay, whether the file is written or not. -/
theorem writeInto_stays (hw : h.writeInto dir name text = (result, h')) :
    h.files.Stays h'.files := by
  obtain ⟨files, hkeeps, ⟨rfl, -⟩ | ⟨files', hwrite, rfl, -⟩⟩ := writeInto_cases hw
  · exact hkeeps.stays
  · exact hkeeps.stays.trans (FileTree.write_stays hwrite)

/-- A file that was written into a directory is read back from there. -/
theorem read_of_writeInto (hn : Path.Plain name) {path : String}
    (hw : h.writeInto dir name text = (.ok path, h')) : path = Path.join dir name ∧
      (h'.files.stat path = .ok .device ∨ h'.files.read path = .ok text) := by
  obtain ⟨files, -, ⟨-, e, he⟩ | ⟨files', hwrite, rfl, hpath⟩⟩ := writeInto_cases hw
  · cases he
  · cases hpath
    exact ⟨rfl, FileTree.read_of_write hn hwrite⟩

/-- Another file of the directory reads the same, whether the file is written or not. -/
theorem read_writeInto_of_ne {name' text' : String} (hn : Path.Plain name) (hn' : Path.Plain name')
    (hne : name' ≠ name) (hw : h.writeInto dir name text = (result, h'))
    (hr : h.files.read (Path.join dir name') = .ok text') :
    h'.files.read (Path.join dir name') = .ok text' := by
  obtain ⟨files, hkeeps, ⟨rfl, -⟩ | ⟨files', hwrite, rfl, -⟩⟩ := writeInto_cases hw
  · exact hkeeps.read hr
  · exact FileTree.read_write_of_ne hn hn' hne hwrite (hkeeps.read hr)

end Host
end Ditlang
