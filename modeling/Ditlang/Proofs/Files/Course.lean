import Ditlang.Proofs.Guest.FileNames
import Ditlang.Proofs.Heap.GuestPaths

/-!
# Ditlang.Proofs.Files.Course

The course of guest files. What a session does to files is told in three kinds of steps (`FileStep`):
work that leaves them alone, a guest function that gets its file, and a driver that is written for a
worker that is started as a command. `Filed` is what holds between steps: each file of a function has a
name that was claimed, and no two functions have the same one. It is kept by each step
(`Filed.step`) and along the whole course.

A file stays what it is as long as no driver is written over it (`Sparing`), because the functions that
get files later claim other names (`FileStep.holds`). So it always has the text of the body of its own
function (`Sparing.holds_new`).
-/

namespace Ditlang

open Host (Slashless Path.Plain)

namespace Heap

/-- `text` is made from the body of the guest function `func`, with the markers of its Lang. -/
structure Renders (h : Heap) (func lang : ContainerId) (markers : Guest.Markers) (text : String) :
    Prop where
  called : ∃ data, (h.container func).kind = .func data ∧ data.lang = .guest lang
  isLang : h.IsKind .lang lang
  marked : Guest.Markers.ofLang h lang = .ok markers
  rendered : ∃ b, (h.container func).body = some b ∧ Guest.preprocess b.view markers = .ok text

theorem Renders.isFunc {h : Heap} {func lang : ContainerId} {markers : Guest.Markers} {text : String}
    (hr : h.Renders func lang markers text) : h.IsKind .func func := by
  obtain ⟨data, hk, -⟩ := hr.called
  rw [IsKind, hk]
  rfl

/-- After the file of a function was kept, that function has it. -/
theorem guestPath?_keep {h : Heap} {func : ContainerId} {data : FuncData}
    (hfunc : func.index < h.containers.size) (path : String) (c : ContainerId) :
    (h.modifyContainer func fun x =>
      { x with kind := .func { data with guestPath := some path } }).guestPath? c =
        if func = c then some path else h.guestPath? c := by
  rw [guestPath?, container_modifyContainer]
  by_cases hc : func = c
  · rw [if_pos ⟨hc, hfunc⟩, if_pos hc]
  · rw [if_neg (fun h => hc h.1), if_neg hc, guestPath?]

/-- The file of a function is kept without a change of its name or its body. -/
theorem container_keep {h : Heap} {func : ContainerId} {data : FuncData}
    (hk : (h.container func).kind = .func data) (path : String) (c : ContainerId) :
    ∃ k, (h.modifyContainer func fun x =>
        { x with kind := .func { data with guestPath := some path } }).container c =
          { h.container c with kind := k } ∧ k.valueKind? = (h.container c).kind.valueKind? := by
  rw [container_modifyContainer]
  split
  · rename_i hc
    refine ⟨_, rfl, ?_⟩
    rw [← hc.1, hk]
    rfl
  · exact ⟨_, rfl, rfl⟩

end Heap

namespace Session

/-! ## Steps -/

/-- How the next worker is started. -/
def launcherNow (s : Session) : Guest.Launcher :=
  match s.daemon with
  | some d => d.fleet.launcher
  | none => s.launcher.getD .commands

/-- Workers are started by scripts, so that no driver is written for them. -/
def Scripted (s : Session) : Prop :=
  s.launcherNow ≠ .commands

instance Scripted.decidable : DecidablePred Scripted := fun s =>
  match h : s.launcherNow with
  | .commands => isFalse fun hs => hs h
  | .scripted _ => isTrue fun hs => Guest.Launcher.noConfusion (h.symm.trans hs)

/-- The launcher was handed over to the daemon. -/
def Handed (s : Session) : Prop :=
  s.daemon.isSome → s.launcher = none

/-- No function gets a file, no name is claimed, and no file is written. -/
structure Works (s s' : Session) : Prop where
  heap : s.heap.Unfiled s'.heap
  guestFiles : s'.guestFiles = s.guestFiles
  tmpDir : s'.tmpDir = s.tmpDir
  files : s'.host.files = s.host.files
  handed : s.Handed → s'.Handed
  scripted : s.Handed → s'.Scripted → s.Scripted

/-- The name of the file that a guest function would get. -/
def guestName (s : Session) (func lang : ContainerId) (extension : String) : String :=
  s.freeFileName (Guest.fileName (s.heap.nameOf lang) · extension)
    (Guest.stemOf (s.heap.nameOf func) func) (s.guestFiles.length + 1) 1

/-- The session after the file of a function was written, or could not be written. -/
def filed (s : Session) (func : ContainerId) (data : FuncData) (name : String) :
    Except OsError String × Host → Session
  | (.ok path, host) => { s with
      guestFiles := name :: s.guestFiles
      host
      heap := s.heap.modifyContainer func fun c =>
        { c with kind := .func { data with guestPath := some path } } }
  | (.error _, host) => { s with guestFiles := name :: s.guestFiles, host }

/-- The driver of a worker is written, which is started as a command. -/
def Drives (s s' : Session) : Prop :=
  ¬ s.Scripted ∧ ∃ dir, ∃ spec : Guest.LaunchSpec, s' = { s with
    host := (s.host.writeInto dir (spec.lang ++ "_guest_daemon." ++ spec.extension) spec.driver).2 }

/-- One thing that a session does, as far as files are concerned. -/
inductive FileStep (s : Session) : Session → Prop where
  | work {s' : Session} : s.Works s' → FileStep s s'
  | file {func lang : ContainerId} {data : FuncData} {markers : Guest.Markers} {text : String} :
      s.heap.Renders func lang markers text → (s.heap.container func).kind = .func data →
      data.guestPath = none →
      FileStep s (s.filed func data (s.guestName func lang markers.extension)
        (s.host.writeInto s.tmpDir (s.guestName func lang markers.extension) text))
  | driver {s' : Session} : s.Drives s' → FileStep s s'

def Course : Session → Session → Prop :=
  Relation.ReflTransGen FileStep

/-- The steps of a course in which no driver changes the file at a path. -/
def Sparing (path : String) : Session → Session → Prop :=
  Relation.ReflTransGen fun s s' => s.FileStep s' ∧
    (s.Drives s' → s'.host.files.read path = s.host.files.read path)

/-- The file at a path has a text, unless a device stands there, which takes whatever is written. -/
def Holds (s : Session) (path text : String) : Prop :=
  s.host.files.read path = .ok text ∨ s.host.files.stat path = .ok .device

/-- No path separator is in an extension for which a function has claimed a file. -/
def PlainExtensions (s : Session) : Prop :=
  ∀ lang stem extension, Guest.fileName lang stem extension ∈ s.guestFiles → Slashless extension

/-! ## What holds between steps -/

/-- Files have names that were claimed, each for one function. -/
structure Filed (s : Session) : Prop where
  named : s.heap.SlashlessNames
  handed : s.Handed
  claimed : ∀ name ∈ s.guestFiles, ∃ lang stem extension,
    name = Guest.fileName lang stem extension ∧ Slashless lang ∧ Slashless stem
  owned : ∀ c path, s.heap.guestPath? c = some path →
    ∃ name ∈ s.guestFiles, path = Host.Path.join s.tmpDir name
  apart : ∀ c d path, s.heap.guestPath? c = some path → s.heap.guestPath? d = some path → c = d

variable {s s' u v : Session} {func lang c d : ContainerId} {data : FuncData}
  {name path text ext : String} {markers : Guest.Markers}

theorem Works.refl (s : Session) : s.Works s :=
  ⟨.refl _, rfl, rfl, rfl, id, fun _ => id⟩

/-- Only the store and what is no file is changed. -/
theorem Works.of_same (hh : s.heap.Unfiled s'.heap) (hg : s'.guestFiles = s.guestFiles)
    (ht : s'.tmpDir = s.tmpDir) (hf : s'.host.files = s.host.files) (hd : s'.daemon = s.daemon)
    (hl : s'.launcher = s.launcher) : s.Works s' := by
  refine ⟨hh, hg, ht, hf, ?_, fun _ => ?_⟩
  · rw [Handed, Handed, hd, hl]
    exact id
  · rw [Scripted, Scripted, launcherNow, launcherNow, hd, hl]
    exact id

/-- An extension is a part of the name of the file. -/
theorem plainExtensions_of_slashless (h : ∀ name ∈ s.guestFiles, Slashless name) :
    s.PlainExtensions := by
  intro lang stem ext hmem hslash
  refine h _ hmem ?_
  simp only [Guest.fileName, String.toList_append, List.mem_append]
  exact .inr hslash

namespace Filed

/-- A file that was claimed is in the directory, if its extension allows that. -/
theorem plain (hs : s.Filed) (hext : s.PlainExtensions) (hname : name ∈ s.guestFiles) :
    Path.Plain name := by
  obtain ⟨lang, stem, ext, rfl, hl, hstem⟩ := hs.claimed name hname
  exact Guest.plain_fileName hl hstem (hext lang stem ext hname)

theorem isAbsolute (hs : s.Filed) (hname : name ∈ s.guestFiles) :
    Host.Path.isAbsolute name = false := by
  obtain ⟨lang, stem, ext, rfl, hl, -⟩ := hs.claimed name hname
  exact Guest.isAbsolute_fileName hl stem ext

end Filed

/-- The name that a function would get is one that no function has claimed. -/
theorem guestName_cases (hn : s.heap.SlashlessNames) (hfunc : s.heap.IsKind .func func)
    (hlang : s.heap.IsKind .lang lang) (ext : String) :
    s.guestName func lang ext ∉ s.guestFiles ∧ ∃ stem, Slashless stem ∧
      s.guestName func lang ext = Guest.fileName (s.heap.nameOf lang) stem ext ∧
      Slashless (s.heap.nameOf lang) := by
  obtain ⟨n, hfirst, hname⟩ := s.exists_freeFileName (s.heap.nameOf lang) ext
    (Guest.stemOf (s.heap.nameOf func) func)
  have hstem := Guest.slashless_stemAt (Guest.slashless_stemOf (hn func (.inl hfunc)) func) n
  rw [guestName, hname]
  exact ⟨hfirst.free, _, hstem, rfl, hn lang (.inr hlang)⟩

/-! ## A function that gets a file -/

section Filed

variable (s : Session) (func : ContainerId) (data : FuncData) (name : String)
  (r : Except OsError String × Host)

@[simp] theorem guestFiles_filed : (s.filed func data name r).guestFiles = name :: s.guestFiles := by
  obtain ⟨result, host⟩ := r
  cases result <;> rfl

@[simp] theorem tmpDir_filed : (s.filed func data name r).tmpDir = s.tmpDir := by
  obtain ⟨result, host⟩ := r
  cases result <;> rfl

@[simp] theorem host_filed : (s.filed func data name r).host = r.2 := by
  obtain ⟨result, host⟩ := r
  cases result <;> rfl

@[simp] theorem handed_filed : (s.filed func data name r).Handed ↔ s.Handed := by
  obtain ⟨result, host⟩ := r
  cases result <;> exact Iff.rfl

@[simp] theorem scripted_filed : (s.filed func data name r).Scripted ↔ s.Scripted := by
  obtain ⟨result, host⟩ := r
  cases result <;> exact Iff.rfl

/-- Names and bodies are not changed, and kinds only as far as the file goes. -/
theorem container_filed (hk : (s.heap.container func).kind = .func data) (c : ContainerId) :
    ∃ k, (s.filed func data name r).heap.container c = { s.heap.container c with kind := k } ∧
      k.valueKind? = (s.heap.container c).kind.valueKind? := by
  obtain ⟨result, host⟩ := r
  cases result with
  | error e => exact ⟨_, rfl, rfl⟩
  | ok path => exact Heap.container_keep hk path c

/-- After its file was written the function has it, and without the write nothing has changed. -/
theorem guestPath?_filed (hfunc : s.heap.IsKind .func func) (c : ContainerId) :
    (s.filed func data name r).heap.guestPath? c =
      if func = c then r.1.toOption.or (s.heap.guestPath? c) else s.heap.guestPath? c := by
  obtain ⟨result, host⟩ := r
  cases result with
  | error e => exact (ite_self _).symm
  | ok path => exact Heap.guestPath?_keep hfunc.lt_size path c

end Filed

/-- No name is changed that goes into the name of a file. -/
theorem named_filed (hn : s.heap.SlashlessNames) (hk : (s.heap.container func).kind = .func data)
    (name : String) (r : Except OsError String × Host) :
    (s.filed func data name r).heap.SlashlessNames := by
  intro c
  obtain ⟨k, hcon, hkind⟩ := s.container_filed func data name r hk c
  have hc := hn c
  simp only [Heap.nameOf, hcon, ContainerKind.Naming, hkind] at hc ⊢
  exact hc

theorem path_of_writeInto {h : Host} {dir : String}
    (hok : (h.writeInto dir name text).1.toOption = some path) : path = Host.Path.join dir name := by
  cases hw : h.writeInto dir name text with
  | mk result h' =>
    rw [hw] at hok
    obtain ⟨files, -, ⟨-, e, rfl⟩ | ⟨files', -, -, rfl⟩⟩ := Host.writeInto_cases hw
    · cases hok
    · cases hok
      rfl

/-! ## One step -/

/-- A function that gets a file has a name of its own for it. -/
theorem Filed.file (hs : s.Filed) (hr : s.heap.Renders func lang markers text)
    (hk : (s.heap.container func).kind = .func data) (hnone : data.guestPath = none) :
    (s.filed func data (s.guestName func lang markers.extension)
      (s.host.writeInto s.tmpDir (s.guestName func lang markers.extension) text)).Filed := by
  obtain ⟨hfree, stem, hstem, hname, hlang⟩ :=
    guestName_cases hs.named hr.isFunc hr.isLang markers.extension
  generalize s.guestName func lang markers.extension = name at hfree hname ⊢
  have hclaimed : ∀ x ∈ name :: s.guestFiles, ∃ lang stem extension,
      x = Guest.fileName lang stem extension ∧ Slashless lang ∧ Slashless stem := by
    intro x hx
    rcases List.mem_cons.1 hx with rfl | hx
    · exact ⟨_, stem, _, hname, hlang, hstem⟩
    · exact hs.claimed x hx
  -- A path of a function comes from a name that was claimed before, or it is the new one.
  have hold : ∀ c path, s.heap.guestPath? c = some path → path ≠ Host.Path.join s.tmpDir name := by
    rintro c _ hpath rfl
    obtain ⟨x, hx, hjoin⟩ := hs.owned c _ hpath
    have habs : Host.Path.isAbsolute name = false := hname ▸ Guest.isAbsolute_fileName hlang _ _
    rw [Host.Path.join_inj habs (hs.isAbsolute hx) hjoin] at hfree
    exact hfree hx
  have hself : s.heap.guestPath? func = none := by
    rw [Heap.guestPath?, hk]
    exact hnone
  have hcases : ∀ c path, (s.filed func data name
      (s.host.writeInto s.tmpDir name text)).heap.guestPath? c = some path →
      (c = func ∧ path = Host.Path.join s.tmpDir name) ∨ s.heap.guestPath? c = some path := by
    intro c path hpath
    rw [guestPath?_filed s func data name _ hr.isFunc] at hpath
    split at hpath
    · rename_i hc
      subst hc
      rw [hself, Option.or_none] at hpath
      exact .inl ⟨rfl, path_of_writeInto hpath⟩
    · exact .inr hpath
  constructor
  · exact named_filed hs.named hk name _
  · exact (handed_filed ..).2 hs.handed
  · rwa [guestFiles_filed]
  · intro c path hpath
    rw [guestFiles_filed, tmpDir_filed]
    rcases hcases c path hpath with ⟨-, rfl⟩ | hpath
    · exact ⟨name, List.mem_cons_self, rfl⟩
    · obtain ⟨x, hx, rfl⟩ := hs.owned c path hpath
      exact ⟨x, List.mem_cons_of_mem _ hx, rfl⟩
  · intro c d path hc hd
    rcases hcases c path hc with ⟨rfl, rfl⟩ | hc'
    · rcases hcases d _ hd with ⟨rfl, -⟩ | hd'
      · rfl
      · exact absurd rfl (hold d _ hd')
    · rcases hcases d path hd with ⟨rfl, rfl⟩ | hd'
      · exact absurd rfl (hold c _ hc')
      · exact hs.apart c d path hc' hd'

theorem Filed.works (hs : s.Filed) (hw : s.Works s') : s'.Filed where
  named := hw.heap.named hs.named
  handed := hw.handed hs.handed
  claimed := hw.guestFiles ▸ hs.claimed
  owned c path hpath := by
    rw [hw.guestFiles, hw.tmpDir]
    exact hs.owned c path (hw.heap.guestPath?_eq.1 hpath)
  apart c d path hc hd :=
    hs.apart c d path (hw.heap.guestPath?_eq.1 hc) (hw.heap.guestPath?_eq.1 hd)

/-- What holds between steps is kept by each of them. -/
theorem Filed.step (hs : s.Filed) (hstep : s.FileStep s') : s'.Filed := by
  cases hstep with
  | work hw => exact hs.works hw
  | file hr hk hnone => exact hs.file hr hk hnone
  | driver hd =>
    obtain ⟨-, dir, spec, rfl⟩ := hd
    exact ⟨hs.named, hs.handed, hs.claimed, hs.owned, hs.apart⟩

namespace FileStep

theorem guestFiles_subset (hstep : s.FileStep s') : s.guestFiles ⊆ s'.guestFiles := by
  cases hstep with
  | work hw => exact hw.guestFiles ▸ List.Subset.refl _
  | file =>
    rw [guestFiles_filed]
    exact List.subset_cons_self _ _
  | driver hd =>
    obtain ⟨-, dir, spec, rfl⟩ := hd
    exact List.Subset.refl _

/-- A function keeps its file. -/
theorem guestPath?_kept (hstep : s.FileStep s') (hpath : s.heap.guestPath? c = some path) :
    s'.heap.guestPath? c = some path := by
  cases hstep with
  | work hw => exact hw.heap.guestPath?_eq.2 hpath
  | @file func lang data markers text hr hk hnone =>
    rw [guestPath?_filed s func data _ _ hr.isFunc, if_neg]
    · exact hpath
    · rintro rfl
      rw [Heap.guestPath?, hk] at hpath
      cases hnone.symm.trans hpath
  | driver hd =>
    obtain ⟨-, dir, spec, rfl⟩ := hd
    exact hpath

/-- A function keeps its body. -/
theorem view_kept (hstep : s.FileStep s') (hfunc : s.heap.IsKind .func c) :
    s'.heap.IsKind .func c ∧
      (s'.heap.container c).body.map (·.view) = (s.heap.container c).body.map (·.view) := by
  cases hstep with
  | work hw =>
    obtain ⟨data, hk⟩ := hfunc.exists_func
    refine ⟨?_, hw.heap.view c data hk⟩
    rw [Heap.IsKind, hw.heap.kind c data hk]
    rfl
  | @file func lang data markers text hr hk hnone =>
    obtain ⟨k, hcon, hkind⟩ := s.container_filed func data _ _ hk c
    rw [Heap.IsKind, hcon]
    exact ⟨hkind.trans hfunc, rfl⟩
  | driver hd =>
    obtain ⟨-, dir, spec, rfl⟩ := hd
    exact ⟨hfunc, rfl⟩

/-- Once workers are started as commands they always are. -/
theorem scripted (hstep : s.FileStep s') (hs : s.Handed) (hs' : s'.Scripted) : s.Scripted := by
  cases hstep with
  | work hw => exact hw.scripted hs hs'
  | file => exact (scripted_filed ..).1 hs'
  | driver hd =>
    obtain ⟨-, dir, spec, rfl⟩ := hd
    exact hs'

/-- A file of the directory stays what it is, as long as no driver is written over it: other files have
other names. -/
theorem holds (hstep : s.FileStep s') (hs : s.Filed) (hext : s'.PlainExtensions)
    (hdriver : s.Drives s' → s'.host.files.read path = s.host.files.read path)
    (hpath : s.heap.guestPath? c = some path) (h : s.Holds path text) : s'.Holds path text := by
  have hs' := hs.step hstep
  cases hstep with
  | work hw =>
    unfold Holds
    rw [hw.files]
    exact h
  | driver hd =>
    rcases h with h | h
    · exact .inl ((hdriver hd).trans h)
    · obtain ⟨-, dir, spec, rfl⟩ := hd
      exact .inr ((Host.writeInto_stays rfl).device h)
  | @file func lang data markers text' hr hk hnone =>
    obtain ⟨name, hname, rfl⟩ := hs.owned c path hpath
    have hfree := (guestName_cases hs.named hr.isFunc hr.isLang markers.extension).1
    have hnew := hs'.plain hext (guestFiles_filed .. ▸ List.mem_cons_self)
    have hold := hs'.plain hext (guestFiles_filed .. ▸ List.mem_cons_of_mem _ hname)
    have hne : name ≠ s.guestName func lang markers.extension := by
      rintro rfl
      exact hfree hname
    unfold Holds
    rw [host_filed]
    rcases h with h | h
    · exact .inl (Host.read_writeInto_of_ne hnew hold hne rfl h)
    · exact .inr ((Host.writeInto_stays rfl).device h)

/-- A function gets a file with the text that was made from its body. -/
theorem holds_new (hstep : s.FileStep s') (hs : s.Filed) (hext : s'.PlainExtensions)
    (hnone : s.heap.guestPath? c = none) (hpath : s'.heap.guestPath? c = some path) :
    ∃ lang markers text, s.heap.Renders c lang markers text ∧ s'.Holds path text := by
  have hs' := hs.step hstep
  cases hstep with
  | work hw => cases hnone.symm.trans (hw.heap.guestPath?_eq.1 hpath)
  | driver hd =>
    obtain ⟨-, dir, spec, rfl⟩ := hd
    cases hnone.symm.trans hpath
  | @file func lang data markers text hr hk _ =>
    have hnew := hs'.plain hext (guestFiles_filed .. ▸ List.mem_cons_self)
    rw [guestPath?_filed s func data _ _ hr.isFunc] at hpath
    split at hpath
    · rename_i hc
      subst hc
      rw [hnone, Option.or_none] at hpath
      refine ⟨lang, markers, text, hr, ?_⟩
      unfold Holds
      rw [host_filed]
      cases hw : s.host.writeInto s.tmpDir (s.guestName func lang markers.extension) text with
      | mk result host =>
        rw [hw] at hpath
        cases result with
        | error e => cases hpath
        | ok p =>
          cases hpath
          obtain ⟨rfl, hdevice | hread⟩ := Host.read_of_writeInto hnew hw
          · exact .inr hdevice
          · exact .inl hread
    · cases hnone.symm.trans hpath

end FileStep

/-! ## The whole course -/

namespace Course

theorem filed (h : u.Course v) (hu : u.Filed) : v.Filed := by
  induction h with
  | refl => exact hu
  | tail _ hstep ih => exact ih.step hstep

theorem guestPath?_kept (h : u.Course v) (hpath : u.heap.guestPath? c = some path) :
    v.heap.guestPath? c = some path := by
  induction h with
  | refl => exact hpath
  | tail _ hstep ih => exact hstep.guestPath?_kept ih

theorem view_kept (h : u.Course v) (hfunc : u.heap.IsKind .func c) :
    v.heap.IsKind .func c ∧
      (v.heap.container c).body.map (·.view) = (u.heap.container c).body.map (·.view) := by
  induction h with
  | refl => exact ⟨hfunc, rfl⟩
  | tail _ hstep ih =>
    have hlast := hstep.view_kept ih.1
    exact ⟨hlast.1, hlast.2.trans ih.2⟩

/-- As long as workers are started by scripts, no driver is written over a file. -/
theorem sparing (h : u.Course v) (hu : u.Filed) (hv : v.Scripted) (path : String) :
    u.Sparing path v := by
  induction h with
  | refl => exact .refl
  | tail hcourse hstep ih =>
    have hscripted := hstep.scripted (Course.filed hcourse hu).handed hv
    exact .tail (ih hscripted) ⟨hstep, fun hd => absurd hscripted hd.1⟩

end Course

namespace Sparing

theorem course (h : u.Sparing path v) : u.Course v :=
  Relation.ReflTransGen.mono (fun _ _ hstep => hstep.1) _ _ h

/-- Names that are claimed later have plain extensions only if those of before have. -/
theorem plainExtensions (hstep : s.FileStep s') (hext : s'.PlainExtensions) : s.PlainExtensions :=
  fun lang stem ext hmem => hext lang stem ext (hstep.guestFiles_subset hmem)

/-- The file of a function stays what it is. -/
theorem holds (h : u.Sparing path v) (hu : u.Filed) (hext : v.PlainExtensions)
    (hpath : u.heap.guestPath? c = some path) (htext : u.Holds path text) : v.Holds path text := by
  induction h with
  | refl => exact htext
  | tail hsparing hstep ih =>
    have hcourse := Sparing.course hsparing
    exact hstep.1.holds (hcourse.filed hu) hext hstep.2 (hcourse.guestPath?_kept hpath)
      (ih (plainExtensions hstep.1 hext))

/-- A function that gets a file on the way has a file with the text that was made from its own body. -/
theorem holds_new (h : u.Sparing path v) (hu : u.Filed) (hext : v.PlainExtensions)
    (hnone : u.heap.guestPath? c = none) (hpath : v.heap.guestPath? c = some path) :
    ∃ w lang markers text, u.Sparing path w ∧ w.Sparing path v ∧
      w.heap.Renders c lang markers text ∧ v.Holds path text := by
  induction h with
  | refl => cases hnone.symm.trans hpath
  | @tail x y hsparing hstep ih =>
    have hx := (Sparing.course hsparing).filed hu
    cases hbefore : x.heap.guestPath? c with
    | none =>
      obtain ⟨lang, markers, text, hr, hholds⟩ := hstep.1.holds_new hx hext hbefore hpath
      exact ⟨x, lang, markers, text, hsparing, .single hstep, hr, hholds⟩
    | some path' =>
      cases (hstep.1.guestPath?_kept hbefore).symm.trans hpath
      obtain ⟨w, lang, markers, text, hw, hwx, hr, hholds⟩ :=
        ih (plainExtensions hstep.1 hext) hbefore
      exact ⟨w, lang, markers, text, hw, .tail hwx hstep, hr,
        hstep.1.holds hx hext hstep.2 hbefore hholds⟩

end Sparing

end Session
end Ditlang
