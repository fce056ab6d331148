import Ditlang.Proofs.Files.Calls
import Ditlang.Proofs.Session.Conversations
import Ditlang.Proofs.Session.Incremental

/-!
# Ditlang.Proofs.Session.GuestFiles

Guest files are neither shared nor overwritten. Whatever a session does is a course of guest files
(`Reached.course_of_later`): running programs, lines of a prompt and files, letting the guest workers go
on, and stopping them. What holds between the steps of such a course holds in every session
(`Reached.filed`). So the search for the name of a file ends, functions have files of their own, and a
file has the text that was made from the body of its function as long as nothing else is written there
(`Reached.guest_files_kept`).
-/

namespace Ditlang
namespace Session

open Source (View)

variable {s s' t u v : Session}

/-! ## Sessions at their start -/

/-- The main dit is neither a function nor a Lang. -/
theorem unfiled_start (mainPath tmpDir : String) (launcher : Option Guest.Launcher) (host : Host) :
    Heap.empty.Unfiled (start mainPath tmpDir launcher host).heap :=
  Heap.unfiled_install.trans (.alloc_other (by simp [ContainerKind.Naming, ContainerKind.valueKind?]))

theorem guestPath?_start (mainPath tmpDir : String) (launcher : Option Guest.Launcher) (host : Host)
    (c : ContainerId) : (start mainPath tmpDir launcher host).heap.guestPath? c = none := by
  refine Option.eq_none_iff_forall_ne_some.2 fun path hpath => ?_
  cases (unfiled_start mainPath tmpDir launcher host).guestPath?_eq.1 hpath

theorem filed_start (mainPath tmpDir : String) (launcher : Option Guest.Launcher) (host : Host) :
    (start mainPath tmpDir launcher host).Filed where
  named := (unfiled_start mainPath tmpDir launcher host).named Heap.named_empty
  handed := nofun
  claimed := nofun
  owned c path hpath := by cases (guestPath?_start mainPath tmpDir launcher host c).symm.trans hpath
  apart c d path hpath := by cases (guestPath?_start mainPath tmpDir launcher host c).symm.trans hpath

theorem Filed.setHost (hs : s.Filed) (host : Host) : Filed { s with host } :=
  ⟨hs.named, hs.handed, hs.claimed, hs.owned, hs.apart⟩

/-! ## Running something -/

/-- A change of the main dit, which is neither a function nor a Lang. -/
theorem unfiled_main (hdit : s.heap.IsKind .dit s.main) {f : Container → Container}
    (hf : ∀ x, (f x).kind = x.kind) : s.heap.Unfiled (s.heap.modifyContainer s.main f) := by
  have hmain : ¬ (s.heap.container s.main).kind.Naming := by
    rintro (hk | hk)
    · cases hdit.symm.trans hk
    · cases hdit.symm.trans hk
  refine .modifyContainer s.main (.of_other hmain ?_)
  rw [hf]
  exact hmain

theorem follows_ending {h : Heap} (r : BodyResult) :
    Eval.Obeys courseLaw h (ending r) fun _ _ => True := by
  unfold ending
  split
  · exact .pure trivial
  · exact .pure trivial
  · exact Eval.obeys_uncaught _

theorem course_runMain (hs : s.Sound) (hdit : s.heap.IsKind .dit s.main) (hn : s.heap.SlashlessNames)
    {fuel : Nat} {view : View} {fragment : Bool} {result : Except Failure (Option Value)}
    (hrun : s.runMain fuel view fragment = some (result, s')) : s.Course s' := by
  have hsound := sound_opened hs view fragment
  have hopen : s.Works (s.opened view fragment).session :=
    .of_same (unfiled_main hdit (f := ({ · with body := some ⟨s.mainPath, view, .start, true⟩ }))
      fun _ => rfl) rfl rfl rfl rfl rfl
  have hclear : (s.opened view fragment).Clear := ⟨hsound, nofun, hopen.heap.named hn⟩
  have hwhole : Eval.Obeys courseLaw (s.opened view fragment).session.heap
      (Eval.bodyAt fuel s.main s.mainPath view fragment >>= ending) fun _ _ => True :=
    ((Eval.deeper_following 0 fuel).body _ s.main s.mainPath view fragment hsound.session.main).bind
      fun _ r _ _ => follows_ending r
  have hl := hwhole _ hclear rfl
  rw [runMain_eq] at hrun
  revert hrun hl
  cases (Eval.bodyAt fuel s.main s.mainPath view fragment >>= ending) (s.opened view fragment) with
  | done a t =>
    rintro ⟨⟩ hl
    exact .head (.work hopen) hl.2.2.1
  | failed e t =>
    rintro ⟨⟩ hl
    exact .head (.work hopen) hl.2.2.1
  | outOfFuel => exact nofun

theorem course_runFile (hs : s.Sound) (hdit : s.heap.IsKind .dit s.main) (hn : s.heap.SlashlessNames)
    {path : String} {result : Except Failure Unit} (hrun : s.runFile path = some (result, s')) :
    s.Course s' := by
  unfold Session.runFile at hrun
  split at hrun
  · rename_i d host hload
    cases hrun
    have hfiles : host.files = s.host.files := congrArg (·.2.files) hload.symm
    exact .single (.work (.of_same (.refl _) rfl rfl hfiles rfl rfl))
  · rename_i source host hload
    obtain ⟨whole, hmain⟩ := exists_runMain_of_evalSource hrun
    have hfiles : host.files = s.host.files := congrArg (·.2.files) hload.symm
    have hu : s.heap.Unfiled (s.heap.modifyContainer s.main ({ · with name := some path })) :=
      unfiled_main hdit fun _ => rfl
    have hstep : s.heap.Step (s.heap.modifyContainer s.main ({ · with name := some path })) :=
      .describe s.main fun _ => rfl
    have hd := hs.setHeap (.single hstep)
    have hrest := course_runMain (s := { s with
      host
      mainPath := path
      heap := s.heap.modifyContainer s.main ({ · with name := some path }) })
      ⟨hd.heap, hd.prelude, hd.main⟩ (hdit.mono hstep.grows) (hu.named hn) hmain
    refine .head (.work ?_) hrest
    exact .of_same hu rfl rfl hfiles rfl rfl

/-! ## Every session -/

/-- Something that a session does. -/
inductive Turn (s : Session) : Session → Prop where
  | main {s' : Session} {fuel : Nat} {view : View} {fragment : Bool}
      {result : Except Failure (Option Value)} :
      s.runMain fuel view fragment = some (result, s') → Turn s s'
  | file {s' : Session} {path : String} {result : Except Failure Unit} :
      s.runFile path = some (result, s') → Turn s s'
  | settle : Turn s s.settle
  | shutdown : Turn s s.shutdown.2

/-- What a session becomes when nobody else changes files. -/
abbrev Later : Session → Session → Prop :=
  Relation.ReflTransGen Turn

theorem Turn.reached (hs : s.Reached) (ht : s.Turn t) : t.Reached := by
  cases ht with
  | main hrun => exact hs.runMain hrun
  | file hrun => exact hs.runFile hrun
  | settle => exact hs.settle
  | shutdown => exact hs.shutdown

theorem Turn.course (hs : s.Reached) (hn : s.heap.SlashlessNames) (ht : s.Turn t) : s.Course t := by
  cases ht with
  | main hrun => exact course_runMain hs.sound hs.main_isKind hn hrun
  | file hrun => exact course_runFile hs.sound hs.main_isKind hn hrun
  | settle => exact course_settle s
  | shutdown => exact course_shutdown s

/-- What holds between the steps of a course holds in every session. -/
theorem Reached.filed (hs : s.Reached) : s.Filed := by
  induction hs with
  | start mainPath tmpDir launcher host => exact filed_start mainPath tmpDir launcher host
  | runMain hs hrun ih => exact (Turn.main hrun |>.course hs ih.named).filed ih
  | runFile hs hrun ih => exact (Turn.file hrun |>.course hs ih.named).filed ih
  | settle _ ih => exact (course_settle _).filed ih
  | shutdown _ ih => exact (course_shutdown _).filed ih
  | setHost host _ ih => exact ih.setHost host

/-- Whatever a session does is a course of guest files. -/
theorem Reached.course_of_later (hs : s.Reached) (hl : s.Later t) : t.Reached ∧ s.Course t := by
  induction hl with
  | refl => exact ⟨hs, .refl⟩
  | tail _ ht ih => exact ⟨ht.reached ih.1, ih.2.trans (ht.course ih.1 ih.1.filed.named)⟩

/-! ## Guest files -/

/-- What is kept of guest files from one session to another one in a course. -/
structure FilesKept (u v : Session) : Prop where
  /-- The search for a name ends, with the first one that is free. -/
  found : ∀ lang extension base, ∃ n,
    v.FirstFree (Guest.fileName lang · extension) base n ∧
    v.freeFileName (Guest.fileName lang · extension) base (v.guestFiles.length + 1) 1 =
      Guest.fileName lang (Guest.stemAt base n) extension
  /-- No two functions have the same file. -/
  apart : ∀ c d path, v.heap.guestPath? c = some path → v.heap.guestPath? d = some path → c = d
  /-- A function keeps its file. -/
  path : ∀ c path, u.heap.guestPath? c = some path → v.heap.guestPath? c = some path
  /-- The file of a function keeps its text. -/
  kept : v.PlainExtensions → ∀ c path text, u.heap.guestPath? c = some path → u.Sparing path v →
    u.Holds path text → v.Holds path text
  /-- A function gets a file with the text that was made from its own body. -/
  filed : v.PlainExtensions → ∀ c path, u.heap.guestPath? c = none →
    v.heap.guestPath? c = some path → u.Sparing path v →
    ∃ w lang markers text b, u.Sparing path w ∧ w.Sparing path v ∧
      w.heap.Renders c lang markers text ∧ (v.heap.container c).body = some b ∧
      Guest.preprocess b.view markers = .ok text ∧ v.Holds path text

theorem Filed.filesKept (hu : u.Filed) (h : u.Course v) : u.FilesKept v where
  found lang extension base := v.exists_freeFileName lang extension base
  apart := (h.filed hu).apart
  path _ _ hpath := h.guestPath?_kept hpath
  kept hext _ _ _ hpath hspare htext := hspare.holds hu hext hpath htext
  filed hext c path hnone hpath hspare := by
    obtain ⟨w, lang, markers, text, hw, hwv, hr, hholds⟩ := hspare.holds_new hu hext hnone hpath
    obtain ⟨b, hb, htext⟩ := hr.rendered
    have hview := (hwv.course.view_kept hr.isFunc).2
    rw [hb, Option.map_some] at hview
    obtain ⟨b', hb', heq⟩ := Option.map_eq_some_iff.1 hview
    exact ⟨w, lang, markers, text, b', hw, hwv, hr, hb', heq ▸ htext, hholds⟩

/-- Guest files are neither shared nor overwritten. Along whatever a session does, functions get files
of their own under names that no other one has claimed, and keep them. As long as no driver is written
over it, such a file has the text that was made from the body of its function; and no driver is written
at all when workers are started by scripts. -/
theorem Reached.guest_files_kept (hs : s.Reached) (hl : s.Later t) :
    s.Course t ∧ ∀ u v, s.Course u → u.Course v →
      u.FilesKept v ∧ (v.Scripted → ∀ path, u.Sparing path v) := by
  refine ⟨(hs.course_of_later hl).2, fun u v hsu huv => ?_⟩
  have hu := hsu.filed hs.filed
  exact ⟨hu.filesKept huv, fun hv path => huv.sparing hu hv path⟩

end Session

/-- A function is named like the second try of two others, which have the same name in different
bodies. All three have files of their own, with what was made from their own bodies. -/
theorem namesakes_keep_their_files :
    ∃ s, (Session.scripted [.plays none [.recv, .finish, .recv, .finish, .recv, .finish]
        true]).evalSource
          ("func Python void f_2() \x7b a() \x7d func Python void f() \x7b b() \x7d " ++
            "class A \x7b func Python void f() \x7b c() \x7d \x7d " ++
            "f_2(); f(); A x = A(); x.f();") = some (.ok (), s) ∧
      ∀ file ∈ ([(⟨8⟩, "/tmp/Python_func_f_2.py"), (⟨9⟩, "/tmp/Python_func_f.py"),
          (⟨13⟩, "/tmp/Python_func_f_3.py")] : List (ContainerId × String)),
        s.heap.guestPath? file.1 = some file.2 ∧
        ∃ markers text b, (s.heap.container file.1).body = some b ∧
          Guest.preprocess b.view markers = .ok text ∧ s.Holds file.2 text := by
  obtain ⟨s, heval, hp⟩ := Session.exists_ok
    (Session.scripted [.plays none [.recv, .finish, .recv, .finish, .recv, .finish] true])
    ("func Python void f_2() \x7b a() \x7d func Python void f() \x7b b() \x7d " ++
      "class A \x7b func Python void f() \x7b c() \x7d \x7d " ++
      "f_2(); f(); A x = A(); x.f();")
    (fun s => decide (∀ name ∈ s.guestFiles, Host.Slashless name) && decide s.Scripted &&
      decide (∀ file ∈ ([(⟨8⟩, "/tmp/Python_func_f_2.py"), (⟨9⟩, "/tmp/Python_func_f.py"),
        (⟨13⟩, "/tmp/Python_func_f_3.py")] : List (ContainerId × String)),
        s.heap.guestPath? file.1 = some file.2))
    (by decide +kernel)
  simp only [Bool.and_eq_true, decide_eq_true_eq] at hp
  obtain ⟨⟨hnames, hscripted⟩, hpaths⟩ := hp
  obtain ⟨whole, hrun⟩ := Session.exists_runMain_of_evalSource heval
  obtain ⟨hcourse, hfiles⟩ :=
    Session.Reached.guest_files_kept (.start _ _ _ _) (.single (.main hrun))
  obtain ⟨hkept, hsparing⟩ := hfiles _ s .refl hcourse
  refine ⟨s, heval, fun file hfile => ⟨hpaths file hfile, ?_⟩⟩
  obtain ⟨w, lang, markers, text, b, -, -, -, hb, htext, hholds⟩ :=
    hkept.filed (Session.plainExtensions_of_slashless hnames) file.1 file.2
      (Session.guestPath?_start _ _ _ _ _) (hpaths file hfile) (hsparing hscripted _)
  exact ⟨markers, text, b, hb, htext, hholds⟩

end Ditlang
