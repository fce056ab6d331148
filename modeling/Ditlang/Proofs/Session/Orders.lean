import Ditlang.Eval.Calls
import Ditlang.Proofs.Guest.Staff
import Ditlang.Proofs.Heap.Steps
import Ditlang.Proofs.Session.Talk

/-!
# Ditlang.Proofs.Session.Orders

The jobs that guest functions had run, and for whom. An `Order` is a job together with the function
that was called, its Lang and what the properties of the Lang were. `Session.Past` says which orders
led to a session: steps of the store and orders may follow each other as they like, but every order
is that of a function of the store at that time (`Call.Own`). What the workers of the session are
and which jobs they were given is read off the orders (`Past.manned`).
-/

namespace Ditlang

open Guest

/-- A call of a guest function, and what the Lang of the function says is to be launched. -/
structure Call where
  func : ContainerId
  lang : ContainerId
  spec : LaunchSpec

/-- A job of a call. -/
structure Order extends Call where
  job : Job
  /-- The worker that was known for the Lang of the job before. -/
  known : Option Nat

/-- The body of a guest function was written to a file. -/
def Heap.HasFile (h : Heap) (func : ContainerId) (path : String) : Prop :=
  ∃ g : Heap, g.Steps h ∧ ∃ data, (g.container func).kind = .func data ∧ data.guestPath = some path

theorem Heap.HasFile.mono {h h' : Heap} {func : ContainerId} {path : String}
    (hf : h.HasFile func path) (hsteps : h.Steps h') : h'.HasFile func path := by
  obtain ⟨g, hg, hdata⟩ := hf
  exact ⟨g, hg.trans hsteps, hdata⟩

/-- The job is one of a function of the store, whose file it names: when the function was called, the
properties of its Lang were those of the call. -/
structure Call.Own (h : Heap) (c : Call) (job : Job) : Prop where
  func : ∃ data, (h.container c.func).kind = .func data ∧ data.lang = .guest c.lang
  file : h.HasFile c.func job.path
  called : ∃ g : Heap, g.Reachable ∧ g.Steps h ∧ Eval.launchSpec g c.lang = .ok c.spec ∧
    job.func = g.nameOf c.func
  lang : job.lang = c.spec.lang

theorem Call.Own.mono {h h' : Heap} {c : Call} {job next : Job} (hc : c.Own h job)
    (hsteps : h.Steps h') (hnext : next.Alike job) : c.Own h' next where
  func := by
    obtain ⟨data, hk, hl⟩ := hc.func
    have hfunc : h.IsKind .func c.func := by rw [Heap.IsKind, hk]; rfl
    have hbecomes := (hsteps.grows.container c.func hfunc.lt_size).kind
    rw [hk] at hbecomes
    generalize (h'.container c.func).kind = k at hbecomes
    cases hbecomes with
    | same => exact ⟨data, rfl, hl⟩
    | func _ _ hlang => exact ⟨_, rfl, hlang.trans hl⟩
  file := hnext.2.2 ▸ hc.file.mono hsteps
  called := by
    obtain ⟨g, hr, hg, hspec, hname⟩ := hc.called
    exact ⟨g, hr, hg.trans hsteps, hspec, hnext.2.1.trans hname⟩
  lang := hnext.1.trans hc.lang

namespace Session

/-- The worker that the handle knows for a Lang. -/
def known (s : Session) (lang : String) : Option Nat :=
  s.daemon.bind fun d => d.handle.workers.lookup lang

/-- The orders that led to a session since its workers were last stopped. -/
inductive Past : Session → List Order → Prop where
  | start (mainPath tmpDir : String) (launcher : Option Launcher) (host : Host) :
      Past (start mainPath tmpDir launcher host) []
  | work {s s' : Session} {os : List Order} : Past s os → s.heap.Steps s'.heap →
      s'.daemon = s.daemon → Past s' os
  | order {s s' : Session} {os : List Order} {c : Call} {job : Job}
      {result : Except Diagnostic Job} : Past s os → c.Own s.heap job →
      s.runJob c.spec job = some (result, s') →
      Past s' (os ++ [{ c with job, known := s.known job.lang }])
  | settle {s : Session} {os : List Order} : Past s os → Past s.settle os
  | shutdown {s : Session} {os : List Order} : Past s os → Past s.shutdown.2 []

/-! ## What the orders say of the workers -/

/-- The jobs are those of some of the orders, in their order. Each of them was for a Lang with the
name of the worker's Lang, and the worker was known for that name before or was launched for the
order. -/
def Gave (os : List Order) (roster : List Profile) (i : Nat) (js : List Job) : Prop :=
  ∃ given : List Order, given.Sublist os ∧ js = given.map (·.job.fresh) ∧
    ∀ o ∈ given, ∃ p, roster[i]? = some p ∧ p.spec.lang = o.job.lang ∧
      (p.spec = o.spec ∨ o.known = some i)

theorem gave_nil (os : List Order) (roster : List Profile) (i : Nat) : Gave os roster i [] :=
  ⟨[], List.nil_sublist os, rfl, fun _ ho => nomatch ho⟩

/-- The workers of the session are those that the orders say. -/
def Manned (s : Session) (os : List Order) : Prop :=
  match s.daemon with
  | none => os = []
  | some d => ∃ roster, d.fleet.Staffed d.handle.workers roster none (Gave os roster) ∧
      ∀ p ∈ roster, ∃ o ∈ os, p.spec = o.spec

end Session

theorem Guest.Fleet.staffed_start (launcher : Launcher) (tmpDir : String)
    (old : Nat → List Job → Prop) : Fleet.Staffed [] [] none old { launcher, tmpDir } := by
  refine ⟨⟨?_, ?_, ?_, ?_⟩, rfl, ?_, ?_, ?_, ?_, ?_, ?_, ?_, ?_⟩ <;> simp [Fleet.Has]

namespace Session

variable {s s' s'' : Session} {os : List Order} {c : Call} {job j : Job}
  {result : Except Diagnostic Job}

theorem Manned.of_daemon (hs : s.Manned os) (h : s'.daemon = s.daemon) : s'.Manned os := by
  rw [Manned, h]
  exact hs

/-- A session without a daemon has no orders; its daemon starts without workers. -/
theorem Manned.ensureDaemon (hs : s.Manned os) :
    ∃ roster, s.ensureDaemon.1.fleet.Staffed s.ensureDaemon.1.handle.workers roster none
        (Gave os roster) ∧
      (∀ p ∈ roster, ∃ o ∈ os, p.spec = o.spec) ∧
      ∀ lang, s.ensureDaemon.1.handle.workers.lookup lang = s.known lang := by
  unfold Session.ensureDaemon known
  unfold Manned at hs
  cases hd : s.daemon with
  | none =>
    refine ⟨[], Fleet.staffed_start _ _ _, fun _ hp => (nomatch hp), fun lang => rfl⟩
  | some d =>
    rw [hd] at hs
    obtain ⟨roster, hstaffed, hroster⟩ := hs
    exact ⟨roster, hstaffed, hroster, fun lang => rfl⟩

theorem Manned.runJob (hs : s.Manned os) (hlang : job.lang = c.spec.lang)
    (hr : s.runJob c.spec job = some (result, s')) :
    s'.Manned (os ++ [{ c with job, known := s.known job.lang }]) ∧
      ∀ j, result = .ok j → j.Alike job := by
  obtain ⟨roster, hstaffed, hroster, hknown⟩ := hs.ensureDaemon
  obtain ⟨⟨result', d, host⟩, hrun, he⟩ := Option.map_eq_some_iff.1 hr
  cases he
  obtain ⟨⟨_, handle, fleet, _⟩, hrun', he'⟩ := Option.map_eq_some_iff.1 hrun
  cases he'
  obtain ⟨⟨new, hnew, hend⟩, hok⟩ :=
    hstaffed.runJobWith (gave_nil os roster) hlang.symm hrun'
  refine ⟨⟨roster ++ new, hend.mono fun i js hi hjs => ?_, ?_⟩, hok⟩
  · have hold : ∀ {js}, Gave os roster i js → ∃ given : List Order, given.Sublist os ∧
        js = given.map (·.job.fresh) ∧ ∀ o ∈ given, ∃ p, (roster ++ new)[i]? = some p ∧
          p.spec.lang = o.job.lang ∧ (p.spec = o.spec ∨ o.known = some i) := by
      rintro js ⟨given, hsub, hjs, hgiven⟩
      refine ⟨given, hsub, hjs, fun o ho => ?_⟩
      obtain ⟨p, hp, hfrom⟩ := hgiven o ho
      refine ⟨p, ?_, hfrom⟩
      rw [List.getElem?_append_left (List.getElem?_eq_some_iff.1 hp).1]
      exact hp
    rcases hjs with hgave | ⟨js', rfl, hgave, hfrom, hname⟩
    · obtain ⟨given, hsub, hjs, hgiven⟩ := hold hgave
      exact ⟨given, hsub.trans (List.sublist_append_left _ _), hjs, hgiven⟩
    · obtain ⟨given, hsub, hjs, hgiven⟩ := hold hgave
      refine ⟨given ++ [{ c with job, known := s.known job.lang }], hsub.append (.refl _), ?_, ?_⟩
      · rw [hjs, List.map_append]
        rfl
      · intro o ho
        rcases List.mem_append.1 ho with ho | ho
        · exact hgiven o ho
        · rw [List.mem_singleton.1 ho]
          have hp := List.getElem?_eq_getElem hi
          refine ⟨_, hp, (hname _ hp).symm, ?_⟩
          rcases hfrom with hfresh | hfrom
          · -- the workers after those of before were launched for the job
            rw [List.getElem?_append_right hfresh] at hp
            exact .inl (hnew _ (List.mem_of_getElem? hp))
          · exact .inr ((hknown _).symm.trans hfrom)
  · intro p hp
    rcases List.mem_append.1 hp with hp | hp
    · obtain ⟨o, ho, hspec⟩ := hroster p hp
      exact ⟨o, List.mem_append_left _ ho, hspec⟩
    · exact ⟨_, List.mem_append_right _ (List.mem_singleton_self _), hnew p hp⟩

/-- The workers of a session are those that its orders say. -/
theorem Past.manned (hs : s.Past os) : s.Manned os := by
  induction hs with
  | start mainPath tmpDir launcher host => exact rfl
  | work _ _ hd ih => exact ih.of_daemon hd
  | order _ hown hr ih => exact (ih.runJob hown.lang hr).1
  | @settle s os _ ih =>
    unfold Session.settle
    split
    · exact ih
    · rename_i d hd
      rw [Manned, hd] at ih
      obtain ⟨roster, hstaffed, hroster⟩ := ih
      refine ⟨roster, ?_, hroster⟩
      unfold Daemon.settle
      split
      · rename_i hq
        exact hstaffed.quiesce hq
      · exact hstaffed
  | @shutdown s os _ ih =>
    unfold Session.shutdown
    split
    · rename_i hd
      rw [Manned, hd]
    · exact rfl

theorem heap_of_runJob {spec : LaunchSpec} (hr : s.runJob spec job = some (result, s')) :
    s'.heap = s.heap := by
  have hheap : s.ensureDaemon.2.heap = s.heap := by
    unfold Session.ensureDaemon
    split <;> rfl
  obtain ⟨_, -, he⟩ := Option.map_eq_some_iff.1 hr
  cases he
  exact hheap

theorem heap_settle (s : Session) : s.settle.heap = s.heap := by
  unfold Session.settle
  split <;> rfl

/-- Every order of a session is that of a function of its store. -/
theorem Past.own (hs : s.Past os) : ∀ o ∈ os, o.Own s.heap o.job := by
  induction hs with
  | start mainPath tmpDir launcher host => exact fun _ ho => nomatch ho
  | work _ hsteps _ ih => exact fun o ho => (ih o ho).mono hsteps ⟨rfl, rfl, rfl⟩
  | order _ hown hr ih =>
    rw [heap_of_runJob hr]
    intro o ho
    rcases List.mem_append.1 ho with ho | ho
    · exact ih o ho
    · rw [List.mem_singleton.1 ho]
      exact hown
  | settle _ ih =>
    rw [heap_settle]
    exact ih
  | shutdown _ ih => exact fun _ ho => nomatch ho

/-! ## Evaluations give orders -/

/-- An evaluation that leads from one session to another adds orders. -/
def Orders (s s' : Session) : Prop :=
  ∀ os, s.Past os → ∃ more, s'.Past (os ++ more)

theorem Orders.of_daemon (hsteps : s.heap.Steps s'.heap) (hd : s'.daemon = s.daemon) :
    s.Orders s' := by
  intro os hs
  refine ⟨[], ?_⟩
  rw [List.append_nil]
  exact hs.work hsteps hd

theorem Orders.trans (h : s.Orders s') (h' : s'.Orders s'') : s.Orders s'' := by
  intro os hs
  obtain ⟨more, hmore⟩ := h os hs
  obtain ⟨rest, hrest⟩ := h' _ hmore
  refine ⟨more ++ rest, ?_⟩
  rw [← List.append_assoc]
  exact hrest

theorem orders_of_runJob (hown : c.Own s.heap job) (hr : s.runJob c.spec job = some (result, s')) :
    s.Orders s' :=
  fun _ hs => ⟨_, hs.order hown hr⟩

/-- What an evaluation does to the guest workers that leads from one session to another; `ok` tells
whether it succeeds. -/
structure Leads (ok : Bool) (s s' : Session) : Prop where
  tells : s.Tells ok s'
  orders : s.Orders s'

theorem Leads.of_daemon (hsteps : s.heap.Steps s'.heap) (hd : s'.daemon = s.daemon) (ok : Bool) :
    s.Leads ok s' :=
  ⟨.of_daemon hd ok, .of_daemon hsteps hd⟩

theorem Leads.setHeap {h : Heap} (hsteps : s.heap.Steps h) (ok : Bool) :
    s.Leads ok { s with heap := h } :=
  have hd : ({ s with heap := h } : Session).daemon = s.daemon := rfl
  .of_daemon hsteps hd ok

/-- What is kept of bodies says nothing to guest workers. -/
theorem leads_note (e : BodyEvent) (ok : Bool) : s.Leads ok (s.note e) :=
  have hd : (s.note e).daemon = s.daemon := rfl
  have hsteps : s.heap.Steps (s.note e).heap := .refl
  .of_daemon hsteps hd ok

theorem Leads.note {ok : Bool} (h : s.Leads ok s') (e : BodyEvent) : s.Leads ok (s'.note e) where
  tells t ht := by
    obtain ⟨w, hw, hr⟩ := h.tells t ht
    have hd : (s'.note e).daemon = s'.daemon := rfl
    exact ⟨w, hw, rests_of_daemon hd hr⟩
  orders := h.orders.trans (leads_note e true).orders

theorem Leads.trans {ok : Bool} (h : s.Leads true s') (h' : s'.Leads ok s'') : s.Leads ok s'' :=
  ⟨h.tells.trans h'.tells, h.orders.trans h'.orders⟩

/-- What a call does from a job on to its end. -/
structure Converses (c : Call) (job : Job) (ok : Bool) (s s' : Session) : Prop where
  speaks : s.Speaks job ok s'
  orders : c.Own s.heap job → s.Orders s'

theorem Converses.leads {ok : Bool} (h : s.Converses c job ok s') (hk : job.kind = .callFunc)
    (hown : c.Own s.heap job) : s.Leads ok s' :=
  ⟨h.speaks.tells hk, h.orders hown⟩

theorem converses_of_error {d : Diagnostic} (hr : s.runJob c.spec job = some (.error d, s')) :
    s.Converses c job false s' :=
  ⟨speaks_of_error hr, fun hown => orders_of_runJob hown hr⟩

theorem converses_of_finished (hr : s.runJob c.spec job = some (.ok j, s'))
    (hk : j.kind = .finishFunc) (hd : s''.daemon = s'.daemon) (hsteps : s'.heap.Steps s''.heap) :
    s.Converses c job true s'' :=
  ⟨speaks_of_finished hr hk hd, fun hown => (orders_of_runJob hown hr).trans (.of_daemon hsteps hd)⟩

theorem converses_of_other (hr : s.runJob c.spec job = some (.ok j, s'))
    (hexe : j.kind ≠ .exeDitlang) (hfinish : j.kind ≠ .finishFunc) : s.Converses c job false s' :=
  ⟨speaks_of_other hr hexe hfinish, fun hown => orders_of_runJob hown hr⟩

theorem converses_of_unanswered (hr : s.runJob c.spec job = some (.ok j, s'))
    (hk : j.kind = .exeDitlang) (hleads : s'.Leads false s'') : s.Converses c job false s'' :=
  ⟨speaks_of_unanswered hr hk hleads.tells,
    fun hown => (orders_of_runJob hown hr).trans hleads.orders⟩

/-- The next job of the call is one of the same function. -/
theorem converses_of_answered {ok : Bool} (hr : s.runJob c.spec job = some (.ok j, s'))
    (hk : j.kind = .exeDitlang) (hleads : s'.Leads true s'') (hsteps : s'.heap.Steps s''.heap)
    {doc : Json} {s₃ : Session} (hnext : s''.Converses c (j.callback doc) ok s₃) :
    s.Converses c job ok s₃ := by
  refine ⟨speaks_of_answered hr hk hleads.tells hnext.speaks, fun hown os hs => ?_⟩
  have halike := (hs.manned.runJob hown.lang hr).2 j rfl
  obtain ⟨more, hmore⟩ := hleads.orders _ (hs.order hown hr)
  have hnext' := hnext.orders (hown.mono (heap_of_runJob hr ▸ hsteps) halike)
  obtain ⟨rest, hrest⟩ := hnext' _ hmore
  refine ⟨{ c with job, known := s.known job.lang } :: more ++ rest, ?_⟩
  simpa using hrest

end Session
end Ditlang
