import Ditlang.Proofs.Guest.Progress
import Mathlib.Logic.Relation

/-!
# Ditlang.Proofs.Guest.Submission

What a job says until it is answered. Whatever the workers do in the meantime comes down to a few
`Act`s of the fleet, each of which keeps the stages of the job (`Progress.act`), so that a
submission that is answered leaves the fleet at rest (`Fleet.Rests.submit`). A job that is run
through the handle may be submitted twice (`Daemon.runJob_rests`).
-/

namespace Ditlang
namespace Guest

namespace Fleet

variable {f g : Fleet} {t t₁ : Transcript} {busy : Option Nat} {job : Job} {ticket : Nat}

/-! ## What workers do -/

/-- A step of the fleet, as the daemon sees it. -/
inductive Act (f : Fleet) : Fleet → Prop where
  /-- Something that only workers notice. -/
  | quiet {g : Fleet} : g.loop = f.loop → g.talk = f.talk → g.tickets = f.tickets → Act f g
  | accept {g : Fleet} : g.loop = f.loop.accept.2 → g.talk = f.talk → g.tickets = f.tickets →
      Act f g
  | notice (e : Event) : e.Due f.loop → Act f (f.notice e)
  /-- A connection is accepted and announces its Lang at once. -/
  | join (lang : String) :
      Act f ({ f with loop := f.loop.accept.2 }.notice (.connected f.loop.nextKey lang))

abbrev Acts : Fleet → Fleet → Prop := Relation.ReflTransGen Act

/-- What every act keeps, if the daemon never forgets which keys are taken. -/
theorem Act.keeps {P : Fleet → Prop} (hbound : ∀ f, P f → ∀ k, f.loop.Open k → k < f.loop.nextKey)
    (hquiet : ∀ f g, P f → g.loop = f.loop → g.talk = f.talk → g.tickets = f.tickets → P g)
    (haccept : ∀ f g, P f → g.loop = f.loop.accept.2 → g.talk = f.talk → g.tickets = f.tickets → P g)
    (hnotice : ∀ f e, P f → e.Due f.loop → P (f.notice e)) (hf : P f) (ha : Act f g) : P g := by
  cases ha with
  | quiet hloop htalk ht => exact hquiet f g hf hloop htalk ht
  | accept hloop htalk ht => exact haccept f g hf hloop htalk ht
  | notice e he => exact hnotice f e hf he
  | join lang =>
    refine hnotice _ _ (haccept f { f with loop := f.loop.accept.2 } hf rfl rfl rfl) ⟨?_, ?_⟩
    · simp [Loop.accept]
    · -- the key is new
      cases hk : f.loop.connections.lookup f.loop.nextKey with
      | none => exact hk
      | some l =>
        have := hbound f hf _ (Loop.open_of_mem (Loop.mem_of_lookup hk))
        omega

theorem Tells.quiet (h : f.Tells t busy) (hloop : g.loop = f.loop) (htalk : g.talk = f.talk) :
    g.Tells t busy :=
  h.onward (.of_links (by rw [hloop])) (hloop ▸ h.course.registered) htalk

theorem Tells.accept (h : f.Tells t busy) (hloop : g.loop = f.loop.accept.2)
    (htalk : g.talk = f.talk) : g.Tells t busy := by
  refine h.onward ?_ ?_ htalk
  · rw [hloop]
    exact Loop.onward_accept f.loop
  · rw [hloop]
    exact h.course.registered.congr rfl fun _ hm => hm

theorem Rests.act (h : f.Rests t) (ha : Act f g) : g.Rests t := by
  refine ha.keeps (P := (·.Rests t)) (fun _ h => h.course.bound) ?_ ?_
    (fun _ _ h he => (h.notice he).1) h
  · intro f g h hloop htalk ht
    exact h.congr (h.toTells.quiet hloop htalk) (by rw [hloop]) (by rw [hloop]) ht
  · intro f g h hloop htalk ht
    exact h.congr (h.toTells.accept hloop htalk) (by rw [hloop]; rfl) (by rw [hloop]; rfl) ht

theorem Progress.congr (h : Progress t t₁ job ticket f) (hc : g.loop.connections = f.loop.connections)
    (hpending : g.loop.pending = f.loop.pending) (hr : g.loop.replies = f.loop.replies)
    (ht : g.tickets = f.tickets) (htells : ∀ u busy, f.Tells u busy → g.Tells u busy) :
    Progress t t₁ job ticket g := by
  cases h with
  | waiting h hnone =>
    exact .waiting ⟨hpending.trans h.pending, h.job_eq, h.ticket_eq, h.unanswered.congr hr ht,
      htells _ _ h.tells⟩ (hc ▸ hnone)
  | active h =>
    exact .active ⟨hpending.trans h.pending, h.job_eq, h.ticket_eq, h.unanswered.congr hr ht,
      hc ▸ h.connected, htells _ _ h.tells⟩
  | answered ha hattempt h =>
    refine .answered ?_ hattempt (h.congr (htells _ _ h.toTells) hpending hr ht)
    rw [answer?] at ha ⊢
    exact hr ▸ ha

theorem Progress.bound (h : Progress t t₁ job ticket f) {k : Nat} (hk : f.loop.Open k) :
    k < f.loop.nextKey := by
  cases h with
  | waiting h => exact h.tells.course.bound k hk
  | active h => exact h.tells.course.bound k hk
  | answered _ _ h => exact h.course.bound k hk

theorem Progress.act (hp : Prompted t job t₁) (hidle : job.active = false)
    (h : Progress t t₁ job ticket f) (ha : Act f g) : Progress t t₁ job ticket g := by
  refine ha.keeps (P := Progress t t₁ job ticket) (fun _ h _ hk => h.bound hk) ?_ ?_
    (fun _ _ h he => h.notice hp hidle he) h
  · intro f g h hloop htalk ht
    exact h.congr (by rw [hloop]) (by rw [hloop]) (by rw [hloop]) ht fun _ _ hu =>
      hu.quiet hloop htalk
  · intro f g h hloop htalk ht
    exact h.congr (by rw [hloop]; rfl) (by rw [hloop]; rfl) (by rw [hloop]; rfl) ht fun _ _ hu =>
      hu.accept hloop htalk

theorem Rests.acts (h : f.Rests t) (ha : Acts f g) : g.Rests t := by
  induction ha with
  | refl => exact h
  | tail _ ha ih => exact ih.act ha

theorem Progress.acts (hp : Prompted t job t₁) (hidle : job.active = false)
    (h : Progress t t₁ job ticket f) (ha : Acts f g) : Progress t t₁ job ticket g := by
  induction ha with
  | refl => exact h
  | tail _ ha ih => exact ih.act hp hidle ha

theorem acts_modify (f : Fleet) (i : Nat) (w : Worker → Worker) : Acts f (f.modify i w) :=
  .single (.quiet rfl rfl rfl)

theorem acts_readLine (f : Fleet) (i key : Nat) (line : String) : Acts f (f.readLine i key line) := by
  unfold readLine
  split
  · split
    · exact .refl
    · split
      · exact .single (.notice _ trivial)
      · exact .single (.notice _ trivial)
  · rename_i hk
    split
    · rename_i hr
      split
      · rename_i lang _
        have hdue : (Event.connected key lang).Due f.loop :=
          ⟨List.contains_iff_mem.1 hr, Option.not_isSome_iff_eq_none.1 hk⟩
        dsimp only
        split
        · exact .single (.notice _ hdue)
        · exact (Relation.ReflTransGen.single (.notice _ hdue)).trans (acts_modify _ _ _)
      · exact (Relation.ReflTransGen.single (.notice _ trivial)).trans (acts_modify _ _ _)
    · exact .refl

theorem acts_sendText (f : Fleet) (i : Nat) (text : String) : Acts f (f.sendText i text) := by
  unfold sendText
  generalize (text.toList.splitOn '\n').map String.ofList = lines
  induction lines generalizing f with
  | nil => exact .refl
  | cons line lines ih =>
    rw [List.foldl_cons]
    refine Relation.ReflTransGen.trans ?_ (ih _)
    split
    · exact acts_readLine f i _ line
    · exact .refl

theorem acts_exit (f : Fleet) (i : Nat) (w : Worker) : Acts f (f.exit i w) := by
  unfold exit
  dsimp only
  split
  · exact (acts_modify f i _).tail (.notice _ trivial)
  · exact acts_modify f i _

theorem acts_connect (f : Fleet) (i : Nat) (w : Worker) (reachable : Bool) :
    Acts f (f.connect i w reachable) := by
  unfold connect
  split
  · refine Relation.ReflTransGen.trans (.single ?_) (acts_sendText _ i w.hello)
    exact .accept rfl rfl rfl
  · exact acts_exit f i w

theorem acts_stepWorker {f g : Fleet} {h h' : Host} {i : Nat} {w : Worker}
    (hs : stepWorker i w (f, h) = some (g, h')) : Acts f g := by
  simp only [stepWorker] at hs
  split at hs
  · cases hs
  · split at hs
    · cases hs
      exact acts_connect f i w _
    · split at hs
      · split at hs
        · cases hs
          exact acts_modify f i _
        · cases hs
          exact acts_exit f i w
      · split at hs
        · cases hs
          exact acts_exit f i w
        · cases hs
        · cases hs
          exact acts_modify f i _
      · cases hs
        exact (acts_modify f i _).tail (.join _)
      · cases hs
        exact (acts_modify f i _).trans (acts_sendText _ i _)

/-- Whatever workers do until none can move, they do in steps of the fleet. -/
theorem acts_quiesce {n : Nat} {f g : Fleet} {h h' : Host}
    (hq : quiesce n (f, h) = some (g, h')) : Acts f g := by
  induction n generalizing f h with
  | zero => cases hq
  | succ n ih =>
    rw [quiesce] at hq
    split at hq
    · cases hq
      exact .refl
    · rename_i s hs
      obtain ⟨f', h''⟩ := s
      obtain ⟨⟨w, i⟩, -, hw⟩ := List.exists_of_findSome?_eq_some hs
      exact (acts_stepWorker hw).trans (ih hq)

/-! ## A submission from its start to its answer -/

theorem progress_submit (h : f.Rests t) (hp : Prompted t job t₁) (hidle : job.active = false) :
    Progress t t₁ job f.tickets
      ({ f with tickets := f.tickets + 1, loop := f.loop.submit job f.tickets }.dispatch) := by
  have hu : Unanswered { f with tickets := f.tickets + 1 } f.tickets := ⟨rfl, h.tickets⟩
  have hnone : ¬ f.loop.pending.isSome = true := by simp [h.pending]
  simp only [Loop.submit, if_neg hnone]
  split
  · -- the worker has gone, so that the job is lost before it is written
    rename_i hgone
    simp only [Bool.and_eq_true, Bool.not_eq_true'] at hgone
    have hc : ∀ key, (key, job.lang) ∉ f.loop.connections := by
      intro key hm
      have := Loop.connected_iff.2 (List.mem_map_of_mem hm)
      rw [show f.loop.connected job.lang = false from hgone.1] at this
      cases this
    rw [dispatch_of_outgoing? (Loop.outgoing?_of_pending (Loop.pending_lose _))]
    refine progress_answer hu (a := .lost { job with active := false }) rfl rfl
      (Loop.pending_lose _) (.lost rfl rfl (.inl rfl)) ?_
    rw [List.append_nil]
    refine (h.toTells.skip hp hc).onward (.of_links (Loop.links_lose _)) ?_ rfl
    have := h.course.registered.submit job f.tickets
    rwa [Loop.submit, if_neg hnone, if_pos (by simpa using hgone)] at this
  · refine progress_dispatch (p := ⟨job, f.tickets, false⟩) hp hidle
      ⟨rfl, rfl, rfl, hu.congr rfl rfl, ?_⟩
    exact h.toTells.onward (.of_links rfl) (h.course.registered.congr rfl fun _ hm => hm) rfl

/-- A worker that has exited without connecting is not waited for. -/
theorem Progress.exited (hp : Prompted t job t₁) (hidle : job.active = false)
    (h : Progress t t₁ job ticket f) :
    Progress t t₁ job ticket { f with loop := f.loop.workerExited job.lang } := by
  cases h with
  | @waiting p h hc =>
    obtain ⟨hpending, rfl, rfl, hu, htells⟩ := h
    have hconnected : f.loop.connected p.job.lang = false := by
      rw [← Bool.not_eq_true, Loop.connected_iff]
      intro hm
      obtain ⟨⟨key, _⟩, hm, rfl⟩ := List.mem_map.1 hm
      exact hc key hm
    have hexit : f.loop.workerExited p.job.lang =
        f.loop.crash (p.job.lang ++ " worker exited before it connected") := by
      simp [Loop.workerExited, hpending, hidle, hconnected]
    rw [hexit]
    refine progress_answer hu
      (a := .done (p.job.settle .crash (.str (p.job.lang ++ " worker exited before it connected"))))
      ?_ rfl (Loop.pending_crash _ _) (.unheard rfl (.inl rfl)) ?_
    · rw [Loop.crash, Loop.settle_eq hpending]
    · rw [List.append_nil]
      refine (htells.skip hp hc).onward (.of_links (Loop.links_crash _ _)) ?_ rfl
      exact htells.course.registered.congr (Loop.connections_crash _ _) (by simp)
  | active h =>
    have hsame : f.loop.workerExited job.lang = f.loop := by
      simp [Loop.workerExited, h.pending, h.job_eq]
    rw [hsame]
    exact .active h
  | answered ha hattempt hrests =>
    have hsame : f.loop.workerExited job.lang = f.loop := by
      simp [Loop.workerExited, hrests.pending]
    rw [hsame]
    exact .answered ha hattempt hrests

/-- A job is answered after at most a line and its reply, and the fleet is at rest again. -/
theorem Rests.submit (h : f.Rests t) (hp : Prompted t job t₁) (hidle : job.active = false)
    {worker : Option Nat} {a : Answer} {host host' : Host}
    (hs : Fleet.submit job worker (f, host) = some (a, g, host')) :
    ∃ w, Attempt job a w ∧ g.Rests (t₁ ++ w) := by
  have hstart := progress_submit h hp hidle
  have hend : Progress t t₁ job f.tickets g → g.answer? f.tickets = some a →
      ∃ w, Attempt job a w ∧ g.Rests (t₁ ++ w) := by
    intro hprogress ha
    cases hprogress with
    | waiting h =>
      rw [h.unanswered.answer?] at ha
      cases ha
    | active h =>
      rw [h.unanswered.answer?] at ha
      cases ha
    | @answered a' w ha' hattempt hrests =>
      cases ha'.symm.trans ha
      exact ⟨w, hattempt, hrests⟩
  simp only [Fleet.submit] at hs
  obtain ⟨⟨f', h'⟩, hq, hs⟩ := Option.bind_eq_some_iff.1 hs
  have hprogress := hstart.acts hp hidle (acts_quiesce hq)
  split at hs
  · rename_i a' ha
    cases hs
    exact hend hprogress ha
  · split at hs
    · split at hs
      · obtain ⟨a', ha', he⟩ := Option.map_eq_some_iff.1 hs
        cases he
        exact hend (hprogress.exited hp hidle) ha'
      · cases hs
    · cases hs

/-! ## Workers come and go -/

theorem acts_launch (spec : LaunchSpec) (f : Fleet) (h : Host) :
    Acts f (launch spec (f, h)).2.1 := by
  refine .single (.quiet ?_ ?_ ?_)
  all_goals
    unfold launch launchCommand launchScripted
    dsimp only
    split
    · split
      · rfl
      · split <;> rfl
    · split <;> rfl

theorem acts_terminate (i : Nat) (f : Fleet) (h : Host) : Acts f (terminate i (f, h)).1 :=
  acts_modify f i _

theorem acts_ensureWorker (handle : Handle) (lang : String) (spec : LaunchSpec) (f : Fleet)
    (h : Host) : Acts f (handle.ensureWorker backend lang spec (f, h)).2.1 := by
  have hl := acts_launch spec f h
  unfold Handle.ensureWorker
  split
  · exact .refl
  · split
    · rename_i he
      rw [show backend.launch spec (f, h) = launch spec (f, h) from rfl] at he
      rw [he] at hl
      exact hl
    · rename_i he
      rw [show backend.launch spec (f, h) = launch spec (f, h) from rfl] at he
      rw [he] at hl
      exact hl

theorem acts_retire (handle : Handle) (lang : String) (f : Fleet) (h : Host) :
    Acts f (handle.retire backend lang (f, h)).2.1 := by
  unfold Handle.retire
  split
  · exact acts_terminate _ f h
  · exact .refl

end Fleet

theorem Daemon.acts_settle (d : Daemon) (host : Host) : Fleet.Acts d.fleet (d.settle host).1.fleet := by
  unfold Daemon.settle
  split
  · rename_i hq
    exact Fleet.acts_quiesce hq
  · exact .refl

/-! ## Running a job -/

namespace Handle

section Submission

variable {σ : Type} (bk : Backend σ) (spec : LaunchSpec)

/-- What the first submission of a run comes to. -/
inductive Submission (retries : Nat) (job : Job) (h : Handle) (s : σ) (h' : Handle) (s' : σ) :
    Except Diagnostic Job → Prop where
  | unstarted {d : Diagnostic} : h.ensureWorker bk job.lang spec s = (.error d, s') → h' = h →
      Submission retries job h s h' s' (.error d)
  | stopped : h.ensureWorker bk job.lang spec s = (.ok h', s') → h'.running = false →
      Submission retries job h s h' s' (.error (.critical "Guest daemon is not running"))
  | refused {s₁ : σ} {d : Diagnostic} : h.ensureWorker bk job.lang spec s = (.ok h', s₁) →
      bk.submit job.fresh (h'.workers.lookup job.lang) s₁ = some (.refused d, s') →
      Submission retries job h s h' s' (.error d)
  | done {s₁ : σ} {finished : Job} : h.ensureWorker bk job.lang spec s = (.ok h', s₁) →
      h'.running = true →
      bk.submit job.fresh (h'.workers.lookup job.lang) s₁ = some (.done finished, s') →
      Submission retries job h s h' s' (outcome finished)
  | lost {h₁ : Handle} {s₁ s₂ : σ} {lost : Job} :
      h.ensureWorker bk job.lang spec s = (.ok h₁, s₁) →
      bk.submit job.fresh (h₁.workers.lookup job.lang) s₁ = some (.lost lost, s₂) →
      h₁.retire bk lost.lang s₂ = (h', s') →
      Submission retries job h s h' s'
        (.error (crashed lost.func (lost.lang ++ " worker disconnected before answering")))
  | again {n : Nat} {h₁ h₂ : Handle} {s₁ s₂ s₃ : σ} {lost : Job} {result : Except Diagnostic Job} :
      h.ensureWorker bk job.lang spec s = (.ok h₁, s₁) →
      bk.submit job.fresh (h₁.workers.lookup job.lang) s₁ = some (.lost lost, s₂) →
      h₁.retire bk lost.lang s₂ = (h₂, s₃) → retries = n + 1 →
      h₂.runJobWith bk spec n lost s₃ = some (result, h', s') →
      Submission retries job h s h' s' result

end Submission

theorem submission_of_runJobWith {σ : Type} {bk : Backend σ} {spec : LaunchSpec} {retries : Nat}
    {job : Job} {h h' : Handle} {s s' : σ} {result : Except Diagnostic Job}
    (hr : h.runJobWith bk spec retries job s = some (result, h', s')) :
    Submission bk spec retries job h s h' s' result := by
  unfold runJobWith at hr
  split at hr
  · rename_i he
    cases hr
    exact .unstarted he rfl
  · rename_i he
    split at hr
    · rename_i hn
      cases hr
      exact .stopped he (by simpa using hn)
    · rename_i hn
      split at hr
      · cases hr
      · rename_i hsub
        cases hr
        exact .refused he hsub
      · rename_i hsub
        cases hr
        exact .done he (by simpa using hn) hsub
      · rename_i hsub
        dsimp only at hr
        split at hr
        · exact .again he hsub rfl rfl hr
        · cases hr
          exact .lost he hsub rfl

theorem lookup_filter_self (a : String) (ws : List (String × Nat)) :
    (ws.filter (·.1 ≠ a)).lookup a = none := by
  refine List.lookup_eq_none_iff.2 fun w hw => ?_
  obtain ⟨-, hne⟩ := List.mem_filter.1 hw
  simp at hne
  simpa using Ne.symm hne

theorem lookup_filter_of_ne {a b : String} {ws : List (String × Nat)} (h : a ≠ b) :
    (ws.filter (·.1 ≠ b)).lookup a = ws.lookup a := by
  induction ws with
  | nil => rfl
  | cons w ws ih =>
    obtain ⟨c, i⟩ := w
    by_cases hc : c = b
    · have hac : (a == c) = false := by simpa [hc] using h
      rw [List.filter_cons_of_neg (by simp [hc]), List.lookup_cons, hac, ih]
    · rw [List.filter_cons_of_pos (by simp [hc]), List.lookup_cons, List.lookup_cons, ih]

theorem lookup_of_retire {σ : Type} {bk : Backend σ} {h h' : Handle} {lang : String} {s s' : σ}
    (he : h.retire bk lang s = (h', s')) : h'.workers.lookup lang = none := by
  unfold retire at he
  split at he
  · cases he
    exact lookup_filter_self lang h.workers
  · cases he
    assumption

end Handle

/-- The result of a job, with what is said until then. -/
inductive Ran (lang : String) (kind : JobKind) : Except Diagnostic Job → Transcript → Prop where
  | replied {j : Job} {key : Nat} {u : Transcript} : Transcript.Sent lang kind key u →
      j.lang = lang → (j.kind = .exeDitlang ∨ j.kind = .finishFunc) →
      Ran lang kind (.ok j) (u ++ [.said ⟨key, lang, j.kind⟩])
  | crashed {d : Diagnostic} {key : Nat} {u : Transcript} : Transcript.Sent lang kind key u →
      Ran lang kind (.error d) (u ++ [.said ⟨key, lang, .crash⟩])
  | unheard {d : Diagnostic} {u : Transcript} :
      (u = [] ∨ ∃ key, Transcript.Sent lang kind key u) → Ran lang kind (.error d) u

/-- A call that was lost comes first. -/
theorem Ran.after_lost {lang : String} {result : Except Diagnostic Job} {u : Transcript} (lost : Nat)
    (h : Ran lang .callFunc result u) :
    Ran lang .callFunc result (.said ⟨lost, lang, .callFunc⟩ :: u) := by
  cases h with
  | replied hs hlang hkind =>
    rw [← List.cons_append]
    exact .replied (.again rfl hs) hlang hkind
  | crashed hs =>
    rw [← List.cons_append]
    exact .crashed (.again rfl hs)
  | unheard hu =>
    refine .unheard (.inr ?_)
    rcases hu with rfl | ⟨key, hs⟩
    · exact ⟨lost, .last rfl⟩
    · exact ⟨key, .again rfl hs⟩

theorem Prompted.fresh {t t₁ : Transcript} {job : Job} (h : Prompted t job t₁) :
    Prompted t job.fresh t₁ := by
  cases h with
  | call hk => exact .call hk
  | callback hk hreq hlang => exact .callback hk hreq hlang

/-- A job that is done has been answered by its worker, or has crashed. -/
theorem ran_of_done {job j : Job} {w : Transcript} (h : Attempt job (.done j) w)
    (hline : job.kind.isLine) : Ran job.lang job.kind (Handle.outcome j) w := by
  unfold Handle.outcome
  cases h with
  | @replied _ key kind hkind hlang hcrashed hreply =>
    rw [hcrashed]
    have happ : [Mark.said ⟨key, job.lang, job.kind⟩, .said ⟨key, job.lang, kind⟩] =
        [.said ⟨key, job.lang, job.kind⟩] ++ [.said ⟨key, job.lang, kind⟩] := rfl
    rw [happ]
    cases kind with
    | crash => exact .crashed (.last hline)
    | exeDitlang =>
      rw [if_neg (by decide), ← hkind]
      exact .replied (.last hline) hlang (.inl hkind)
    | finishFunc =>
      rw [if_neg (by decide), ← hkind]
      exact .replied (.last hline) hlang (.inr hkind)
    | callFunc | ditlangCallback | heart => cases hreply
  | unheard hcrashed hw =>
    rw [if_pos hcrashed]
    refine .unheard (hw.imp id ?_)
    rintro ⟨key, rfl⟩
    exact ⟨key, .last hline⟩

section RunJob

variable {spec : LaunchSpec} {retries : Nat} {t t₁ : Transcript} {job : Job}
  {handle handle' : Handle} {f g : Fleet} {host host' : Host} {result : Except Diagnostic Job}

/-- One submission of a job that is run: it has a result, or it fails before it is submitted, or it is
a call that was lost and is submitted again. -/
theorem runJobWith_cases (h : f.Rests t) (hp : Prompted t job t₁)
    (hr : Handle.runJobWith Fleet.backend spec retries job handle (f, host) =
      some (result, handle', g, host')) :
    (∃ w, Ran job.lang job.kind result w ∧ g.Rests (t₁ ++ w)) ∨
      (∃ d, result = .error d ∧ g.Rests t) ∨
      ∃ n lost w handle₁ f₁ host₁, lost.kind = .callFunc ∧ job.kind = .callFunc ∧
        lost.lang = job.lang ∧ (w = [] ∨ ∃ key, w = [.said ⟨key, job.lang, .callFunc⟩]) ∧
        f₁.Rests (t ++ w) ∧ retries = n + 1 ∧
        Handle.runJobWith Fleet.backend spec n lost handle₁ (f₁, host₁) =
          some (result, handle', g, host') := by
  have hworker := Fleet.acts_ensureWorker handle job.lang spec f host
  unfold Handle.runJobWith at hr
  split at hr
  · rename_i d s he
    obtain ⟨f₁, host₁⟩ := s
    rw [he] at hworker
    cases hr
    exact .inr (.inl ⟨d, rfl, h.acts hworker⟩)
  · rename_i handle₁ s he
    obtain ⟨f₁, host₁⟩ := s
    rw [he] at hworker
    have h₁ := h.acts hworker
    split at hr
    · cases hr
      exact .inr (.inl ⟨_, rfl, h₁⟩)
    · split at hr
      · cases hr
      · -- the only submission under way is this one
        rename_i s hsub
        obtain ⟨f₂, host₂⟩ := s
        obtain ⟨w, hattempt, -⟩ := h₁.submit hp.fresh rfl hsub
        cases hattempt
      · rename_i s hsub
        obtain ⟨f₂, host₂⟩ := s
        obtain ⟨w, hattempt, h₂⟩ := h₁.submit hp.fresh rfl hsub
        have hran := ran_of_done hattempt hp.fresh.isLine
        cases hr
        exact .inl ⟨w, hran, h₂⟩
      · rename_i lost s hsub
        obtain ⟨f₂, host₂⟩ := s
        obtain ⟨w, hattempt, h₂⟩ := h₁.submit hp.fresh rfl hsub
        have hretire := Fleet.acts_retire handle₁ lost.lang f₂ host₂
        cases hattempt with
        | lost hkind hlang hw =>
        dsimp only at hr
        split at hr
        · rename_i n hk
          have hcall : job.kind = .callFunc := hkind.symm.trans hk
          cases hp with
          | callback hk' =>
            rw [hcall] at hk'
            cases hk'
          | call =>
            have hw' : w = [] ∨ ∃ key, w = [Mark.said ⟨key, job.lang, .callFunc⟩] := by
              rw [← hcall]
              exact hw
            exact .inr (.inr ⟨n, lost, w, _, _, _, hk, hcall, hlang, hw', h₂.acts hretire, rfl, hr⟩)
        · simp only [Option.some.injEq, Prod.mk.injEq] at hr
          obtain ⟨rfl, -, hsite⟩ := hr
          rw [hsite] at hretire
          refine .inl ⟨w, .unheard (hw.imp id ?_), h₂.acts hretire⟩
          rintro ⟨key, rfl⟩
          exact ⟨key, .last hp.isLine⟩

/-- A job that is run leaves the fleet at rest. It may fail before it is submitted; then nothing is
said. -/
theorem runJobWith_rests (h : f.Rests t) (hp : Prompted t job t₁)
    (hr : Handle.runJobWith Fleet.backend spec retries job handle (f, host) =
      some (result, handle', g, host')) :
    (∃ w, Ran job.lang job.kind result w ∧ g.Rests (t₁ ++ w)) ∨
      ∃ d, result = .error d ∧ g.Rests t := by
  induction retries generalizing t t₁ job handle f host with
  | zero =>
    rcases runJobWith_cases h hp hr with hran | herror | ⟨_, _, _, _, _, _, -, -, -, -, -, hn, -⟩
    · exact .inl hran
    · exact .inr herror
    · cases hn
  | succ retries ih =>
    rcases runJobWith_cases h hp hr with
      hran | herror | ⟨n, lost, w, handle₁, f₁, host₁, hlost, hcall, hlang, hw, h₁, hn, hr⟩
    · exact .inl hran
    · exact .inr herror
    · cases hn
      have ht₁ : t₁ = t := by
        cases hp with
        | call => rfl
        | callback hk =>
          rw [hcall] at hk
          cases hk
      subst ht₁
      rw [hcall]
      have hagain := ih h₁ (.call hlost) hr
      rw [hlost, hlang] at hagain
      rcases hw with rfl | ⟨key, rfl⟩
      · rw [List.append_nil] at hagain
        exact hagain
      · rcases hagain with ⟨v, hran, hv⟩ | ⟨d, rfl, hv⟩
        · refine .inl ⟨_, hran.after_lost key, ?_⟩
          rw [List.append_assoc] at hv
          exact hv
        · exact .inl ⟨_, .unheard (.inr ⟨key, .last rfl⟩), hv⟩

end RunJob

end Guest
end Ditlang
