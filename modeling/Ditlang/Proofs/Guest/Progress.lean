import Ditlang.Guest.Fleet
import Ditlang.Proofs.Guest.Course

/-!
# Ditlang.Proofs.Guest.Progress

A job on its way from its submission to its answer. It goes through three stages (`Progress`): it
waits for a worker of its Lang, or a worker has it, or it is answered. What the daemon learns in the
meantime keeps to these stages (`Progress.notice`), with a transcript that has at most a line and its
reply more than at the start.
-/

namespace Ditlang
namespace Guest

def Event.key : Event → Nat
  | .connected key _ | .message key _ | .malformed key _ | .closed key => key

/-- Only a connection that has announced nothing yet announces a Lang. -/
def Event.Due (s : Loop) : Event → Prop
  | .connected key _ => key ∈ s.readers ∧ s.connections.lookup key = none
  | _ => True

/-! ## The daemon takes an event -/

namespace Loop

variable {s : Loop} {p : Pending} {e : Event}

theorem activeFor_of_pending (h : s.pending = none) (key : Nat) : s.activeFor key = false := by
  simp [activeFor, h]

theorem activeFor_of_inactive (h : s.pending = some p) (hp : p.job.active = false) (key : Nat) :
    s.activeFor key = false := by
  unfold activeFor
  rw [h]
  split
  · rename_i q lang hq _
    cases hq
    rw [hp, Bool.false_and]
  · rfl

theorem registered_handle (hr : s.Registered) (he : e.Due s) : (s.handle e).Registered := by
  refine hr.handle ?_
  cases e with
  | connected key lang => exact he.2
  | message | malformed | closed => exact he

theorem onward_handle (he : e.Due s) : s.Onward (s.handle e) := by
  cases e with
  | connected key lang => exact onward_connected he.1 he.2
  | message key m => exact .of_links (links_onMessage s key m)
  | malformed key line =>
    simp only [handle]
    split
    · exact .of_links (links_crash s _)
    · exact .of_links rfl
  | closed key => exact (onward_drop s key).congr (links_onClosed s key)

/-- What comes from a connection that does not have the job leaves the job alone. -/
theorem handle_of_inactive (hn : s.activeFor e.key = false) :
    (s.handle e).pending = s.pending ∧ (s.handle e).replies = s.replies := by
  cases e with
  | connected key lang =>
    simp only [handle]
    split
    · exact ⟨rfl, rfl⟩
    · exact ⟨rfl, rfl⟩
  | message key m =>
    rw [Event.key] at hn
    simp [handle, onMessage, hn]
  | malformed key line =>
    rw [Event.key] at hn
    simp [handle, hn]
  | closed key =>
    rw [Event.key] at hn
    simp only [handle, onClosed]
    split
    · exact ⟨rfl, rfl⟩
    · simp [hn, drop]

theorem taken?_of_inactive (hn : s.activeFor e.key = false) : s.taken? e = none := by
  unfold taken?
  split
  · rename_i key kind _ hr
    have hkey : key = e.key := by
      cases e with
      | message key m => cases m <;> cases hr <;> rfl
      | malformed key line => cases hr; rfl
      | connected | closed => cases hr
    rw [hkey, hn, if_neg Bool.false_ne_true]
  · rfl

theorem mem_connections_handle {key : Nat} {lang : String} (hm : (key, lang) ∈ s.connections)
    (he : e.Due s) (hne : e.key ≠ key) : (key, lang) ∈ (s.handle e).connections := by
  cases e with
  | connected k l =>
    simp only [handle]
    split
    · exact hm
    · rw [register_of_lookup he.2]
      exact List.mem_append_left _ hm
  | message k m =>
    have := (onMessage_cases s k m).1
    rw [handle, this]
    exact hm
  | malformed k line =>
    simp only [handle]
    split
    · rwa [connections_crash]
    · exact hm
  | closed k =>
    have hlinks := links_onClosed s k
    simp only [links, Prod.mk.injEq] at hlinks
    rw [handle, hlinks.1]
    have hne' : key ≠ k := Ne.symm hne
    exact List.mem_filter.2 ⟨hm, by simpa using hne'⟩

theorem pending_onClosed {key : Nat} (h : s.activeFor key = true) :
    (s.onClosed key).pending = none := by
  unfold onClosed
  split
  · rename_i hk
    unfold activeFor at h
    rw [hk] at h
    split at h
    · rename_i _ _ _ hx
      cases hx
    · cases h
  · simp only [h, Bool.true_and, if_true]
    split
    · exact pending_lose _
    · exact pending_crash _ _

theorem settle_eq (h : s.pending = some p) (kind : JobKind) (result : Json) :
    s.settle kind result = { s with
      pending := none, replies := s.replies ++ [(p.ticket, .done (p.job.settle kind result))] } := by
  simp [settle, modifyPending, complete, h, reply]

theorem lose_eq (h : s.pending = some p) : s.lose = { s with
    pending := none, replies := s.replies ++ [(p.ticket, .lost { p.job with active := false })] } := by
  simp [lose, h, reply]

theorem outgoing?_of_pending (h : s.pending = none) : s.outgoing? = none := by
  simp [outgoing?, h]

theorem outgoing?_of_active (h : s.pending = some p) (hp : p.job.active = true) :
    s.outgoing? = none := by
  simp [outgoing?, h, hp]

/-- A job that does not go out although no worker has it has no connection to go to. -/
theorem notMem_of_outgoing? (h : s.pending = some p) (hp : p.job.active = false)
    (hline : p.job.kind.isLine) (ho : s.outgoing? = none) (key : Nat) :
    (key, p.job.lang) ∉ s.connections := by
  intro hm
  have hkind : (p.job.kind == .callFunc || p.job.kind == .ditlangCallback) = true := by
    revert hline
    cases p.job.kind <;> decide
  rw [outgoing?, h] at ho
  simp only [Option.bind_eq_bind, Option.bind_some, hp, hkind, Bool.not_true, Bool.or_self,
    Bool.false_eq_true, if_false] at ho
  cases hf : s.connections.find? (·.2 == p.job.lang) with
  | none => simpa using List.find?_eq_none.1 hf _ hm
  | some c => simp [hf] at ho

end Loop

/-! ## The stages of a submission -/

/-- The transcript when a job is about to be submitted: a call comes at any time, the value of a
fragment comes when the fragment was evaluated. -/
inductive Prompted (t : Transcript) (job : Job) : Transcript → Prop where
  | call : job.kind = .callFunc → Prompted t job t
  | callback {y : Said} {rest : List Said} : job.kind = .ditlangCallback →
      t.requests = y :: rest → y.lang = job.lang → Prompted t job (t ++ [.evaluated y])

/-- The answer to a job, with what is said until then. -/
inductive Attempt (job : Job) : Answer → Transcript → Prop where
  | replied {j : Job} {key : Nat} {kind : JobKind} : j.kind = kind → j.lang = job.lang →
      j.crashed = (kind == .crash) → kind.isReply →
      Attempt job (.done j)
        [.said ⟨key, job.lang, job.kind⟩, .said ⟨key, job.lang, kind⟩]
  | unheard {j : Job} {w : Transcript} : j.crashed = true →
      (w = [] ∨ ∃ key, w = [.said ⟨key, job.lang, job.kind⟩]) → Attempt job (.done j) w
  | lost {j : Job} {w : Transcript} : j.kind = job.kind → j.lang = job.lang →
      (w = [] ∨ ∃ key, w = [.said ⟨key, job.lang, job.kind⟩]) → Attempt job (.lost j) w

namespace Prompted

variable {s : Loop} {t t₁ : Transcript} {job : Job}

theorem isLine (hp : Prompted t job t₁) : job.kind.isLine := by
  cases hp with
  | call hk => rw [hk]; rfl
  | callback hk => rw [hk]; rfl

theorem write (hp : Prompted t job t₁) (h : Course s t) {key : Nat}
    (hc : (key, job.lang) ∈ s.connections) (hidle : (lastOn key t.talk).any JobKind.isLine = false) :
    Course s (t₁ ++ [.said ⟨key, job.lang, job.kind⟩]) := by
  cases hp with
  | call hk =>
    rw [hk]
    exact h.call hc hidle
  | callback hk hreq hlang =>
    rw [hk, ← hlang]
    rw [← hlang] at hc
    exact h.callback hreq hc hidle

theorem skip (hp : Prompted t job t₁) (h : Course s t)
    (hc : ∀ key, (key, job.lang) ∉ s.connections) : Course s t₁ := by
  cases hp with
  | call hk => exact h
  | @callback y _ hk hreq hlang =>
    refine h.release hreq fun hopen => ?_
    have hy : y ∈ t.talk := (Transcript.mem_talk_of_mem_requests (hreq ▸ List.mem_cons_self)).1
    exact hc y.key (hlang ▸ h.langs y hy hopen)

theorem talk_eq (hp : Prompted t job t₁) : t₁.talk = t.talk := by
  cases hp with
  | call hk => rfl
  | callback => exact Transcript.talk_concat_evaluated

end Prompted

namespace Fleet

/-- The fleet has come to its state with what the transcript says, and on no connection, but for the
one that is busy, a line waits for its reply. -/
structure Tells (f : Fleet) (t : Transcript) (busy : Option Nat) : Prop where
  course : Course f.loop t
  talk : f.talk = t.talk
  idle : ∀ k, f.loop.Open k → busy ≠ some k → (lastOn k t.talk).any JobKind.isLine = false

/-- The fleet between two submissions. -/
structure Rests (f : Fleet) (t : Transcript) : Prop extends f.Tells t none where
  pending : f.loop.pending = none
  tickets : ∀ r ∈ f.loop.replies, r.1 < f.tickets

/-- The last submission has no answer yet. -/
structure Unanswered (f : Fleet) (ticket : Nat) : Prop where
  tickets : f.tickets = ticket + 1
  replies : ∀ r ∈ f.loop.replies, r.1 < ticket

variable {f g : Fleet} {t t₁ : Transcript} {busy : Option Nat} {job : Job} {ticket : Nat}
  {p : Pending} {e : Event}

theorem Unanswered.congr (h : f.Unanswered ticket) (hr : g.loop.replies = f.loop.replies)
    (ht : g.tickets = f.tickets) : g.Unanswered ticket := by
  refine ⟨ht.trans h.tickets, ?_⟩
  rw [hr]
  exact h.replies

theorem Unanswered.answer? (h : f.Unanswered ticket) : f.answer? ticket = none := by
  refine List.lookup_eq_none_iff.2 fun r hr => ?_
  have := h.replies r hr
  simp
  omega

namespace Tells

theorem onward (h : f.Tells t busy) (ho : f.loop.Onward g.loop) (hr : g.loop.Registered)
    (htalk : g.talk = f.talk) : g.Tells t busy where
  course := h.course.onward ho hr
  talk := htalk.trans h.talk
  idle k hk hbusy := by
    cases hlast : lastOn k t.talk with
    | none => rfl
    | some kind =>
      obtain ⟨x, hx, rfl⟩ := exists_mem_of_lastOn hlast
      rw [← hlast]
      exact h.idle _ (h.course.open_of_onward ho hx hk) hbusy

theorem handle (h : f.Tells t busy) (he : e.Due f.loop) (hloop : g.loop = f.loop.handle e)
    (htalk : g.talk = f.talk) : g.Tells t busy := by
  refine h.onward ?_ ?_ htalk
  · rw [hloop]
    exact Loop.onward_handle he
  · rw [hloop]
    exact Loop.registered_handle h.course.registered he

theorem skip (h : f.Tells t busy) (hp : Prompted t job t₁)
    (hc : ∀ key, (key, job.lang) ∉ f.loop.connections) : f.Tells t₁ busy where
  course := hp.skip h.course hc
  talk := h.talk.trans hp.talk_eq.symm
  idle := by
    rw [hp.talk_eq]
    exact h.idle

theorem release {key : Nat} (h : f.Tells t (some key)) (hc : ¬ f.loop.Open key) :
    f.Tells t none where
  course := h.course
  talk := h.talk
  idle k hk _ := by
    refine h.idle k hk fun he => hc ?_
    cases he
    exact hk

end Tells

/-- The job is pending, and no worker has it. -/
structure Ready (t : Transcript) (job : Job) (ticket : Nat) (p : Pending) (f : Fleet) : Prop where
  pending : f.loop.pending = some p
  job_eq : p.job = job
  ticket_eq : p.ticket = ticket
  unanswered : f.Unanswered ticket
  tells : f.Tells t none

/-- The job was written to the connection `key`. -/
structure Busy (t₁ : Transcript) (job : Job) (ticket : Nat) (p : Pending) (key : Nat)
    (f : Fleet) : Prop where
  pending : f.loop.pending = some p
  job_eq : p.job = { job with active := true }
  ticket_eq : p.ticket = ticket
  unanswered : f.Unanswered ticket
  connected : (key, job.lang) ∈ f.loop.connections
  tells : f.Tells (t₁ ++ [.said ⟨key, job.lang, job.kind⟩]) (some key)

/-- A job on its way from its submission, with the transcript `t`, to its answer. -/
inductive Progress (t t₁ : Transcript) (job : Job) (ticket : Nat) (f : Fleet) : Prop where
  | waiting {p : Pending} : f.Ready t job ticket p →
      (∀ key, (key, job.lang) ∉ f.loop.connections) → Progress t t₁ job ticket f
  | active {p : Pending} {key : Nat} : f.Busy t₁ job ticket p key → Progress t t₁ job ticket f
  | answered {a : Answer} {w : Transcript} : f.answer? ticket = some a → Attempt job a w →
      f.Rests (t₁ ++ w) → Progress t t₁ job ticket f

theorem progress_answer (h : f.Unanswered ticket) {a : Answer} {w : Transcript}
    (hr : g.loop.replies = f.loop.replies ++ [(ticket, a)]) (htickets : g.tickets = f.tickets)
    (hpending : g.loop.pending = none) (hattempt : Attempt job a w) (htells : g.Tells (t₁ ++ w) none) :
    Progress t t₁ job ticket g := by
  refine .answered (a := a) ?_ hattempt ⟨htells, hpending, ?_⟩
  · have hnone := h.answer?
    rw [answer?] at hnone ⊢
    rw [hr, List.lookup_append, hnone]
    simp
  · intro r hm
    rw [htickets, h.tickets]
    rw [hr] at hm
    rcases List.mem_append.1 hm with hm | hm
    · exact Nat.lt_succ_of_lt (h.replies r hm)
    · rw [List.mem_singleton.1 hm]
      exact Nat.lt_succ_self _

/-! ## The job is written -/

theorem dispatch_of_outgoing? (h : f.loop.outgoing? = none) : f.dispatch = f := by
  simp [dispatch, h]

/-- A job that cannot be written is lost, or has crashed. -/
theorem progress_unwritten (hp : Prompted t job t₁) (h : f.Ready t job ticket p) {key : Nat}
    (ho : f.loop.outgoing? = some (key, job)) (hc : (key, job.lang) ∈ f.loop.connections)
    (reason : String) :
    Progress t t₁ job ticket { f with loop := f.loop.unwritten key job reason } := by
  obtain ⟨hpending, rfl, rfl, hu, htells⟩ := h
  have hr := htells.course.registered
  have hreg : (f.loop.unwritten key p.job reason).Registered := by
    have := hr.dispatch fun _ _ => some reason
    rwa [Loop.dispatch, ho] at this
  have hlinks := Loop.links_unwritten f.loop key p.job reason
  have hon := (Loop.onward_drop f.loop key).congr hlinks
  have htells' : Tells { f with loop := f.loop.unwritten key p.job reason } (t₁ ++ []) none := by
    rw [List.append_nil]
    refine Tells.skip (htells.onward hon hreg rfl) hp ?_
    intro k hm
    simp only [Loop.links, Prod.mk.injEq] at hlinks
    rw [hlinks.1] at hm
    exact hr.lang_notMem_drop (Loop.lookup_of_mem hr.keys hc) (List.mem_map_of_mem hm)
  have hdrop : (f.loop.drop key).pending = some p := hpending
  by_cases hk : p.job.kind = .callFunc
  · have hlost : f.loop.unwritten key p.job reason = (f.loop.drop key).lose := if_pos hk
    refine progress_answer hu (a := .lost { p.job with active := false }) ?_ rfl (by simp)
      (.lost rfl rfl (.inl rfl)) htells'
    rw [hlost, Loop.lose_eq hdrop]
    rfl
  · have hcrash : f.loop.unwritten key p.job reason = (f.loop.drop key).crash _ := if_neg hk
    refine progress_answer hu
      (a := .done (p.job.settle .crash
        (.str ("Could not reach the " ++ p.job.lang ++ " worker: " ++ reason))))
      ?_ rfl (by simp) (.unheard rfl (.inl rfl)) htells'
    rw [hcrash, Loop.crash, Loop.settle_eq hdrop]
    rfl

/-- A job that no worker has is written, if its worker is connected. -/
theorem progress_dispatch (hp : Prompted t job t₁) (hidle : job.active = false)
    (h : f.Ready t job ticket p) : Progress t t₁ job ticket f.dispatch := by
  unfold dispatch
  split
  · rename_i ho
    refine .waiting h ?_
    rw [← h.job_eq] at hidle hp ⊢
    exact Loop.notMem_of_outgoing? h.pending hidle hp.isLine ho
  · rename_i key job' ho
    obtain ⟨q, hq, rfl, -, hc⟩ := Loop.outgoing_spec ho
    cases h.pending.symm.trans hq
    rw [h.job_eq] at ho hc ⊢
    split
    · have hlast := h.tells.idle key (Loop.open_of_mem hc) (by simp)
      refine .active (p := { p with job := { p.job with active := true }, heard := false })
        ⟨?_, by rw [h.job_eq], h.ticket_eq, h.unanswered.congr rfl rfl, hc, ?_, ?_, ?_⟩
      · simp [Loop.written, Loop.modifyPending, h.pending]
      · exact (hp.write h.tells.course hc hlast).onward (.of_links rfl)
          (h.tells.course.registered.congr rfl fun _ hm => hm)
      · rw [Transcript.talk_concat_said, hp.talk_eq]
        exact congrArg (· ++ _) h.tells.talk
      · intro k hk hne
        have hne' : key ≠ k := fun he => hne (congrArg some he)
        rw [Transcript.talk_concat_said, hp.talk_eq,
          lastOn_concat_of_ne (x := ⟨key, job.lang, job.kind⟩) hne']
        exact h.tells.idle k hk (by simp)
    · exact progress_unwritten hp h ho hc _

/-! ## The worker that has the job -/

namespace Busy

variable {key : Nat}

theorem active (h : f.Busy t₁ job ticket p key) : p.job.active = true := by
  rw [h.job_eq]

theorem activeFor_iff (h : f.Busy t₁ job ticket p key) {k : Nat} :
    f.loop.activeFor k = true ↔ k = key := by
  have hr := h.tells.course.registered
  have hlang : p.job.lang = job.lang := by rw [h.job_eq]
  rw [Loop.activeFor_iff hr]
  constructor
  · rintro ⟨q, hq, -, hc⟩
    cases h.pending.symm.trans hq
    exact hr.key_unique (hlang ▸ hc) h.connected
  · rintro rfl
    exact ⟨p, h.pending, h.active, hlang ▸ h.connected⟩

theorem reply (h : f.Busy t₁ job ticket p key) (hline : job.kind.isLine) {kind : JobKind}
    (hkind : kind.isReply) (result : Json) :
    Progress t t₁ job ticket { f with
      loop := f.loop.settle kind result, talk := f.talk ++ [⟨key, job.lang, kind⟩] } := by
  have hbusy : (lastOn key (Transcript.talk (t₁ ++ [.said ⟨key, job.lang, job.kind⟩]))).any
      JobKind.isLine := by
    rw [Transcript.talk_concat_said, lastOn_concat_self (x := ⟨key, job.lang, job.kind⟩)]
    exact hline
  have hlinks := Loop.links_settle f.loop kind result
  have happ : t₁ ++ [.said ⟨key, job.lang, job.kind⟩, .said ⟨key, job.lang, kind⟩] =
      t₁ ++ [.said ⟨key, job.lang, job.kind⟩] ++ [.said ⟨key, job.lang, kind⟩] := by simp
  refine progress_answer h.unanswered (a := .done (p.job.settle kind result))
    (w := [.said ⟨key, job.lang, job.kind⟩, .said ⟨key, job.lang, kind⟩]) ?_ rfl (by simp)
    (.replied rfl (by rw [h.job_eq]; rfl) rfl hkind) ?_
  · rw [Loop.settle_eq h.pending, h.ticket_eq]
  · rw [happ]
    refine ⟨(h.tells.course.reply h.connected hbusy hkind).onward (.of_links hlinks) ?_, ?_, ?_⟩
    · exact h.tells.course.registered.congr (Loop.connections_settle _ _ _) fun _ hm => by
        simpa using hm
    · rw [Transcript.talk_concat_said]
      exact congrArg (· ++ _) h.tells.talk
    · intro k hk _
      rw [Transcript.talk_concat_said]
      by_cases hne : key = k
      · subst hne
        rw [lastOn_concat_self (x := ⟨key, job.lang, kind⟩)]
        cases kind with
        | exeDitlang | finishFunc | crash => rfl
        | callFunc | ditlangCallback | heart => cases hkind
      · rw [lastOn_concat_of_ne (x := ⟨key, job.lang, kind⟩) hne]
        exact h.tells.idle k ((Loop.open_congr hlinks).1 hk) (by simpa using hne)

theorem closed (h : f.Busy t₁ job ticket p key) :
    Progress t t₁ job ticket { f with loop := f.loop.onClosed key } := by
  have hr := h.tells.course.registered
  have hactive := h.activeFor_iff.2 rfl
  have hlinks := Loop.links_onClosed f.loop key
  have hon := (Loop.onward_drop f.loop key).congr hlinks
  have htells : Tells { f with loop := f.loop.onClosed key }
      (t₁ ++ [.said ⟨key, job.lang, job.kind⟩]) none := by
    refine Tells.release (h.tells.onward hon (hr.onClosed key) rfl) ?_
    intro hopen
    exact (Loop.open_drop.1 ((Loop.open_congr hlinks).1 hopen)).2 rfl
  have hdrop : (f.loop.drop key).pending = some p := h.pending
  have hlookup := Loop.lookup_of_mem hr.keys h.connected
  cases hcall : f.loop.unansweredCall with
  | true =>
    have hclosed : f.loop.onClosed key = (f.loop.drop key).lose := by
      simp [Loop.onClosed, hlookup, hactive, hcall]
    refine progress_answer h.unanswered (a := .lost { p.job with active := false }) ?_ rfl
      (Loop.pending_onClosed hactive)
      (.lost (by rw [h.job_eq]) (by rw [h.job_eq]) (.inr ⟨key, rfl⟩)) htells
    rw [hclosed, Loop.lose_eq hdrop, h.ticket_eq]
    rfl
  | false =>
    refine progress_answer h.unanswered
      (a := .done (p.job.settle .crash (.str (job.lang ++ " worker disconnected during the call"))))
      ?_ rfl (Loop.pending_onClosed hactive) (.unheard rfl (.inr ⟨key, rfl⟩)) htells
    simp only [Loop.onClosed, hlookup, hactive, hcall, Bool.and_false, Bool.false_eq_true, if_false,
      if_true, Loop.crash]
    rw [Loop.settle_eq hdrop, h.ticket_eq]
    rfl

/-- What it says is a reply, or only shows that it is alive. -/
theorem notice (h : f.Busy t₁ job ticket p key) (hline : job.kind.isLine) (he : e.Due f.loop)
    (hkey : e.key = key) : Progress t t₁ job ticket (f.notice e) := by
  subst hkey
  have hn := h.activeFor_iff.2 rfl
  have hsettled : ∀ kind result, kind.isReply → e.reply? = some (e.key, kind) →
      f.loop.handle e = f.loop.settle kind result → Progress t t₁ job ticket (f.notice e) := by
    intro kind result hkind hreply hloop
    have htaken : f.loop.taken? e = some ⟨e.key, job.lang, kind⟩ := by
      simp [Loop.taken?, h.pending, hreply, hn, h.job_eq]
    rw [Fleet.notice, hloop, htaken,
      dispatch_of_outgoing? (Loop.outgoing?_of_pending (Loop.pending_settle _ _ _))]
    exact h.reply hline hkind result
  -- nothing is taken from an event without a reply
  have hsilent : e.reply? = none →
      f.notice e = ({ f with loop := f.loop.handle e } : Fleet).dispatch := by
    intro hreply
    simp [Fleet.notice, Loop.taken?, h.pending, hreply]
  cases e with
  | connected key lang =>
    have := Loop.lookup_of_mem h.tells.course.registered.keys h.connected
    rw [Event.key, he.2] at this
    cases this
  | malformed key line => exact hsettled .crash _ rfl rfl (if_pos hn)
  | closed key =>
    rw [hsilent rfl, dispatch_of_outgoing? (Loop.outgoing?_of_pending (Loop.pending_onClosed hn))]
    exact h.closed
  | message key m =>
    cases m with
    | crash result => exact hsettled .crash result rfl rfl (if_pos hn)
    | exeDitlang result => exact hsettled .exeDitlang result rfl rfl (if_pos hn)
    | finishFunc result => exact hsettled .finishFunc result rfl rfl (if_pos hn)
    | connect lang =>
      have hsame : f.loop.handle (.message key (.connect lang)) = f.loop := if_pos hn
      rw [hsilent rfl, hsame, dispatch_of_outgoing? (Loop.outgoing?_of_active h.pending h.active)]
      exact .active h
    | heart =>
      have hheard : f.loop.handle (.message key .heart) =
          f.loop.modifyPending fun p => { p with heard := true } := if_pos hn
      have hpending : (f.loop.handle (.message key .heart)).pending =
          some { p with heard := true } := by
        rw [hheard, Loop.modifyPending, h.pending]
        rfl
      rw [hsilent rfl, dispatch_of_outgoing?
        (Loop.outgoing?_of_active (p := { p with heard := true }) hpending h.active)]
      refine .active ⟨hpending, h.job_eq, h.ticket_eq, h.unanswered.congr ?_ rfl, ?_,
        h.tells.handle he rfl rfl⟩
      · rw [hheard]
        rfl
      · rw [hheard]
        exact h.connected

end Busy

/-! ## The daemon takes an event -/

theorem Rests.congr (h : f.Rests t) (htells : g.Tells t none)
    (hpending : g.loop.pending = f.loop.pending) (hr : g.loop.replies = f.loop.replies)
    (ht : g.tickets = f.tickets) : g.Rests t := by
  refine ⟨htells, hpending.trans h.pending, ?_⟩
  rw [hr, ht]
  exact h.tickets

/-- What does not come from the worker that has the job only changes the connections. -/
theorem notice_of_inactive (hn : f.loop.activeFor e.key = false) :
    f.notice e = ({ f with loop := f.loop.handle e } : Fleet).dispatch := by
  rw [Fleet.notice, Loop.taken?_of_inactive hn, Option.toList_none, List.append_nil]

theorem Rests.notice (h : f.Rests t) (he : e.Due f.loop) :
    (f.notice e).Rests t ∧ (f.notice e).loop.replies = f.loop.replies := by
  have hn := Loop.activeFor_of_pending h.pending e.key
  obtain ⟨hsame, hreplies⟩ := Loop.handle_of_inactive hn
  rw [notice_of_inactive hn,
    dispatch_of_outgoing? (Loop.outgoing?_of_pending (hsame.trans h.pending))]
  exact ⟨h.congr (h.toTells.handle he rfl rfl) hsame hreplies rfl, hreplies⟩

theorem Progress.notice (hp : Prompted t job t₁) (hidle : job.active = false)
    (h : Progress t t₁ job ticket f) (he : e.Due f.loop) :
    Progress t t₁ job ticket (f.notice e) := by
  cases h with
  | @waiting p h _ =>
    have hn := Loop.activeFor_of_inactive h.pending (h.job_eq ▸ hidle) e.key
    obtain ⟨hsame, hreplies⟩ := Loop.handle_of_inactive hn
    rw [notice_of_inactive hn]
    exact progress_dispatch hp hidle ⟨hsame.trans h.pending, h.job_eq, h.ticket_eq,
      h.unanswered.congr hreplies rfl, h.tells.handle he rfl rfl⟩
  | @active p key h =>
    by_cases hkey : e.key = key
    · exact h.notice hp.isLine he hkey
    · have hn : f.loop.activeFor e.key = false := by
        rw [← Bool.not_eq_true, h.activeFor_iff]
        exact hkey
      obtain ⟨hsame, hreplies⟩ := Loop.handle_of_inactive hn
      rw [notice_of_inactive hn,
        dispatch_of_outgoing? (Loop.outgoing?_of_active (hsame.trans h.pending) h.active)]
      exact .active ⟨hsame.trans h.pending, h.job_eq, h.ticket_eq, h.unanswered.congr hreplies rfl,
        Loop.mem_connections_handle h.connected he hkey, h.tells.handle he rfl rfl⟩
  | answered ha hattempt h =>
    obtain ⟨hrests, hreplies⟩ := h.notice he
    refine .answered ?_ hattempt hrests
    rw [answer?] at ha ⊢
    rw [hreplies]
    exact ha

end Fleet
end Guest
end Ditlang
