import Ditlang.Proofs.Guest.Progress

/-!
# Ditlang.Proofs.Guest.Owed

The pending job from its submission to its answer, whatever the daemon takes in the meantime.
Whether an event, a write or the report of an exit, each of them is a `Turn`: the daemon goes on
with the job or answers it, and an answer is for the function of its job. So the job that is pending
is always the one that is due, and the answer under its ticket is an answer to it (`Owes.turn`,
`Owes.answered`).
-/

namespace Ditlang
namespace Guest

/-- One job is for the same guest function as another. -/
def Job.Alike (j job : Job) : Prop :=
  j.lang = job.lang ∧ j.func = job.func ∧ j.path = job.path

/-- What an answer keeps of its job. -/
inductive Answer.Fits (job : Job) : Answer → Prop where
  | done {j : Job} : j.Alike job → Fits job (.done j)
  | lost : Fits job (.lost { job with active := false })

/-- The connection that an event enters, with its Lang. -/
def Event.announces? : Event → Option (Nat × String)
  | .connected key lang => some (key, lang)
  | _ => none

namespace Loop

variable {s t : Loop} {p : Pending} {due : Option (Job × Nat)} {n : Nat}

/-- What the daemon does with the pending job: it goes on with it, or answers it. -/
inductive Turn (s t : Loop) : Prop where
  | keeps : t.replies = s.replies →
      (∀ q, t.pending = some q → ∃ p, s.pending = some p ∧ q.ticket = p.ticket ∧
        (q.job = p.job ∨ q.job = { p.job with active := true })) → Turn s t
  | answers {p : Pending} {a : Answer} : s.pending = some p → t.pending = none →
      t.replies = s.replies ++ [(p.ticket, a)] → a.Fits p.job → Turn s t

/-- The pending job is the one that is due, and the answers are those to it and to earlier ones. -/
structure Owes (due : Option (Job × Nat)) (n : Nat) (s : Loop) : Prop where
  pending : ∀ p, s.pending = some p → ∃ job, due = some (job, p.ticket) ∧
    (p.job = job ∨ p.job = { job with active := true })
  unanswered : ∀ p, s.pending = some p → p.ticket < n ∧ ∀ r ∈ s.replies, r.1 < p.ticket
  replies : ∀ r ∈ s.replies, r.1 < n
  fits : ∀ job ticket a, due = some (job, ticket) → (ticket, a) ∈ s.replies → a.Fits job

theorem Turn.refl (s : Loop) : Turn s s :=
  .keeps rfl fun q hq => ⟨q, hq, rfl, .inl rfl⟩

theorem Turn.congr {t' : Loop} (h : Turn s t) (hp : t'.pending = t.pending)
    (hr : t'.replies = t.replies) : Turn s t' := by
  cases h with
  | keeps hreplies hpending => exact .keeps (hr.trans hreplies) fun q hq => hpending q (hp ▸ hq)
  | answers hs ht hreplies hfits => exact .answers hs (hp.trans ht) (hr.trans hreplies) hfits

/-- A job that a worker has is not taken away from it before it is answered. -/
theorem Turn.active (h : Turn s t) (hs : ∀ p, s.pending = some p → p.job.active = true) :
    ∀ q, t.pending = some q → q.job.active = true := by
  intro q hq
  cases h with
  | keeps _ hpending =>
    obtain ⟨p, hp, -, hjob⟩ := hpending q hq
    rcases hjob with hjob | hjob
    · rw [hjob]
      exact hs p hp
    · rw [hjob]
  | answers _ hnone =>
    rw [hnone] at hq
    cases hq

theorem turn_settle (h : s.pending = some p) (kind : JobKind) (result : Json) :
    Turn s (s.settle kind result) := by
  rw [settle_eq h]
  exact .answers h rfl rfl (.done ⟨rfl, rfl, rfl⟩)

theorem turn_crash (h : s.pending = some p) (text : String) : Turn s (s.crash text) :=
  turn_settle h _ _

theorem turn_lose (h : s.pending = some p) : Turn s s.lose := by
  rw [lose_eq h]
  exact .answers h rfl rfl .lost

theorem turn_drop_lose (h : s.pending = some p) (key : Nat) : Turn s (s.drop key).lose := by
  have hd : (s.drop key).pending = some p := h
  rw [lose_eq hd]
  exact .answers h rfl rfl .lost

theorem turn_drop_crash (h : s.pending = some p) (key : Nat) (text : String) :
    Turn s ((s.drop key).crash text) := by
  have hd : (s.drop key).pending = some p := h
  rw [crash, settle_eq hd]
  exact .answers h rfl rfl (.done ⟨rfl, rfl, rfl⟩)

theorem turn_modifyPending {f : Pending → Pending} (hf : ∀ p, (f p).ticket = p.ticket ∧
    ((f p).job = p.job ∨ (f p).job = { p.job with active := true })) :
    Turn s (s.modifyPending f) := by
  refine .keeps rfl fun q hq => ?_
  obtain ⟨p, hp, rfl⟩ := Option.map_eq_some_iff.1 hq
  exact ⟨p, hp, hf p⟩

theorem turn_written (s : Loop) : Turn s s.written :=
  turn_modifyPending fun _ => ⟨rfl, .inr rfl⟩

theorem turn_unwritten (h : s.pending = some p) (key : Nat) (job : Job) (reason : String) :
    Turn s (s.unwritten key job reason) := by
  unfold unwritten
  dsimp only
  split
  · exact turn_drop_lose h key
  · exact turn_drop_crash h key _

theorem turn_handle (s : Loop) (e : Event) : Turn s (s.handle e) := by
  cases hn : s.activeFor e.key with
  | false =>
    obtain ⟨hp, hr⟩ := handle_of_inactive hn
    exact (Turn.refl s).congr hp hr
  | true =>
    have hactive := hn
    unfold activeFor at hactive
    split at hactive
    · rename_i p lang hp hlang
      cases e with
      | connected key l =>
        simp only [handle]
        split
        · exact (Turn.refl s).congr rfl rfl
        · exact (Turn.refl s).congr rfl rfl
      | message key m =>
        rw [Event.key] at hn
        simp only [handle, onMessage, hn, if_true]
        cases m with
        | connect l => exact .refl s
        | heart => exact turn_modifyPending fun _ => ⟨rfl, .inl rfl⟩
        | crash result => exact turn_settle hp _ _
        | exeDitlang result => exact turn_settle hp _ _
        | finishFunc result => exact turn_settle hp _ _
      | malformed key line =>
        rw [Event.key] at hn
        simp only [handle, hn, if_true]
        exact turn_crash hp _
      | closed key =>
        rw [Event.key] at hn hlang
        simp only [handle, onClosed, hlang, hn, Bool.true_and, if_true]
        split
        · exact turn_drop_lose hp key
        · exact (turn_drop_crash hp key _).congr rfl rfl
    · cases hactive

theorem turn_workerExited (s : Loop) (lang : String) : Turn s (s.workerExited lang) := by
  unfold workerExited
  split
  · rename_i p hp
    split
    · exact turn_crash hp _
    · exact .refl s
  · exact .refl s

theorem Owes.turn (h : s.Owes due n) (ht : Turn s t) : t.Owes due n := by
  cases ht with
  | keeps hreplies hpending =>
    refine ⟨fun q hq => ?_, fun q hq => ?_, hreplies ▸ h.replies, hreplies ▸ h.fits⟩
    · obtain ⟨p, hp, hticket, hjob⟩ := hpending q hq
      obtain ⟨job, hdue, hold⟩ := h.pending p hp
      refine ⟨job, hticket ▸ hdue, ?_⟩
      rcases hjob with hjob | hjob
      · exact hjob ▸ hold
      · right
        rcases hold with hold | hold
        · rw [hjob, hold]
        · rw [hjob, hold]
    · obtain ⟨p, hp, hticket, -⟩ := hpending q hq
      rw [hticket, hreplies]
      exact h.unanswered p hp
  | @answers p a hp hnone hreplies hfits =>
    obtain ⟨job, hdue, hjob⟩ := h.pending p hp
    obtain ⟨hbound, hearlier⟩ := h.unanswered p hp
    have hpfits : a.Fits job := by
      rcases hjob with hjob | hjob
      · exact hjob ▸ hfits
      · rw [hjob] at hfits
        cases hfits with
        | done halike => exact .done halike
        | lost => exact .lost
    refine ⟨?_, ?_, ?_, ?_⟩
    · intro q hq
      rw [hnone] at hq
      cases hq
    · intro q hq
      rw [hnone] at hq
      cases hq
    · intro r hr
      rw [hreplies] at hr
      rcases List.mem_append.1 hr with hr | hr
      · exact h.replies r hr
      · rw [List.mem_singleton.1 hr]
        exact hbound
    · intro job' ticket a' hdue' hm
      rw [hreplies] at hm
      rcases List.mem_append.1 hm with hm | hm
      · exact h.fits job' ticket a' hdue' hm
      · cases List.mem_singleton.1 hm
        cases hdue.symm.trans hdue'
        exact hpfits

theorem Owes.pending_eq_none (h : s.Owes none n) : s.pending = none := by
  cases hp : s.pending with
  | none => rfl
  | some p =>
    obtain ⟨job, hdue, -⟩ := h.pending p hp
    cases hdue

theorem Owes.submit (h : s.Owes none n) (job : Job) :
    (s.submit job n).Owes (some (job, n)) (n + 1) := by
  have hearlier : ∀ r ∈ s.replies, r.1 < n + 1 := fun r hr => Nat.lt_succ_of_lt (h.replies r hr)
  have hnew : ∀ a, (n, a) ∉ s.replies := fun a hm => Nat.lt_irrefl _ (h.replies _ hm)
  have hwaiting :
      ({ s with pending := some ⟨job, n, false⟩ } : Loop).Owes (some (job, n)) (n + 1) := by
    refine ⟨?_, ?_, hearlier, ?_⟩
    · rintro p ⟨⟩
      exact ⟨job, rfl, .inl rfl⟩
    · rintro p ⟨⟩
      exact ⟨Nat.lt_succ_self n, h.replies⟩
    · rintro job' ticket a ⟨⟩ hm
      exact absurd hm (hnew a)
  rw [Loop.submit, if_neg (by simp [h.pending_eq_none])]
  dsimp only
  split
  · refine hwaiting.turn ((turn_lose rfl).congr ?_ ?_)
    · rw [pending_lose, pending_lose]
    · rfl
  · exact hwaiting

/-- When the answer is there, nothing is due any more. -/
theorem Owes.answered {job : Job} {ticket : Nat} {a : Answer} (h : s.Owes (some (job, ticket)) n)
    (ha : s.replies.lookup ticket = some a) : a.Fits job ∧ s.Owes none n := by
  have hm : (ticket, a) ∈ s.replies := by
    obtain ⟨l₁, l₂, hl, -⟩ := List.lookup_eq_some_iff.1 ha
    simp [hl]
  have hnone : s.pending = none := by
    cases hp : s.pending with
    | none => rfl
    | some p =>
      obtain ⟨_, hdue, -⟩ := h.pending p hp
      cases hdue
      exact absurd ((h.unanswered p hp).2 _ hm) (Nat.lt_irrefl _)
  refine ⟨h.fits job ticket a rfl hm, ?_, ?_, h.replies, ?_⟩
  · intro p hp
    rw [hnone] at hp
    cases hp
  · intro p hp
    rw [hnone] at hp
    cases hp
  · rintro _ _ _ ⟨⟩

/-! ## Connections that are new -/

theorem connections_of_links (h : t.links = s.links) : t.connections = s.connections :=
  congrArg Prod.fst h

theorem nextKey_of_links (h : t.links = s.links) : t.nextKey = s.nextKey :=
  congrArg (fun l => l.2.2) h

theorem links_workerExited (s : Loop) (lang : String) : (s.workerExited lang).links = s.links := by
  unfold workerExited
  split
  · split
    · exact links_crash _ _
    · rfl
  · rfl

theorem links_submit (s : Loop) (job : Job) (ticket : Nat) :
    (s.submit job ticket).links = s.links := by
  unfold submit
  split
  · rfl
  · dsimp only
    split
    · rw [links_lose]
      rfl
    · rfl

theorem mem_register {key k : Nat} {lang l : String} {cs : List (Nat × String)}
    (h : (k, l) ∈ register key lang cs) : (k, l) = (key, lang) ∨ (k, l) ∈ cs := by
  induction cs with
  | nil => exact .inl (List.mem_singleton.1 h)
  | cons c cs ih =>
    obtain ⟨k', l'⟩ := c
    rw [register] at h
    split at h
    · rcases List.mem_cons.1 h with h | h
      · exact .inl h
      · exact .inr (List.mem_cons_of_mem _ h)
    · rcases List.mem_cons.1 h with h | h
      · exact .inr (h ▸ List.mem_cons_self)
      · exact (ih h).imp id (List.mem_cons_of_mem _)

/-- The only connection that an event adds is the one that announces itself. -/
theorem mem_handle {e : Event} {k : Nat} {l : String} (h : (k, l) ∈ (s.handle e).connections) :
    e.announces? = some (k, l) ∨ (k, l) ∈ s.connections := by
  cases e with
  | connected key lang =>
    simp only [handle] at h
    split at h
    · exact .inr h
    · exact (mem_register h).imp (fun he => by rw [he]; rfl) id
  | message key m => exact .inr (connections_of_links (links_onMessage s key m) ▸ h)
  | malformed key line =>
    simp only [handle] at h
    split at h
    · rw [connections_crash] at h
      exact .inr h
    · exact .inr h
  | closed key =>
    rw [handle, connections_of_links (links_onClosed s key)] at h
    exact .inr (List.mem_filter.1 h).1

theorem nextKey_handle (s : Loop) (e : Event) : (s.handle e).nextKey = s.nextKey := by
  cases e with
  | connected key lang =>
    simp only [handle]
    split <;> rfl
  | message key m => exact nextKey_of_links (links_onMessage s key m)
  | malformed key line =>
    simp only [handle]
    split
    · exact nextKey_of_links (links_crash s _)
    · rfl
  | closed key => exact (nextKey_of_links (links_onClosed s key)).trans rfl

end Loop

end Guest
end Ditlang
