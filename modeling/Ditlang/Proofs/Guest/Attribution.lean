import Ditlang.Proofs.Guest.Answers

/-!
# Ditlang.Proofs.Guest.Attribution

A job is settled only by the worker it was sent to.

The daemon compares the Lang of a message's connection with that of the pending job; it does not
remember the connection to which it wrote. That this comes to the same rests on two facts about
every trace it can go through.

* `Registered`: no two connections have one key or announce one Lang, and no Lang counts as lost
  while it has a connection.
* `Sent`: a job's line is handed over at most once, and the connection that got the line of an
  active job is registered under the Lang of the job.

`job_settled_by_its_worker` puts them together: what any other connection says changes nothing.
-/

namespace Ditlang
namespace Guest

/-- What those who drive the daemon promise: a job comes in before any worker has it, and a
connection that is registered does not announce itself again. -/
def Admissible (s : Loop) : LoopStep → Prop
  | .submit job => job.active = false
  | .event (.connected key _) => s.connections.lookup key = none
  | _ => True

/-- The traces the daemon can go through. -/
inductive Reached : Trace → Prop where
  | start : Reached {}
  | step {t : Trace} {a : LoopStep} : Reached t → Admissible t.loop a → Reached (t.step a)

namespace Loop

/-- Keys and Langs of connections are distinct, and what is connected is not lost. -/
structure Registered (s : Loop) : Prop where
  keys : (s.connections.map Prod.fst).Nodup
  langs : (s.connections.map Prod.snd).Nodup
  lost : ∀ lang ∈ s.lost, lang ∉ s.connections.map Prod.snd

theorem connected_iff {s : Loop} {lang : String} :
    s.connected lang = true ↔ lang ∈ s.connections.map Prod.snd := by
  simp [connected]

theorem lookup_of_mem {cs : List (Nat × String)} (hk : (cs.map Prod.fst).Nodup) {key : Nat}
    {lang : String} (hm : (key, lang) ∈ cs) : cs.lookup key = some lang := by
  induction cs with
  | nil => cases hm
  | cons c cs ih =>
    obtain ⟨k, l⟩ := c
    simp only [List.map_cons, List.nodup_cons] at hk
    rcases List.mem_cons.1 hm with he | hm
    · cases he
      simp
    · have hne : key ≠ k := fun h => hk.1 (h ▸ List.mem_map_of_mem hm)
      rw [List.lookup_cons, beq_eq_false_iff_ne.2 hne]
      exact ih hk.2 hm

theorem mem_of_lookup {cs : List (Nat × String)} {key : Nat} {lang : String}
    (h : cs.lookup key = some lang) : (key, lang) ∈ cs := by
  obtain ⟨l₁, l₂, rfl, -⟩ := List.lookup_eq_some_iff.1 h
  simp

theorem key_notMem_of_lookup {cs : List (Nat × String)} {key : Nat} (h : cs.lookup key = none) :
    key ∉ cs.map Prod.fst := by
  intro hm
  obtain ⟨⟨k, l⟩, hc, rfl⟩ := List.mem_map.1 hm
  exact absurd h (by simpa [List.lookup_eq_none_iff] using ⟨l, hc⟩)

theorem register_of_lookup {cs : List (Nat × String)} {key : Nat} {lang : String}
    (h : cs.lookup key = none) : register key lang cs = cs ++ [(key, lang)] := by
  have hk := key_notMem_of_lookup h
  clear h
  induction cs with
  | nil => rfl
  | cons c cs ih =>
    obtain ⟨k, l⟩ := c
    simp only [List.map_cons, List.mem_cons, not_or] at hk
    rw [register, if_neg (Ne.symm hk.1), ih hk.2]
    rfl

/-- A Lang has one connection. -/
theorem Registered.key_unique {s : Loop} (h : s.Registered) {k k' : Nat} {lang : String}
    (hk : (k, lang) ∈ s.connections) (hk' : (k', lang) ∈ s.connections) : k = k' :=
  congrArg Prod.fst (List.inj_on_of_nodup_map h.langs hk hk' rfl)

/-! ## Settling leaves connections alone and ends the job -/

@[simp] theorem connections_complete (s : Loop) : s.complete.connections = s.connections := by
  unfold complete; split <;> rfl

@[simp] theorem lost_complete (s : Loop) : s.complete.lost = s.lost := by
  unfold complete; split <;> rfl

@[simp] theorem pending_complete (s : Loop) : s.complete.pending = none := by
  unfold complete
  split
  · assumption
  · rfl

@[simp] theorem connections_lose (s : Loop) : s.lose.connections = s.connections := by
  unfold lose; split <;> rfl

@[simp] theorem lost_lose (s : Loop) : s.lose.lost = s.lost := by
  unfold lose; split <;> rfl

@[simp] theorem pending_lose (s : Loop) : s.lose.pending = none := by
  unfold lose
  split
  · assumption
  · rfl

@[simp] theorem connections_settle (s : Loop) (kind : JobKind) (result : Json) :
    (s.settle kind result).connections = s.connections := by
  rw [settle, connections_complete]; rfl

@[simp] theorem lost_settle (s : Loop) (kind : JobKind) (result : Json) :
    (s.settle kind result).lost = s.lost := by
  rw [settle, lost_complete]; rfl

@[simp] theorem pending_settle (s : Loop) (kind : JobKind) (result : Json) :
    (s.settle kind result).pending = none :=
  pending_complete _

@[simp] theorem connections_crash (s : Loop) (text : String) :
    (s.crash text).connections = s.connections := connections_settle s _ _

@[simp] theorem lost_crash (s : Loop) (text : String) : (s.crash text).lost = s.lost :=
  lost_settle s _ _

@[simp] theorem pending_crash (s : Loop) (text : String) : (s.crash text).pending = none :=
  pending_settle s _ _

/-- A message either leaves connections, lost Langs and the job as they are, or ends the job, or is
only heard. -/
theorem onMessage_cases (s : Loop) (key : Nat) (m : WorkerMessage) :
    (s.onMessage key m).connections = s.connections ∧ (s.onMessage key m).lost = s.lost ∧
      ((s.onMessage key m).pending = none ∨ s.onMessage key m = s ∨
        s.onMessage key m = s.modifyPending fun p => { p with heard := true }) := by
  unfold onMessage
  split
  · cases m with
    | connect lang => exact ⟨rfl, rfl, .inr (.inl rfl)⟩
    | heart => exact ⟨rfl, rfl, .inr (.inr rfl)⟩
    | crash result => simp
    | exeDitlang result => simp
    | finishFunc result => simp
  · exact ⟨rfl, rfl, .inr (.inl rfl)⟩

@[simp] theorem pending_unwritten (s : Loop) (key : Nat) (job : Job) (reason : String) :
    (s.unwritten key job reason).pending = none := by
  unfold unwritten
  dsimp only
  split
  · exact pending_lose _
  · exact pending_crash _ _

/-! ## Connections stay distinct -/

theorem Registered.congr {s t : Loop} (h : s.Registered) (hc : t.connections = s.connections)
    (hl : ∀ lang ∈ t.lost, lang ∈ s.lost) : t.Registered := by
  refine ⟨hc ▸ h.keys, hc ▸ h.langs, ?_⟩
  rw [hc]
  exact fun lang hm => h.lost lang (hl lang hm)

theorem Registered.drop {s : Loop} (h : s.Registered) (key : Nat) : (s.drop key).Registered := by
  have hsub : (s.drop key).connections.Sublist s.connections := List.filter_sublist
  refine ⟨h.keys.sublist (hsub.map _), h.langs.sublist (hsub.map _), ?_⟩
  exact fun lang hm hc => h.lost lang hm ((hsub.map Prod.snd).subset hc)

theorem Registered.connected {s : Loop} (h : s.Registered) {key : Nat} {lang : String}
    (hk : s.connections.lookup key = none) : (s.handle (.connected key lang)).Registered := by
  simp only [handle]
  split
  · exact h.congr rfl fun _ hm => hm
  · rename_i hc
    rw [connected_iff] at hc
    rw [register_of_lookup hk]
    refine ⟨?_, ?_, ?_⟩
    · rw [List.map_append, List.map_cons, List.map_nil, ← List.concat_eq_append]
      exact h.keys.concat (key_notMem_of_lookup hk)
    · rw [List.map_append, List.map_cons, List.map_nil, ← List.concat_eq_append]
      exact h.langs.concat hc
    · intro l hm hmem
      obtain ⟨hl, hne⟩ := List.mem_filter.1 hm
      rw [List.map_append, List.mem_append] at hmem
      rcases hmem with hmem | hmem
      · exact h.lost l hl hmem
      · simp at hmem hne
        exact hne hmem

/-- A Lang whose connection has ended has none any more. -/
theorem Registered.lang_notMem_drop {s : Loop} (h : s.Registered) {key : Nat} {lang : String}
    (hk : s.connections.lookup key = some lang) :
    lang ∉ (s.drop key).connections.map Prod.snd := by
  intro hm
  obtain ⟨⟨k, l⟩, hc, rfl⟩ := List.mem_map.1 hm
  obtain ⟨hmem, hne⟩ := List.mem_filter.1 hc
  have hkey : k = key := h.key_unique hmem (mem_of_lookup hk)
  simp [hkey] at hne

theorem Registered.markLost {s : Loop} (h : s.Registered) {lang : String}
    (hg : lang ∉ s.connections.map Prod.snd) :
    ({ s with lost := if s.lost.contains lang then s.lost else s.lost ++ [lang] }
      : Loop).Registered := by
  refine ⟨h.keys, h.langs, ?_⟩
  intro l hm
  have hor : l ∈ s.lost ∨ l = lang := by
    dsimp only at hm
    split at hm
    · exact .inl hm
    · simpa using hm
  rcases hor with hold | rfl
  · exact h.lost l hold
  · exact hg

theorem Registered.onClosed {s : Loop} (h : s.Registered) (key : Nat) :
    (s.onClosed key).Registered := by
  unfold Loop.onClosed
  split
  · exact h.drop key
  · rename_i lang hk
    have hd := h.drop key
    have hgone := h.lang_notMem_drop hk
    dsimp only
    split
    · exact hd.congr (connections_lose _) (by simp)
    · split
      · exact (hd.congr (connections_crash _ _) (by simp)).markLost (by simpa using hgone)
      · exact hd.markLost hgone

theorem Registered.handle {s : Loop} (h : s.Registered) {e : Event}
    (ha : Admissible s (.event e)) : (s.handle e).Registered := by
  cases e with
  | connected key lang => exact h.connected ha
  | message key m =>
    obtain ⟨hc, hl, -⟩ := onMessage_cases s key m
    exact h.congr hc fun _ hm => hl ▸ hm
  | malformed key line =>
    simp only [Loop.handle]
    split
    · exact h.congr (by simp) (by simp)
    · exact h
  | closed key => exact h.onClosed key

theorem Registered.submit {s : Loop} (h : s.Registered) (job : Job) (ticket : Nat) :
    (s.submit job ticket).Registered := by
  unfold Loop.submit
  split
  · exact h.congr rfl fun _ hm => hm
  · dsimp only
    split
    · refine h.congr (by simp) fun lang hm => ?_
      rw [lost_lose] at hm
      exact List.mem_of_mem_filter hm
    · exact h.congr rfl fun _ hm => hm

theorem Registered.workerExited {s : Loop} (h : s.Registered) (lang : String) :
    (s.workerExited lang).Registered := by
  unfold Loop.workerExited
  split
  · split
    · exact h.congr (by simp) (by simp)
    · exact h
  · exact h

theorem Registered.dispatch {s : Loop} (h : s.Registered)
    (write : Nat → String → Option String) : (s.dispatch write).Registered := by
  unfold Loop.dispatch
  split
  · exact h
  · rename_i key job _
    split
    · exact h.congr rfl fun _ hm => hm
    · unfold unwritten
      dsimp only
      split
      · exact (h.drop key).congr (by simp) (by simp)
      · exact (h.drop key).congr (by simp) (by simp)

/-- What goes out is the pending job, which no worker has yet, and it goes to a connection of its
Lang. -/
theorem outgoing_spec {s : Loop} {key : Nat} {job : Job} (h : s.outgoing? = some (key, job)) :
    ∃ p, s.pending = some p ∧ p.job = job ∧ job.active = false ∧
      (key, job.lang) ∈ s.connections := by
  unfold outgoing? at h
  cases hp : s.pending with
  | none => simp [hp] at h
  | some p =>
    simp only [hp, Option.bind_eq_bind, Option.bind_some] at h
    split at h
    · cases h
    · rename_i hidle
      obtain ⟨⟨k, l⟩, hf, he⟩ := Option.bind_eq_some_iff.1 h
      cases he
      have hl : l = p.job.lang := by simpa using List.find?_some hf
      simp only [Bool.or_eq_true, not_or, Bool.not_eq_true] at hidle
      exact ⟨p, rfl, rfl, hidle.1, hl ▸ List.mem_of_find?_eq_some hf⟩

/-- A connection is the active job's own exactly when it is registered under the job's Lang. -/
theorem activeFor_iff {s : Loop} (h : s.Registered) {key : Nat} :
    s.activeFor key = true ↔
      ∃ p, s.pending = some p ∧ p.job.active = true ∧ (key, p.job.lang) ∈ s.connections := by
  unfold activeFor
  constructor
  · intro ha
    split at ha
    · rename_i p lang hp hk
      simp only [Bool.and_eq_true, beq_iff_eq] at ha
      exact ⟨p, hp, ha.1, ha.2 ▸ mem_of_lookup hk⟩
    · cases ha
  · rintro ⟨p, hp, ha, hm⟩
    simp [hp, lookup_of_mem h.keys hm, ha]

end Loop

namespace Trace

/-- Lines are handed over once per submission, and the connection that got the line of an active
job is registered under the Lang of the job. -/
structure Sent (t : Trace) : Prop where
  once : (t.writes.map Prod.fst).Nodup
  old : ∀ w ∈ t.writes, w.1 < t.submitted
  ticket : ∀ p, t.loop.pending = some p → p.ticket < t.submitted
  unsent : ∀ p, t.loop.pending = some p → p.job.active = false → p.ticket ∉ t.writes.map Prod.fst
  active : ∀ p, t.loop.pending = some p → p.job.active = true →
    ∃ key, (p.ticket, key) ∈ t.writes ∧ (key, p.job.lang) ∈ t.loop.connections

variable {t : Trace}

theorem Sent.ended (h : t.Sent) {s : Loop} (hp : s.pending = none) :
    ({ t with loop := s } : Trace).Sent := by
  refine ⟨h.once, h.old, ?_, ?_, ?_⟩ <;> simp [hp]

/-- A step that keeps the job and the connections of its Lang. -/
theorem Sent.kept (h : t.Sent) {s : Loop} (hp : s.pending = t.loop.pending)
    (hc : ∀ p, t.loop.pending = some p → p.job.active = true →
      ∀ key, (key, p.job.lang) ∈ t.loop.connections → (key, p.job.lang) ∈ s.connections) :
    ({ t with loop := s } : Trace).Sent := by
  refine ⟨h.once, h.old, ?_, ?_, ?_⟩ <;> dsimp only <;> rw [hp]
  · exact h.ticket
  · exact h.unsent
  · intro p hs ha
    obtain ⟨key, hw, hm⟩ := h.active p hs ha
    exact ⟨key, hw, hc p hs ha key hm⟩

theorem Sent.heard (h : t.Sent) :
    ({ t with loop := t.loop.modifyPending fun p => { p with heard := true } } : Trace).Sent := by
  refine ⟨h.once, h.old, ?_, ?_, ?_⟩ <;> intro q hq <;>
    obtain ⟨p, hp, rfl⟩ := Option.map_eq_some_iff.1 hq
  · exact h.ticket p hp
  · exact h.unsent p hp
  · exact h.active p hp

theorem Sent.onClosed (h : t.Sent) (hr : t.loop.Registered) (key : Nat) :
    ({ t with loop := t.loop.onClosed key } : Trace).Sent := by
  -- the connection of an active job stays, unless it is the one that closed
  have hstay : t.loop.activeFor key = false → ∀ p, t.loop.pending = some p →
      p.job.active = true → ∀ k, (k, p.job.lang) ∈ t.loop.connections →
        (k, p.job.lang) ∈ (t.loop.drop key).connections := by
    intro hn p hp ha k hm
    refine List.mem_filter.2 ⟨hm, ?_⟩
    have hne : k ≠ key := by
      rintro rfl
      rw [(Loop.activeFor_iff hr).2 ⟨p, hp, ha, hm⟩] at hn
      cases hn
    simpa using hne
  unfold Loop.onClosed
  split
  · rename_i hk
    have hn : t.loop.activeFor key = false := by
      unfold Loop.activeFor
      rw [hk]
      split
      · rename_i _ _ _ hx; cases hx
      · rfl
    exact h.kept rfl (hstay hn)
  · dsimp only
    split
    · exact h.ended (Loop.pending_lose _)
    · split
      · exact h.ended (Loop.pending_crash _ _)
      · rename_i hn
        exact h.kept rfl (hstay (by simpa using hn))

theorem Sent.handle (h : t.Sent) (hr : t.loop.Registered) {e : Event}
    (ha : Admissible t.loop (.event e)) : ({ t with loop := t.loop.handle e } : Trace).Sent := by
  cases e with
  | connected key lang =>
    simp only [Loop.handle]
    split
    · exact h.kept rfl fun _ _ _ _ hm => hm
    · refine h.kept rfl fun p _ _ k hm => ?_
      rw [Loop.register_of_lookup ha]
      exact List.mem_append_left _ hm
  | message key m =>
    obtain ⟨-, -, hnone | hsame | hheard⟩ := Loop.onMessage_cases t.loop key m
    · exact h.ended hnone
    · simpa only [Loop.handle, hsame] using h
    · simpa only [Loop.handle, hheard] using h.heard
  | malformed key line =>
    simp only [Loop.handle]
    split
    · exact h.ended (Loop.pending_crash _ _)
    · exact h
  | closed key => exact h.onClosed hr key

theorem Sent.submit (h : t.Sent) {job : Job} (hj : job.active = false) :
    (t.step (.submit job)).Sent := by
  have hold : ∀ w ∈ t.writes, w.1 < t.submitted + 1 := fun w hw => Nat.lt_succ_of_lt (h.old w hw)
  have hnew : t.submitted ∉ t.writes.map Prod.fst := by
    intro hm
    obtain ⟨w, hw, he⟩ := List.mem_map.1 hm
    exact absurd (h.old w hw) (by omega)
  simp only [step]
  cases hp : t.loop.pending with
  | some p =>
    rw [Loop.submit_of_pending (by rw [hp]; rfl)]
    exact ⟨h.once, hold, fun q hq => Nat.lt_succ_of_lt (h.ticket q hq), h.unsent, h.active⟩
  | none =>
    rw [Loop.submit, if_neg (by rw [hp]; exact Bool.false_ne_true)]
    dsimp only
    split
    · refine ⟨h.once, hold, ?_, ?_, ?_⟩ <;> simp
    · refine ⟨h.once, hold, ?_, ?_, ?_⟩ <;> intro q hq <;> cases hq
      · exact Nat.lt_succ_self _
      · exact fun _ => hnew
      · intro ha
        rw [hj] at ha
        cases ha

theorem Sent.workerExited (h : t.Sent) (lang : String) :
    ({ t with loop := t.loop.workerExited lang } : Trace).Sent := by
  unfold Loop.workerExited
  split
  · split
    · exact h.ended (Loop.pending_crash _ _)
    · exact h
  · exact h

theorem Sent.dispatch (h : t.Sent) (write : Nat → String → Option String) :
    (t.step (.dispatch write)).Sent := by
  simp only [step, Loop.dispatch, Loop.writeNow?]
  cases ho : t.loop.outgoing? with
  | none =>
    simpa only [Option.bind_none, Option.toList_none, List.append_nil] using h
  | some out =>
    obtain ⟨key, job⟩ := out
    obtain ⟨p, hp, rfl, hidle, hmem⟩ := Loop.outgoing_spec ho
    have hfresh := h.unsent p hp hidle
    have honce : ((t.writes ++ [(p.ticket, key)]).map Prod.fst).Nodup := by
      rw [List.map_append, List.map_cons, List.map_nil, ← List.concat_eq_append]
      exact h.once.concat hfresh
    have hold : ∀ w ∈ t.writes ++ [(p.ticket, key)], w.1 < t.submitted := by
      intro w hw
      rcases List.mem_append.1 hw with hw | hw
      · exact h.old w hw
      · rw [List.mem_singleton.1 hw]
        exact h.ticket p hp
    simp only [hp, Option.bind_some, Option.map_some, Option.toList_some]
    split
    · refine ⟨honce, hold, ?_, ?_, ?_⟩ <;> intro q hq <;>
        obtain ⟨p', hp', rfl⟩ := Option.map_eq_some_iff.1 hq <;> cases hp.symm.trans hp'
      · exact h.ticket p hp
      · intro ha
        cases ha
      · exact fun _ => ⟨key, by simp, hmem⟩
    · refine ⟨honce, hold, ?_, ?_, ?_⟩ <;> simp [Loop.pending_unwritten]

end Trace

/-- What holds of a trace the daemon can go through. -/
theorem Reached.registered_sent {t : Trace} (h : Reached t) : t.loop.Registered ∧ t.Sent := by
  induction h with
  | start => exact ⟨⟨.nil, .nil, by simp⟩, ⟨.nil, by simp, by simp, by simp, by simp⟩⟩
  | @step t a _ ha ih =>
    obtain ⟨hr, hs⟩ := ih
    cases a with
    | accept => exact ⟨hr.congr rfl fun _ hm => hm, hs.kept rfl fun _ _ _ _ hm => hm⟩
    | submit job => exact ⟨hr.submit job _, hs.submit ha⟩
    | event e => exact ⟨hr.handle ha, hs.handle hr ha⟩
    | exited lang => exact ⟨hr.workerExited lang, hs.workerExited lang⟩
    | dispatch write => exact ⟨hr.dispatch write, hs.dispatch write⟩

/-- A job is settled only by the worker it was sent to. Langs of connections are distinct and not
lost; the connection that got the line of an active job is registered under the Lang of the job, and
no other one is; no submission has its line written twice; and what comes from a connection that did
not get the line of the active job leaves the daemon as it is. -/
theorem job_settled_by_its_worker {t : Trace} (h : Reached t) :
    (t.loop.connections.map Prod.snd).Nodup ∧
    (∀ lang ∈ t.loop.lost, t.loop.connected lang = false) ∧
    (∀ p, t.loop.pending = some p → p.job.active = true →
      ∃ key, (p.ticket, key) ∈ t.writes ∧ (key, p.job.lang) ∈ t.loop.connections ∧
        ∀ k, (k, p.job.lang) ∈ t.loop.connections → k = key) ∧
    (∀ ticket, (t.writes.map Prod.fst).count ticket ≤ 1) ∧
    (∀ key, (∀ p, t.loop.pending = some p → p.job.active = true → (p.ticket, key) ∉ t.writes) →
      (∀ m, t.loop.handle (.message key m) = t.loop) ∧
      (∀ line, t.loop.handle (.malformed key line) = t.loop)) := by
  obtain ⟨hr, hs⟩ := h.registered_sent
  refine ⟨hr.langs, ?_, ?_, List.nodup_iff_count_le_one.1 hs.once, ?_⟩
  · intro lang hl
    rw [← Bool.not_eq_true, Loop.connected_iff]
    exact hr.lost lang hl
  · intro p hp ha
    obtain ⟨key, hw, hm⟩ := hs.active p hp ha
    exact ⟨key, hw, hm, fun k hk => hr.key_unique hk hm⟩
  · intro key hkey
    -- the only connection under the Lang of the active job is the one that got its line
    have hn : t.loop.activeFor key = false := by
      rw [← Bool.not_eq_true, Loop.activeFor_iff hr]
      rintro ⟨p, hp, ha, hm⟩
      obtain ⟨k, hw, hk⟩ := hs.active p hp ha
      exact hkey p hp ha (hr.key_unique hm hk ▸ hw)
    simp [Loop.handle, Loop.onMessage, hn]

/-- A worker has a call when a second connection announces its Lang: the daemon drops the second
one, and what that says afterwards does not reach the call. -/
theorem job_settled_by_its_worker_beside_twin :
    let t := Trace.run [.accept, .event (.connected 0 "Python"),
      .submit (.call "Python" "f" "tmp/f.py"), .dispatch fun _ _ => none, .accept,
      .event (.connected 1 "Python")]
    Reached t ∧ t.loop.activeFor 0 = true ∧
      t.loop.handle (.message 1 (.finishFunc .null)) = t.loop := by
  have hopen := Reached.start.step (a := .accept) trivial
  have hknown := hopen.step (a := .event (.connected 0 "Python")) rfl
  have hasked := hknown.step (a := .submit (.call "Python" "f" "tmp/f.py")) rfl
  have hsent := hasked.step (a := .dispatch fun _ _ => none) trivial
  have htwin := (hsent.step (a := .accept) trivial).step (a := .event (.connected 1 "Python")) rfl
  refine ⟨htwin, rfl, ((job_settled_by_its_worker htwin).2.2.2.2 1 ?_).1 _⟩
  rintro p hp -
  cases hp
  decide

end Guest
end Ditlang
