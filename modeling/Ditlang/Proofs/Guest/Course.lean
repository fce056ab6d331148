import Ditlang.Proofs.Guest.Attribution
import Ditlang.Proofs.Guest.Transcript

/-!
# Ditlang.Proofs.Guest.Course

The state of the daemon and the transcript of what was said go together.

* `Onward`: what may happen to connections. New ones get new keys, and a connection that is open
  keeps the Lang it announced; one that is closed is never opened again.
* `Course`: a connection that is open and waits for the value of a fragment is one of those whose
  request is open in the transcript, and it has kept to the protocol exactly when the transcript
  leaves it undisturbed. This survives whatever `Onward` allows, and everything that is said
  (`Course.call`, `Course.callback`, `Course.ask`, `Course.settled`).
-/

namespace Ditlang
namespace Guest
namespace Loop

variable {s s' : Loop} {key : Nat} {lang : String}

/-- The daemon reads from a connection or has registered it. -/
def Open (s : Loop) (key : Nat) : Prop :=
  key ∈ s.readers ∨ key ∈ s.connections.map Prod.fst

/-- What happens to connections in the course of time. -/
structure Onward (s s' : Loop) : Prop where
  nextKey : s.nextKey ≤ s'.nextKey
  opened : ∀ k, s'.Open k → s.Open k ∨ s.nextKey ≤ k ∧ k < s'.nextKey
  kept : ∀ c ∈ s.connections, s'.Open c.1 → c ∈ s'.connections

theorem open_of_mem (h : (key, lang) ∈ s.connections) : s.Open key :=
  .inr (List.mem_map_of_mem h)

/-! ## Connections -/

/-- All that concerns connections. -/
def links (s : Loop) : List (Nat × String) × List Nat × Nat :=
  (s.connections, s.readers, s.nextKey)

@[simp] theorem links_complete (s : Loop) : s.complete.links = s.links := by
  unfold complete; split <;> rfl

@[simp] theorem links_lose (s : Loop) : s.lose.links = s.links := by
  unfold lose; split <;> rfl

@[simp] theorem links_settle (s : Loop) (kind : JobKind) (result : Json) :
    (s.settle kind result).links = s.links := by
  rw [settle, links_complete]; rfl

@[simp] theorem links_crash (s : Loop) (text : String) : (s.crash text).links = s.links :=
  links_settle s _ _

theorem links_onMessage (s : Loop) (key : Nat) (m : WorkerMessage) :
    (s.onMessage key m).links = s.links := by
  unfold onMessage
  split
  · cases m with
    | heart | connect => rfl
    | crash | exeDitlang | finishFunc => simp
  · rfl

theorem links_unwritten (s : Loop) (key : Nat) (job : Job) (reason : String) :
    (s.unwritten key job reason).links = (s.drop key).links := by
  unfold unwritten
  dsimp only
  split
  · exact links_lose _
  · exact links_crash _ _

theorem links_onClosed (s : Loop) (key : Nat) : (s.onClosed key).links = (s.drop key).links := by
  unfold onClosed
  split
  · rfl
  · dsimp only
    split
    · exact links_lose _
    · split
      · exact links_crash _ _
      · rfl

theorem open_congr (h : s'.links = s.links) : s'.Open key ↔ s.Open key := by
  simp only [links, Prod.mk.injEq] at h
  obtain ⟨hc, hr, -⟩ := h
  rw [Open, Open, hc, hr]

theorem Onward.of_links (h : s'.links = s.links) : Onward s s' := by
  have hopen : ∀ k, s'.Open k → s.Open k := fun k hk => (open_congr h).1 hk
  simp only [links, Prod.mk.injEq] at h
  obtain ⟨hc, -, hn⟩ := h
  refine ⟨hn ▸ Nat.le_refl _, fun k hk => .inl (hopen k hk), ?_⟩
  intro c hm _
  exact hc ▸ hm

theorem onward_accept (s : Loop) : Onward s s.accept.2 := by
  refine ⟨Nat.le_succ _, ?_, fun c hc _ => hc⟩
  rintro k (hr | hc)
  · simp only [accept, List.mem_append, List.mem_singleton] at hr
    rcases hr with hr | rfl
    · exact .inl (.inl hr)
    · exact .inr ⟨Nat.le_refl _, Nat.lt_succ_self _⟩
  · exact .inl (.inr hc)

theorem open_drop {k : Nat} : (s.drop key).Open k ↔ s.Open k ∧ k ≠ key := by
  simp [Open, drop]
  grind

theorem onward_drop (s : Loop) (key : Nat) : Onward s (s.drop key) := by
  refine ⟨Nat.le_refl _, fun k hk => .inl (open_drop.1 hk).1, ?_⟩
  intro c hc ho
  exact List.mem_filter.2 ⟨hc, by simpa using (open_drop.1 ho).2⟩

/-- A connection that announces its Lang is registered, or dropped if another has the Lang. -/
theorem onward_connected (hr : key ∈ s.readers) (hk : s.connections.lookup key = none) :
    Onward s (s.handle (.connected key lang)) := by
  simp only [handle]
  split
  · refine ⟨Nat.le_refl _, ?_, fun c hc _ => hc⟩
    rintro k (hm | hm)
    · exact .inl (.inl (List.mem_of_mem_filter hm))
    · exact .inl (.inr hm)
  · rw [register_of_lookup hk]
    refine ⟨Nat.le_refl _, ?_, fun c hc _ => List.mem_append_left _ hc⟩
    rintro k (hm | hm)
    · exact .inl (.inl hm)
    · simp only [List.map_append, List.mem_append, List.map_cons, List.map_nil,
        List.mem_singleton] at hm
      rcases hm with hm | rfl
      · exact .inl (.inr hm)
      · exact .inl (.inl hr)

theorem Onward.congr {s'' : Loop} (h : Onward s s') (hl : s''.links = s'.links) :
    Onward s s'' := by
  have hopen : ∀ k, s''.Open k → s'.Open k := fun k hk => (open_congr hl).1 hk
  simp only [links, Prod.mk.injEq] at hl
  obtain ⟨hc, -, hn⟩ := hl
  refine ⟨hn ▸ h.nextKey, fun k hk => hn ▸ h.opened k (hopen k hk), ?_⟩
  intro c hm ho
  exact hc ▸ h.kept c hm (hopen _ ho)

end Loop

/-! ## Connections and what was said on them -/

/-- The connections have the Langs of what was said on them, and on each of them lines and replies
alternate. -/
structure Linked (s : Loop) (talk : List Said) : Prop where
  registered : s.Registered
  bound : ∀ k, s.Open k → k < s.nextKey
  known : ∀ x ∈ talk, x.key < s.nextKey
  langs : ∀ x ∈ talk, s.Open x.key → (x.key, x.lang) ∈ s.connections
  turns : ∀ k, Stepwise Alternates (conversation k talk)

namespace Linked

variable {s s' : Loop} {talk : List Said} {x : Said}

theorem open_of_onward (h : Linked s talk) (ho : s.Onward s') (hx : x ∈ talk)
    (hopen : s'.Open x.key) : s.Open x.key := by
  rcases ho.opened _ hopen with hs | ⟨hge, -⟩
  · exact hs
  · have := h.known x hx
    omega

theorem onward (h : Linked s talk) (ho : s.Onward s') (hr : s'.Registered) : Linked s' talk where
  registered := hr
  bound k hk := by
    rcases ho.opened k hk with hs | ⟨-, hlt⟩
    · exact Nat.lt_of_lt_of_le (h.bound k hs) ho.nextKey
    · exact hlt
  known x hx := Nat.lt_of_lt_of_le (h.known x hx) ho.nextKey
  langs x hx hopen := ho.kept _ (h.langs x hx (h.open_of_onward ho hx hopen)) hopen
  turns := h.turns

theorem say (h : Linked s talk) (hx : (x.key, x.lang) ∈ s.connections)
    (halt : Alternates (lastOn x.key talk) x.kind) : Linked s (talk ++ [x]) where
  registered := h.registered
  bound := h.bound
  known y hy := by
    rcases List.mem_append.1 hy with hy | hy
    · exact h.known y hy
    · rw [List.mem_singleton.1 hy]
      exact h.bound _ (Loop.open_of_mem hx)
  langs y hy hopen := by
    rcases List.mem_append.1 hy with hy | hy
    · exact h.langs y hy hopen
    · rw [List.mem_singleton.1 hy]
      exact hx
  turns k := by
    by_cases hk : x.key = k
    · subst hk
      rw [conversation_concat_self, stepwise_concat]
      exact ⟨h.turns _, halt⟩
    · rw [conversation_concat_of_ne hk]
      exact h.turns k

/-- What was said on a connection that is open was said in its Lang. -/
theorem lang_eq (h : Linked s talk) (hx : x ∈ talk) {lang : String}
    (hc : (x.key, lang) ∈ s.connections) : x.lang = lang := by
  have hx' := h.langs x hx (Loop.open_of_mem hc)
  have he := List.inj_on_of_nodup_map h.registered.keys hx' hc rfl
  exact congrArg Prod.snd he

end Linked

/-- The daemon has come to its state with what the transcript says. -/
structure Course (s : Loop) (t : Transcript) : Prop extends Linked s t.talk where
  /-- An open connection that waits for a value has an open request. -/
  asked : ∀ k, s.Open k → lastOn k t.talk = some .exeDitlang → ∃ y ∈ t.requests, y.key = k
  /-- Of requests in one Lang, the later one came on the same connection, or the connection of the
  earlier one is closed. -/
  apart : t.requests.Pairwise fun x y => x.lang = y.lang → s.Open y.key → x.key = y.key
  disciplined : ∀ k, Stepwise Permits (conversation k t.talk) ↔ t.Undisturbed k
  /-- A disciplined connection has one open request at most, and that was said last. -/
  lone : ∀ k, Stepwise Permits (conversation k t.talk) →
    (t.requests.map Said.key).count k ≤ 1 ∧
      (k ∈ t.requests.map Said.key → lastOn k t.talk = some .exeDitlang)

namespace Course

variable {s s' : Loop} {t : Transcript} {key : Nat} {lang : String} {y : Said}
  {rest : List Said}

theorem onward (h : Course s t) (ho : s.Onward s') (hr : s'.Registered) : Course s' t where
  toLinked := h.toLinked.onward ho hr
  asked k hk hlast := by
    obtain ⟨x, hx, rfl⟩ := exists_mem_of_lastOn hlast
    exact h.asked _ (h.open_of_onward ho hx hk) hlast
  apart := by
    refine h.apart.imp_of_mem ?_
    intro x y _ hy hxy hlang hopen
    have hy' := (Transcript.mem_talk_of_mem_requests hy).1
    exact hxy hlang (h.open_of_onward ho hy' hopen)
  disciplined := h.disciplined
  lone := h.lone

/-- Something is said on a connection. What has to be shown concerns that connection, and that no
other one loses its request, unless it is closed. -/
theorem say (h : Course s t) {t' : Transcript} {x : Said} (htalk : t'.talk = t.talk ++ [x])
    (hc : (x.key, x.lang) ∈ s.connections) (halt : Alternates (lastOn x.key t.talk) x.kind)
    (hkept : ∀ k, x.key ≠ k → s.Open k → k ∈ t.requests.map Said.key →
      k ∈ t'.requests.map Said.key)
    (hfew : ∀ k, x.key ≠ k → (t'.requests.map Said.key).count k ≤ (t.requests.map Said.key).count k)
    (hother : ∀ k, x.key ≠ k → (t'.Undisturbed k ↔ t.Undisturbed k))
    (hapart : t'.requests.Pairwise fun x y => x.lang = y.lang → s.Open y.key → x.key = y.key)
    (hask : x.kind = .exeDitlang → x.key ∈ t'.requests.map Said.key)
    (hself : (Stepwise Permits (conversation x.key t.talk) ∧ Permits (lastOn x.key t.talk) x.kind) ↔
      t'.Undisturbed x.key)
    (hlone : Stepwise Permits (conversation x.key t.talk) → Permits (lastOn x.key t.talk) x.kind →
      (t'.requests.map Said.key).count x.key ≤ 1 ∧
        (x.key ∈ t'.requests.map Said.key → x.kind = .exeDitlang)) :
    Course s t' where
  toLinked := htalk ▸ h.toLinked.say hc halt
  asked k hk hlast := by
    rw [htalk] at hlast
    apply List.mem_map.1
    by_cases hne : x.key = k
    · subst hne
      rw [lastOn_concat_self] at hlast
      exact hask (Option.some.inj hlast)
    · rw [lastOn_concat_of_ne hne] at hlast
      exact hkept k hne hk (List.mem_map.2 (h.asked k hk hlast))
  apart := hapart
  disciplined k := by
    rw [htalk]
    by_cases hne : x.key = k
    · subst hne
      rw [conversation_concat_self, stepwise_concat]
      exact hself
    · rw [conversation_concat_of_ne hne, hother k hne]
      exact h.disciplined k
  lone k hw := by
    rw [htalk] at hw ⊢
    by_cases hne : x.key = k
    · subst hne
      rw [conversation_concat_self, stepwise_concat] at hw
      rw [lastOn_concat_self]
      obtain ⟨hcount, hmem⟩ := hlone hw.1 hw.2
      exact ⟨hcount, fun hm => congrArg some (hmem hm)⟩
    · rw [conversation_concat_of_ne hne] at hw
      rw [lastOn_concat_of_ne hne]
      obtain ⟨hcount, hmem⟩ := h.lone k hw
      refine ⟨Nat.le_trans (hfew k hne) hcount, fun hm => hmem ?_⟩
      have := List.count_pos_iff.2 hm
      exact List.count_pos_iff.1 (Nat.lt_of_lt_of_le this (hfew k hne))

/-- A call is written to a connection that waits for no reply. -/
theorem call (h : Course s t) (hc : (key, lang) ∈ s.connections)
    (hidle : (lastOn key t.talk).any JobKind.isLine = false) :
    Course s (t ++ [.said ⟨key, lang, .callFunc⟩]) := by
  have halt : Alternates (lastOn key t.talk) .callFunc := by
    simp [Alternates, hidle, JobKind.isLine]
  have hpermits : Permits (lastOn key t.talk) .callFunc ↔ lastOn key t.talk ≠ some .exeDitlang := by
    simpa using permits_of_alternates halt
  have hreq : Transcript.requests (t ++ [.said ⟨key, lang, .callFunc⟩]) = t.requests := by
    simp [Transcript.leaves]
  have hfree : Stepwise Permits (conversation key t.talk) → lastOn key t.talk ≠ some .exeDitlang →
      key ∉ t.requests.map Said.key :=
    fun hw hne hm => hne ((h.lone key hw).2 hm)
  refine h.say Transcript.talk_concat_said hc halt ?_ ?_ ?_ ?_ (by simp) ?_ ?_
  · exact fun k _ _ hm => hreq ▸ hm
  · exact fun k _ => hreq ▸ Nat.le_refl _
  · intro k hne
    simp [Transcript.undisturbed_concat_said, hne]
  · exact hreq ▸ h.apart
  · rw [hpermits, h.disciplined, Transcript.undisturbed_concat_said]
    constructor
    · rintro ⟨hu, hlast⟩
      have hfree := hfree ((h.disciplined _).2 hu) hlast
      exact ⟨hu, fun _ _ y hy hyk => hfree (List.mem_map.2 ⟨y, hy, hyk⟩), by simp⟩
    · rintro ⟨hu, hcall, -⟩
      refine ⟨hu, fun hlast => ?_⟩
      obtain ⟨y, hy, hyk⟩ := h.asked key (Loop.open_of_mem hc) hlast
      exact hcall rfl rfl y hy hyk
  · intro hw hlast
    have hfree := hfree hw (hpermits.1 hlast)
    rw [hreq, List.count_eq_zero_of_not_mem hfree]
    exact ⟨Nat.zero_le _, fun hm => absurd hm hfree⟩

/-- The connection that a value is written to is the one that asked for it, if that is open. -/
theorem key_of_open (h : Course s t) (hreq : t.requests = y :: rest)
    (hc : (key, y.lang) ∈ s.connections) (hopen : s.Open y.key) : y.key = key := by
  have hy : y ∈ t.talk := (Transcript.mem_talk_of_mem_requests (hreq ▸ List.mem_cons_self)).1
  exact h.registered.key_unique (h.langs y hy hopen) hc

/-- A connection that waits for a value and gets one is the one that asked last. -/
theorem key_of_asked (h : Course s t) (hreq : t.requests = y :: rest)
    (hc : (key, y.lang) ∈ s.connections) (hlast : lastOn key t.talk = some .exeDitlang) :
    y.key = key := by
  have hopen := Loop.open_of_mem hc
  obtain ⟨z, hz, rfl⟩ := h.asked key hopen hlast
  have hlang := h.lang_eq (Transcript.mem_talk_of_mem_requests hz).1 hc
  have hapart := h.apart
  rw [hreq] at hz hapart
  rcases List.mem_cons.1 hz with rfl | hz
  · rfl
  · exact (List.pairwise_cons.1 hapart).1 z hz hlang.symm hopen

/-- The value of a fragment is written to a connection that waits for no reply. -/
theorem callback (h : Course s t) (hreq : t.requests = y :: rest)
    (hc : (key, y.lang) ∈ s.connections)
    (hidle : (lastOn key t.talk).any JobKind.isLine = false) :
    Course s (t ++ [.evaluated y] ++ [.said ⟨key, y.lang, .ditlangCallback⟩]) := by
  have halt : Alternates (lastOn key t.talk) .ditlangCallback := by
    simp [Alternates, hidle, JobKind.isLine]
  have hpermits : Permits (lastOn key t.talk) .ditlangCallback ↔
      lastOn key t.talk = some .exeDitlang := by
    simpa using permits_of_alternates halt
  have hrest : Transcript.requests
      (t ++ [.evaluated y] ++ [.said ⟨key, y.lang, .ditlangCallback⟩]) = rest := by
    rw [Transcript.requests_concat, Transcript.requests_concat, hreq]
    rfl
  have hapart := h.apart
  rw [hreq] at hapart
  have htalk : Transcript.talk (t ++ [.evaluated y] ++ [.said ⟨key, y.lang, .ditlangCallback⟩]) =
      t.talk ++ [⟨key, y.lang, .ditlangCallback⟩] := by
    rw [Transcript.talk_concat_said, Transcript.talk_concat_evaluated]
  refine h.say htalk hc halt ?_ ?_ ?_ (hrest ▸ hapart.of_cons)
    (by simp) ?_ ?_
  · intro k hne hk hm
    rw [hrest]
    rw [hreq] at hm
    rcases List.mem_cons.1 hm with rfl | hm
    · exact absurd (h.key_of_open hreq hc hk).symm hne
    · exact hm
  · intro k _
    rw [hrest, hreq]
    exact List.count_le_count_cons
  · intro k hne
    rw [Transcript.undisturbed_concat_said, Transcript.undisturbed_concat_evaluated]
    simp [hne]
  · rw [hpermits, h.disciplined, Transcript.undisturbed_concat_said,
      Transcript.undisturbed_concat_evaluated]
    constructor
    · rintro ⟨hu, hlast⟩
      refine ⟨hu, by simp, fun _ _ u z hz => ?_⟩
      obtain ⟨-, hyz⟩ := List.append_inj' hz rfl
      cases hyz
      exact h.key_of_asked hreq hc hlast
    · rintro ⟨hu, -, hanswer⟩
      have hy : y.key = key := hanswer rfl rfl t y rfl
      have hm : key ∈ t.requests.map Said.key := by
        rw [hreq, List.map_cons, hy]
        exact List.mem_cons_self
      exact ⟨hu, (h.lone key ((h.disciplined _).2 hu)).2 hm⟩
  · intro hw hlast
    have hcount := (h.lone key hw).1
    rw [hreq, List.map_cons, h.key_of_asked hreq hc (hpermits.1 hlast), List.count_cons_self]
      at hcount
    have hnone : (rest.map Said.key).count key = 0 := by omega
    rw [hrest, hnone]
    exact ⟨Nat.zero_le _, fun hm => absurd hm (List.count_eq_zero.1 hnone)⟩

/-- The value of a fragment cannot be written because the connection that asked for it is closed. -/
theorem release (h : Course s t) (hreq : t.requests = y :: rest) (hclosed : ¬ s.Open y.key) :
    Course s (t ++ [.evaluated y]) := by
  have hrest : Transcript.requests (t ++ [.evaluated y]) = rest := by
    simp [Transcript.leaves, hreq]
  refine ⟨?_, ?_, ?_, ?_, ?_⟩
  · rw [Transcript.talk_concat_evaluated]
    exact h.toLinked
  · intro k hk hlast
    rw [Transcript.talk_concat_evaluated] at hlast
    obtain ⟨z, hz, rfl⟩ := h.asked k hk hlast
    rw [hreq] at hz
    rw [hrest]
    rcases List.mem_cons.1 hz with rfl | hz
    · exact absurd hk hclosed
    · exact ⟨z, hz, rfl⟩
  · rw [hrest]
    have := h.apart
    rw [hreq] at this
    exact (List.pairwise_cons.1 this).2
  · intro k
    rw [Transcript.talk_concat_evaluated, Transcript.undisturbed_concat_evaluated]
    exact h.disciplined k
  · intro k hw
    rw [Transcript.talk_concat_evaluated] at hw ⊢
    obtain ⟨hcount, hlast⟩ := h.lone k hw
    rw [hreq, List.map_cons] at hcount hlast
    rw [hrest]
    exact ⟨Nat.le_trans List.count_le_count_cons hcount,
      fun hm => hlast (List.mem_cons_of_mem _ hm)⟩

/-- A reply is taken from the connection that has the job. -/
theorem reply (h : Course s t) (hc : (key, lang) ∈ s.connections) {kind : JobKind}
    (hbusy : (lastOn key t.talk).any JobKind.isLine) (hkind : kind.isReply) :
    Course s (t ++ [.said ⟨key, lang, kind⟩]) := by
  have halt : Alternates (lastOn key t.talk) kind := by
    rw [Alternates, if_pos hbusy]
    exact hkind
  have hnotLine : kind ≠ .callFunc ∧ kind ≠ .ditlangCallback := by
    cases kind with
    | exeDitlang | finishFunc | crash => simp
    | callFunc | ditlangCallback | heart => cases hkind
  have hpermits : Permits (lastOn key t.talk) kind := permits_of_isLine hbusy hkind
  -- a disciplined connection that has the job has no open request
  have hfree : Stepwise Permits (conversation key t.talk) → key ∉ t.requests.map Said.key := by
    intro hw hm
    rw [(h.lone key hw).2 hm] at hbusy
    cases hbusy
  have hreq : Transcript.requests (t ++ [.said ⟨key, lang, kind⟩]) =
      if kind = .exeDitlang then ⟨key, lang, kind⟩ :: t.requests else t.requests := by
    simp [Transcript.leaves]
  refine h.say Transcript.talk_concat_said hc halt ?_ ?_ ?_ ?_ ?_ ?_ ?_
  · intro k _ _ hm
    rw [hreq]
    split
    · exact List.mem_cons_of_mem _ hm
    · exact hm
  · intro k hne
    rw [hreq]
    split
    · rw [List.map_cons, List.count_cons_of_ne hne]
    · exact Nat.le_refl _
  · intro k hne
    simp [Transcript.undisturbed_concat_said, hne]
  · rw [hreq]
    split
    · refine List.pairwise_cons.2 ⟨fun z hz hlang hopen => ?_, h.apart⟩
      have hz' := h.langs z (Transcript.mem_talk_of_mem_requests hz).1 hopen
      rw [← hlang] at hz'
      exact h.registered.key_unique hc hz'
    · exact h.apart
  · intro hk
    rw [hreq, if_pos hk]
    exact List.mem_cons_self
  · simp [h.disciplined, hpermits, Transcript.undisturbed_concat_said, hnotLine]
  · intro hw _
    have hfree := hfree hw
    rw [hreq]
    split
    · rename_i hk
      rw [List.map_cons, List.count_cons_self, List.count_eq_zero_of_not_mem hfree]
      exact ⟨Nat.le_refl _, fun _ => hk⟩
    · rw [List.count_eq_zero_of_not_mem hfree]
      exact ⟨Nat.zero_le _, fun hm => absurd hm hfree⟩

end Course
end Guest
end Ditlang
