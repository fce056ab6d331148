import Ditlang.Guest.Fleet
import Ditlang.Proofs.Guest.Owed
import Ditlang.Proofs.Guest.Submission

/-!
# Ditlang.Proofs.Guest.Staff

Which worker is given which job. The handle knows at most one worker for a Lang, by the name of the
Lang. A worker announces a Lang on its connection, and a job goes to the connection that announced
the Lang of the job. `Fleet.Staffed` ties the two together: a worker that has not exited is the one
that the handle knows. So a job that goes to a worker that announced its own Lang goes to the worker
that the handle knows for the Lang of the job.

* `Staffed.stepWorker`, `Staffed.quiesce`: workers may do what they want.
* `Staffed.submit`: the job is given to the worker that is known for its Lang, or to none.
* `Staffed.runJobWith`: a worker that is given the job was launched for it, or was known before.
-/

namespace Ditlang
namespace Guest

/-! ## Workers and what they announce -/

/-- What a worker is from its launch on. -/
structure Profile where
  spec : LaunchSpec
  hello : String
  actions : List Action
deriving DecidableEq

def Worker.profile (w : Worker) : Profile :=
  ⟨w.spec, w.hello, w.actions⟩

/-- The Langs that a text announces, if it is read where a connection begins. -/
def announced (text : String) : List String :=
  ((text.toList.splitOn '\n').map String.ofList).filterMap fun line =>
    match WorkerMessage.read? line with
    | some (.connect lang) => some lang
    | _ => none

def Profile.texts (p : Profile) : List String :=
  p.hello :: p.actions.filterMap fun a =>
    match a with
    | .send text => some text
    | .recv | .twin => none

/-- A worker that announces no Lang but its own. -/
def Profile.Honest (p : Profile) : Prop :=
  ∀ text ∈ p.texts, ∀ lang ∈ announced text, lang = p.spec.lang

instance Profile.decidableHonest (p : Profile) : Decidable p.Honest :=
  inferInstanceAs (Decidable (∀ text ∈ _, ∀ lang ∈ _, _))

namespace Fleet

abbrev Has (f : Fleet) (i : Nat) (w : Worker) : Prop :=
  f.workers[i]? = some w

/-- The jobs of a worker for a Lang are those it had before, and then perhaps the one that is due,
which is given once. -/
inductive Given (known : List (String × Nat)) (due : Option (Job × Nat))
    (old : Nat → List Job → Prop) (s : Loop) (i : Nat) (lang : String) : List Job → Prop where
  | before {js : List Job} : old i js → Given known due old s i lang js
  | now {js js' : List Job} {job : Job} {ticket : Nat} : js = js' ++ [job] → old i js' →
      due = some (job, ticket) → known.lookup job.lang = some i → job.lang = lang →
      (∀ p, s.pending = some p → p.job.active = true) → Given known due old s i lang js

/-- How the workers, the daemon and the Langs `known` to the handle go together while the job `due`
is under way. `roster` says what the workers are, and `old` which jobs they had before. -/
structure Staffed (known : List (String × Nat)) (roster : List Profile) (due : Option (Job × Nat))
    (old : Nat → List Job → Prop) (f : Fleet) : Prop where
  owes : f.loop.Owes due f.tickets
  profiles : f.workers.toList.map Worker.profile = roster
  hired : ∀ lang i, known.lookup lang = some i → i < roster.length
  /-- A worker that has not exited is the one that the handle knows. -/
  serves : ∀ i w, f.Has i w → w.exited = false → known.lookup w.spec.lang = some i
  script : ∀ i w, f.Has i w → w.todo ⊆ w.actions
  bound : ∀ i w k, f.Has i w → w.key = some k → k < f.loop.nextKey
  registered : ∀ k l, (k, l) ∈ f.loop.connections → k < f.loop.nextKey
  unique : ∀ i j v w k, f.Has i v → f.Has j w → v.key = some k → w.key = some k → i = j
  /-- The Lang of a connection is that of the worker behind it. -/
  announced : ∀ i w k l, f.Has i w → w.key = some k → (k, l) ∈ f.loop.connections →
    w.profile.Honest → l = w.spec.lang
  given : ∀ i w, f.Has i w → w.profile.Honest →
    Given known due old f.loop i w.spec.lang w.jobs

/-- What a worker may become while it works: it stays what it is, and its connection is its old one
or a new one. -/
structure Becomes (known : List (String × Nat)) (due : Option (Job × Nat))
    (old : Nat → List Job → Prop) (f : Fleet) (i : Nat) (w w' : Worker) : Prop where
  profile : w'.profile = w.profile
  exited : w'.exited = false → w.exited = false
  script : w.todo ⊆ w.actions → w'.todo ⊆ w.actions
  key : ∀ k, w'.key = some k → w.key = some k ∨ k < f.loop.nextKey ∧
    (∀ j v, f.Has j v → v.key ≠ some k) ∧ ∀ l, (k, l) ∉ f.loop.connections
  given : w.profile.Honest → Given known due old f.loop i w.spec.lang w.jobs →
    Given known due old f.loop i w.spec.lang w'.jobs

variable {known : List (String × Nat)} {roster : List Profile} {due : Option (Job × Nat)}
  {old : Nat → List Job → Prop} {f g : Fleet} {i key : Nat} {w w' : Worker}

theorem Becomes.quiet (hprofile : w'.profile = w.profile) (hjobs : w'.jobs = w.jobs)
    (hexited : w'.exited = false → w.exited = false) (hkey : w'.key = w.key ∨ w'.key = none)
    (hscript : w.todo ⊆ w.actions → w'.todo ⊆ w.actions) : f.Becomes known due old i w w' where
  profile := hprofile
  exited := hexited
  script := hscript
  key k hk := by
    rcases hkey with hkey | hkey
    · exact .inl (hkey ▸ hk)
    · rw [hkey] at hk
      cases hk
  given _ hw := hjobs ▸ hw

/-- A worker after a change is one of before, or what became of the one that changed. -/
theorem has_modify {u : Worker → Worker} {j : Nat} (h : (f.modify i u).Has j w') :
    j ≠ i ∧ f.Has j w' ∨ j = i ∧ ∃ w, f.Has i w ∧ w' = u w := by
  simp only [Has, Fleet.modify, Array.getElem?_modify] at h
  split at h
  · rename_i hij
    subst hij
    obtain ⟨w, hw, rfl⟩ := Option.map_eq_some_iff.1 h
    exact .inr ⟨rfl, w, hw, rfl⟩
  · rename_i hij
    exact .inl ⟨Ne.symm hij, h⟩

namespace Staffed

theorem getElem?_roster (h : f.Staffed known roster due old) (hw : f.Has i w) :
    roster[i]? = some w.profile := by
  rw [← h.profiles, List.getElem?_map, Array.getElem?_toList, hw]
  rfl

/-- The daemon goes on. What it enters is what the worker of a connection announces. -/
theorem setLoop (h : f.Staffed known roster due old) (ht : f.loop.Turn g.loop)
    (htickets : g.tickets = f.tickets) (hworkers : g.workers = f.workers)
    (hnext : f.loop.nextKey ≤ g.loop.nextKey)
    (hc : ∀ k l, (k, l) ∈ g.loop.connections → (k, l) ∈ f.loop.connections ∨
      k < g.loop.nextKey ∧ ∀ i w, f.Has i w → w.key = some k → w.profile.Honest →
        l = w.spec.lang) : g.Staffed known roster due old := by
  have hhas : ∀ {i w}, g.Has i w → f.Has i w := fun {i w} hw => by rwa [Has, hworkers] at hw
  refine ⟨?_, hworkers ▸ h.profiles, h.hired, fun i w hw => h.serves i w (hhas hw),
    fun i w hw => h.script i w (hhas hw), ?_, ?_, ?_, ?_, ?_⟩
  · rw [htickets]
    exact h.owes.turn ht
  · intro i w k hw hk
    exact Nat.lt_of_lt_of_le (h.bound i w k (hhas hw) hk) hnext
  · intro k l hm
    rcases hc k l hm with hm | ⟨hk, -⟩
    · exact Nat.lt_of_lt_of_le (h.registered k l hm) hnext
    · exact hk
  · intro i j v w k hv hw
    exact h.unique i j v w k (hhas hv) (hhas hw)
  · intro i w k l hw hk hm hhonest
    rcases hc k l hm with hm | ⟨-, hnew⟩
    · exact h.announced i w k l (hhas hw) hk hm hhonest
    · exact hnew i w (hhas hw) hk hhonest
  · intro i w hw hhonest
    cases h.given i w (hhas hw) hhonest with
    | before hold => exact .before hold
    | now hjs hold hdue hknown hlang hactive =>
      exact .now hjs hold hdue hknown hlang (ht.active hactive)

theorem modify (h : f.Staffed known roster due old) {u : Worker → Worker}
    (hu : ∀ w, f.Has i w → f.Becomes known due old i w (u w)) :
    (f.modify i u).Staffed known roster due old := by
  have hsame : ∀ w, f.Has i w → (u w).actions = w.actions ∧ (u w).spec = w.spec := by
    intro w hw
    have hp := (hu w hw).profile
    simp only [Worker.profile, Profile.mk.injEq] at hp
    exact ⟨hp.2.2, hp.1⟩
  refine ⟨h.owes, ?_, h.hired, ?_, ?_, ?_, h.registered, ?_, ?_, ?_⟩
  · rw [← h.profiles]
    refine List.ext_getElem? fun j => ?_
    simp only [Fleet.modify, List.getElem?_map, Array.getElem?_toList, Array.getElem?_modify]
    split
    · rename_i hij
      subst hij
      cases hw : f.workers[i]? with
      | none => rfl
      | some w => exact congrArg some (hu w hw).profile
    · rfl
  · intro j w' hw' hrun
    rcases has_modify hw' with ⟨-, hw⟩ | ⟨rfl, w, hw, rfl⟩
    · exact h.serves j w' hw hrun
    · rw [(hsame w hw).2]
      exact h.serves j w hw ((hu w hw).exited hrun)
  · intro j w' hw'
    rcases has_modify hw' with ⟨-, hw⟩ | ⟨rfl, w, hw, rfl⟩
    · exact h.script j w' hw
    · rw [(hsame w hw).1]
      exact (hu w hw).script (h.script j w hw)
  · intro j w' k hw' hk
    rcases has_modify hw' with ⟨-, hw⟩ | ⟨rfl, w, hw, rfl⟩
    · exact h.bound j w' k hw hk
    · rcases (hu w hw).key k hk with hk | ⟨hk, -, -⟩
      · exact h.bound j w k hw hk
      · exact hk
  · intro j j' v v' k hj hj' hk hk'
    rcases has_modify hj with ⟨-, hv⟩ | ⟨rfl, w, hw, rfl⟩
    · rcases has_modify hj' with ⟨-, hv'⟩ | ⟨rfl, w', hw', rfl⟩
      · exact h.unique j j' v v' k hv hv' hk hk'
      · rcases (hu w' hw').key k hk' with hk' | ⟨-, hnew, -⟩
        · exact h.unique j j' v w' k hv hw' hk hk'
        · exact absurd hk (hnew j v hv)
    · rcases has_modify hj' with ⟨-, hv'⟩ | ⟨rfl, w', hw', rfl⟩
      · rcases (hu w hw).key k hk with hk | ⟨-, hnew, -⟩
        · exact h.unique j j' w v' k hw hv' hk hk'
        · exact absurd hk' (hnew j' v' hv')
      · rfl
  · intro j w' k l hw' hk hm hhonest
    rcases has_modify hw' with ⟨-, hw⟩ | ⟨rfl, w, hw, rfl⟩
    · exact h.announced j w' k l hw hk hm hhonest
    · rw [(hu w hw).profile] at hhonest
      rw [(hsame w hw).2]
      rcases (hu w hw).key k hk with hk | ⟨-, -, hnew⟩
      · exact h.announced j w k l hw hk hm hhonest
      · exact absurd hm (hnew l)
  · intro j w' hw' hhonest
    rcases has_modify hw' with ⟨-, hw⟩ | ⟨rfl, w, hw, rfl⟩
    · exact h.given j w' hw hhonest
    · rw [(hu w hw).profile] at hhonest
      rw [(hsame w hw).2]
      exact (hu w hw).given hhonest (h.given j w hw hhonest)

/-- The daemon goes on with the job, or answers it. -/
theorem turn (h : f.Staffed known roster due old) {s : Loop} {talk : List Said}
    (ht : f.loop.Turn s) (hnext : s.nextKey = f.loop.nextKey)
    (hc : ∀ k l, (k, l) ∈ s.connections → (k, l) ∈ f.loop.connections) :
    ({ f with loop := s, talk } : Fleet).Staffed known roster due old :=
  h.setLoop ht rfl rfl (Nat.le_of_eq hnext.symm) fun k l hm => .inl (hc k l hm)

/-- The job that is written is the one that is due, and it goes to the worker of its Lang. -/
theorem dispatch (h : f.Staffed known roster due old) :
    f.dispatch.Staffed known roster due old := by
  unfold Fleet.dispatch
  split
  · exact h
  · rename_i key job ho
    obtain ⟨p, hp, rfl, hidle, hm⟩ := Loop.outgoing_spec ho
    split
    · rename_i i hi
      obtain ⟨hsize, hw, -⟩ := Array.findIdx?_eq_some_iff_getElem.1 hi
      simp only [Bool.and_eq_true, beq_iff_eq, Bool.not_eq_true'] at hw
      have hwritten : ({ f with
          loop := f.loop.written, talk := f.talk ++ [⟨key, p.job.lang, p.job.kind⟩] } :
          Fleet).Staffed known roster due old :=
        h.turn (Loop.turn_written _) rfl fun _ _ hm => hm
      refine hwritten.modify (u := fun w =>
        { w with inbox := w.inbox ++ [p.job.wire], jobs := w.jobs ++ [p.job] }) fun w hhas => ?_
      have hsame : f.workers[i] = w := by
        rw [Has, Array.getElem?_eq_getElem hsize] at hhas
        exact Option.some.inj hhas
      rw [hsame] at hw
      refine ⟨rfl, id, id, fun k hk => .inl hk, fun hhonest _ => ?_⟩
      have hlang := h.announced i w key _ hhas hw.1 hm hhonest
      have hdue : due = some (p.job, p.ticket) := by
        obtain ⟨job, hdue, hjob⟩ := h.owes.pending p hp
        rcases hjob with hjob | hjob
        · rw [hjob, hdue]
        · rw [hjob] at hidle
          cases hidle
      cases h.given i w hhas hhonest with
      | before hold =>
        refine .now rfl hold hdue (hlang ▸ h.serves i w hhas hw.2) hlang fun q hq => ?_
        obtain ⟨_, -, rfl⟩ := Option.map_eq_some_iff.1 hq
        rfl
      | now _ _ _ _ _ hactive =>
        -- the job has not been written yet
        rw [hactive p hp] at hidle
        cases hidle
    · have hlinks := Loop.links_unwritten f.loop key p.job "Broken pipe (os error 32)"
      refine h.turn (Loop.turn_unwritten hp key p.job _)
        ((Loop.nextKey_of_links hlinks).trans rfl) ?_
      intro k l hm
      rw [Loop.connections_of_links hlinks] at hm
      exact (List.mem_filter.1 hm).1

/-- The daemon takes an event; a connection that announces a Lang is that of one of its workers. -/
theorem notice (h : f.Staffed known roster due old) {e : Event}
    (he : ∀ k l, e.announces? = some (k, l) → k < f.loop.nextKey ∧
      ∀ i w, f.Has i w → w.key = some k → w.profile.Honest → l = w.spec.lang) :
    (f.notice e).Staffed known roster due old := by
  have hnext := Loop.nextKey_handle f.loop e
  have htaken : ({ f with loop := f.loop.handle e, talk := f.talk ++ (f.loop.taken? e).toList } :
      Fleet).Staffed known roster due old := by
    refine h.setLoop (Loop.turn_handle f.loop e) rfl rfl (Nat.le_of_eq hnext.symm) ?_
    intro k l hm
    rcases Loop.mem_handle hm with hnew | hm
    · exact .inr ⟨hnext ▸ (he k l hnew).1, (he k l hnew).2⟩
    · exact .inl hm
  exact htaken.dispatch

theorem notice_of_silent (h : f.Staffed known roster due old) {e : Event}
    (he : e.announces? = none) : (f.notice e).Staffed known roster due old := by
  refine h.notice fun k l hnew => ?_
  rw [he] at hnew
  cases hnew

theorem accept (h : f.Staffed known roster due old) :
    ({ f with loop := f.loop.accept.2 } : Fleet).Staffed known roster due old := by
  have ht : f.loop.Turn f.loop.accept.2 := (Loop.Turn.refl f.loop).congr rfl rfl
  exact h.setLoop ht rfl rfl (Nat.le_succ _) fun _ _ hm => .inl hm

theorem disconnect (h : f.Staffed known roster due old) :
    (f.modify i fun w => { w with key := none }).Staffed known roster due old :=
  h.modify fun _ _ => .quiet rfl rfl id (.inr rfl) id

theorem readLine (h : f.Staffed known roster due old) (hw : f.Has i w) (hkey : w.key = some key)
    {line : String} (hline : ∀ lang, WorkerMessage.read? line = some (.connect lang) →
      ∀ p, roster[i]? = some p → p.Honest → lang = p.spec.lang) :
    (f.readLine i key line).Staffed known roster due old := by
  unfold Fleet.readLine
  split
  · split
    · exact h
    · split
      · exact h.notice_of_silent rfl
      · exact h.notice_of_silent rfl
  · split
    · split
      · rename_i lang hread
        have hconnected : (f.notice (.connected key lang)).Staffed known roster due old := by
          refine h.notice ?_
          rintro _ _ ⟨⟩
          refine ⟨h.bound i w key hw hkey, fun j v hv hk hhonest => ?_⟩
          -- the connection has only one worker
          cases h.unique i j w v key hw hv hkey hk
          exact hline lang hread v.profile (h.getElem?_roster hv) hhonest
        dsimp only
        split
        · exact hconnected
        · exact hconnected.disconnect
      · exact (h.notice_of_silent rfl).disconnect
    · exact h

theorem sendText (h : f.Staffed known roster due old) {text : String}
    (htext : ∀ p, roster[i]? = some p → text ∈ p.texts) :
    (f.sendText i text).Staffed known roster due old := by
  have hlines : ∀ line ∈ (text.toList.splitOn '\n').map String.ofList, ∀ lang,
      WorkerMessage.read? line = some (.connect lang) →
        ∀ p, roster[i]? = some p → p.Honest → lang = p.spec.lang := by
    intro line hm lang hread p hp hhonest
    refine hhonest text (htext p hp) lang (List.mem_filterMap.2 ⟨line, hm, ?_⟩)
    rw [hread]
  unfold Fleet.sendText
  generalize (text.toList.splitOn '\n').map String.ofList = lines at hlines
  induction lines generalizing f with
  | nil => exact h
  | cons line lines ih =>
    rw [List.foldl_cons]
    refine ih ?_ fun l hl => hlines l (List.mem_cons_of_mem _ hl)
    split
    · rename_i key hk
      obtain ⟨w, hw, hk⟩ := Option.bind_eq_some_iff.1 hk
      exact h.readLine hw hk (hlines line List.mem_cons_self)
    · exact h

theorem exit (h : f.Staffed known roster due old) (i : Nat) (w : Worker) :
    (f.exit i w).Staffed known roster due old := by
  have hgone : (f.modify i fun w => { w with exited := true, key := none }).Staffed
      known roster due old :=
    h.modify fun _ _ => .quiet rfl rfl (fun he => nomatch he) (.inr rfl) id
  unfold Fleet.exit
  dsimp only
  split
  · exact hgone.notice_of_silent rfl
  · exact hgone

theorem mem_texts (h : f.Staffed known roster due old) (hw : f.Has i w) {text : String}
    (ht : text = w.hello ∨ .send text ∈ w.actions) : ∀ p, roster[i]? = some p → text ∈ p.texts := by
  intro p hp
  cases (h.getElem?_roster hw).symm.trans hp
  rcases ht with rfl | ht
  · exact List.mem_cons_self
  · exact List.mem_cons_of_mem _ (List.mem_filterMap.2 ⟨_, ht, rfl⟩)

theorem connect (h : f.Staffed known roster due old) (hw : f.Has i w) (reachable : Bool) :
    (f.connect i w reachable).Staffed known roster due old := by
  unfold Fleet.connect
  split
  · have hgreets : (({ f with loop := f.loop.accept.2 } : Fleet).modify i fun w =>
        { w with greeted := true, key := some f.loop.accept.1 }).Staffed known roster due old := by
      refine h.accept.modify fun v _ => ⟨rfl, id, id, ?_, fun _ hv => hv⟩
      rintro k ⟨⟩
      -- the key is new
      refine .inr ⟨Nat.lt_succ_self _, fun j v hv hk => ?_, fun l hm => ?_⟩
      · exact Nat.lt_irrefl _ (h.bound j v _ hv hk)
      · exact Nat.lt_irrefl _ (h.registered _ l hm)
    exact hgreets.sendText (h.mem_texts hw (.inl rfl))
  · exact h.exit i w

theorem stepWorker (h : f.Staffed known roster due old) (hw : f.Has i w) {host host' : Host}
    (hs : Fleet.stepWorker i w (f, host) = some (g, host')) : g.Staffed known roster due old := by
  have hscript := h.script i w hw
  have hrest : ∀ {a : Action} {rest : List Action}, w.todo = a :: rest →
      (f.modify i fun w => { w with todo := rest }).Staffed known roster due old := by
    intro a rest ht
    refine h.modify fun v hv => .quiet rfl rfl id (.inl rfl) fun _ => ?_
    cases hw.symm.trans hv
    exact fun b hb => hscript (ht ▸ List.mem_cons_of_mem _ hb)
  simp only [Fleet.stepWorker] at hs
  split at hs
  · cases hs
  · split at hs
    · cases hs
      exact h.connect hw _
    · split at hs
      · split at hs
        · cases hs
          refine h.modify fun v hv => .quiet rfl rfl id (.inl rfl) fun _ => ?_
          cases hw.symm.trans hv
          exact fun _ hb => hb
        · cases hs
          exact h.exit i w
      · rename_i rest ht
        split at hs
        · cases hs
          exact h.exit i w
        · cases hs
        · cases hs
          refine h.modify fun v hv => .quiet rfl rfl id (.inl rfl) fun _ => ?_
          cases hw.symm.trans hv
          exact fun b hb => hscript (ht ▸ List.mem_cons_of_mem _ hb)
      · rename_i rest ht
        cases hs
        have hnext := hrest ht
        refine hnext.accept.notice ?_
        rintro _ _ ⟨⟩
        refine ⟨Nat.lt_succ_self _, fun j v hv hk => ?_⟩
        exact absurd (hnext.bound j v _ hv hk) (Nat.lt_irrefl _)
      · rename_i text rest ht
        cases hs
        refine (hrest ht).sendText (h.mem_texts hw (.inr (hscript ?_)))
        rw [ht]
        exact List.mem_cons_self

theorem quiesce {n : Nat} (h : f.Staffed known roster due old) {host host' : Host}
    (hq : Fleet.quiesce n (f, host) = some (g, host')) : g.Staffed known roster due old := by
  induction n generalizing f host with
  | zero => cases hq
  | succ n ih =>
    rw [Fleet.quiesce] at hq
    split at hq
    · cases hq
      exact h
    · rename_i s hs
      obtain ⟨f', host₁⟩ := s
      obtain ⟨⟨w, i⟩, hm, hw⟩ := List.exists_of_findSome?_eq_some hs
      have hhas : f.Has i w := by
        have hget := List.mem_zipIdx_iff_getElem?.1 hm
        rwa [Array.getElem?_toList] at hget
      exact ih (h.stepWorker hhas hw) hq

/-! ## A job from its submission to its answer -/

theorem mono (h : f.Staffed known roster due old) {old' : Nat → List Job → Prop}
    (hold : ∀ i js, i < roster.length → old i js → old' i js) :
    f.Staffed known roster due old' := by
  refine ⟨h.owes, h.profiles, h.hired, h.serves, h.script, h.bound, h.registered, h.unique,
    h.announced, ?_⟩
  intro i w hw hhonest
  have hi := (List.getElem?_eq_some_iff.1 (h.getElem?_roster hw)).1
  cases h.given i w hw hhonest with
  | before hjobs => exact .before (hold i _ hi hjobs)
  | now hjs hjobs hdue hknown hlang hactive =>
    exact .now hjs (hold i _ hi hjobs) hdue hknown hlang hactive

/-- The jobs that a worker had, and then perhaps a job of its Lang, if the worker is admitted. -/
def Later (job : Job) (admits : Nat → Prop) (roster : List Profile) (old : Nat → List Job → Prop)
    (i : Nat) (js : List Job) : Prop :=
  old i js ∨ ∃ js', js = js' ++ [job] ∧ old i js' ∧ admits i ∧
    ∀ p, roster[i]? = some p → job.lang = p.spec.lang

/-- When the job is answered nothing is due, and the worker of its Lang may have been given it. -/
theorem settled {job : Job} {ticket : Nat} (h : f.Staffed known roster (some (job, ticket)) old)
    (howes : f.loop.Owes none f.tickets) :
    f.Staffed known roster none (Later job (known.lookup job.lang = some ·) roster old) := by
  refine ⟨howes, h.profiles, h.hired, h.serves, h.script, h.bound, h.registered, h.unique,
    h.announced, ?_⟩
  intro i w hw hhonest
  cases h.given i w hw hhonest with
  | before hold => exact .before (.inl hold)
  | now hjs hold hdue hknown hlang =>
    cases hdue
    refine .before (.inr ⟨_, hjs, hold, hknown, fun p hp => ?_⟩)
    cases (h.getElem?_roster hw).symm.trans hp
    exact hlang

theorem enter (h : f.Staffed known roster none old) (job : Job) :
    ({ f with tickets := f.tickets + 1, loop := f.loop.submit job f.tickets } : Fleet).Staffed
      known roster (some (job, f.tickets)) old := by
  have hlinks := Loop.links_submit f.loop job f.tickets
  have hc := Loop.connections_of_links hlinks
  have hnext := Loop.nextKey_of_links hlinks
  refine ⟨h.owes.submit job, h.profiles, h.hired, h.serves, h.script, hnext ▸ h.bound, ?_, h.unique,
    hc ▸ h.announced, ?_⟩
  · dsimp only
    rw [hc, hnext]
    exact h.registered
  · intro i w hw hhonest
    cases h.given i w hw hhonest with
    | before hold => exact .before hold
    | now _ _ hdue => cases hdue

theorem submit (h : f.Staffed known roster none old) {job : Job} {worker : Option Nat} {a : Answer}
    {host host' : Host} (hs : Fleet.submit job worker (f, host) = some (a, g, host')) :
    a.Fits job ∧
      g.Staffed known roster none (Later job (known.lookup job.lang = some ·) roster old) := by
  have hend : ∀ {g : Fleet}, g.Staffed known roster (some (job, f.tickets)) old →
      g.answer? f.tickets = some a → a.Fits job ∧
        g.Staffed known roster none (Later job (known.lookup job.lang = some ·) roster old) := by
    intro g hg ha
    obtain ⟨hfits, hnone⟩ := hg.owes.answered ha
    exact ⟨hfits, hg.settled hnone⟩
  simp only [Fleet.submit] at hs
  obtain ⟨⟨f', host₁⟩, hq, hs⟩ := Option.bind_eq_some_iff.1 hs
  have hquiet := (h.enter job).dispatch.quiesce hq
  split at hs
  · rename_i a' ha
    cases hs
    exact hend hquiet ha
  · split at hs
    · split at hs
      · obtain ⟨a', ha', he⟩ := Option.map_eq_some_iff.1 hs
        cases he
        have hlinks := Loop.links_workerExited f'.loop job.lang
        refine hend (hquiet.turn (Loop.turn_workerExited _ _) (Loop.nextKey_of_links hlinks) ?_) ha'
        exact fun k l hm => Loop.connections_of_links hlinks ▸ hm
      · cases hs
    · cases hs

end Staffed

/-! ## Workers come and go -/

/-- How the launch of a worker ends. -/
inductive Launched (spec : LaunchSpec) (f g : Fleet) : Except String Nat → Prop where
  | failed (reason : String) : g.workers = f.workers → Launched spec f g (.error reason)
  | started {w : Worker} : g.workers = f.workers.push w → w.spec = spec → w.key = none →
      w.jobs = [] → w.todo ⊆ w.actions → Launched spec f g (.ok f.workers.size)

theorem launched_of_launch {spec : LaunchSpec} {host host' : Host} {r : Except String Nat}
    (hl : launch spec (f, host) = (r, g, host')) :
    Launched spec f g r ∧ g.loop = f.loop ∧ g.tickets = f.tickets := by
  unfold launch at hl
  dsimp only at hl
  split at hl
  · unfold launchCommand at hl
    split at hl
    · cases hl
      exact ⟨.failed _ rfl, rfl, rfl⟩
    · split at hl
      · cases hl
        exact ⟨.failed _ rfl, rfl, rfl⟩
      · cases hl
        exact ⟨.started rfl rfl rfl rfl fun _ hm => hm, rfl, rfl⟩
  · unfold launchScripted at hl
    dsimp only at hl
    split at hl
    · cases hl
      exact ⟨.failed _ rfl, rfl, rfl⟩
    · cases hl
      exact ⟨.failed _ rfl, rfl, rfl⟩
    · cases hl
      exact ⟨.started rfl rfl rfl rfl fun _ hm => hm, rfl, rfl⟩
    · cases hl
      exact ⟨.started rfl rfl rfl rfl fun _ hm => hm, rfl, rfl⟩

namespace Staffed

variable {handle handle' : Handle} {spec : LaunchSpec} {lang : String} {host host' : Host}

theorem size_roster (h : f.Staffed known roster due old) : roster.length = f.workers.size := by
  rw [← h.profiles, List.length_map, Array.length_toList]

/-- A worker that is new is the one that is known for its Lang from then on. -/
theorem push (h : f.Staffed known roster none old) (hempty : ∀ i, old i [])
    (hnone : known.lookup w.spec.lang = none) (hworkers : g.workers = f.workers.push w)
    (hloop : g.loop = f.loop) (htickets : g.tickets = f.tickets) (hkey : w.key = none)
    (hjobs : w.jobs = []) (hscript : w.todo ⊆ w.actions) :
    g.Staffed (known ++ [(w.spec.lang, f.workers.size)]) (roster ++ [w.profile]) none old := by
  have hhas : ∀ {j v}, g.Has j v → f.Has j v ∨ j = f.workers.size ∧ v = w := by
    intro j v hv
    rw [Has, hworkers, Array.getElem?_push] at hv
    split at hv
    · rename_i hj
      exact .inr ⟨hj, (Option.some.inj hv).symm⟩
    · exact .inl hv
  refine ⟨?_, ?_, ?_, ?_, ?_, ?_, ?_, ?_, ?_, ?_⟩
  · rw [hloop, htickets]
    exact h.owes
  · rw [hworkers, Array.toList_push, List.map_append, h.profiles]
    rfl
  · intro lang j hj
    rw [List.lookup_append] at hj
    rw [List.length_append, List.length_singleton]
    rcases Option.or_eq_some_iff.1 hj with hj | ⟨-, hj⟩
    · exact Nat.lt_succ_of_lt (h.hired lang j hj)
    · rw [List.lookup_cons] at hj
      split at hj
      · cases hj
        rw [h.size_roster]
        exact Nat.lt_succ_self _
      · cases hj
  · intro j v hv hrun
    rw [List.lookup_append]
    rcases hhas hv with hv | ⟨rfl, rfl⟩
    · rw [h.serves j v hv hrun]
      rfl
    · rw [hnone]
      simp
  · intro j v hv
    rcases hhas hv with hv | ⟨rfl, rfl⟩
    · exact h.script j v hv
    · exact hscript
  · intro j v k hv hk
    rw [hloop]
    rcases hhas hv with hv | ⟨rfl, rfl⟩
    · exact h.bound j v k hv hk
    · rw [hkey] at hk
      cases hk
  · rw [hloop]
    exact h.registered
  · intro j j' v v' k hv hv' hk hk'
    rcases hhas hv with hv | ⟨rfl, rfl⟩
    · rcases hhas hv' with hv' | ⟨rfl, rfl⟩
      · exact h.unique j j' v v' k hv hv' hk hk'
      · rw [hkey] at hk'
        cases hk'
    · rw [hkey] at hk
      cases hk
  · intro j v k l hv hk
    rw [hloop]
    rcases hhas hv with hv | ⟨rfl, rfl⟩
    · exact h.announced j v k l hv hk
    · rw [hkey] at hk
      cases hk
  · intro j v hv hhonest
    rcases hhas hv with hv | ⟨rfl, rfl⟩
    · cases h.given j v hv hhonest with
      | before hold => exact .before hold
      | now _ _ hdue => cases hdue
    · rw [hjobs]
      exact .before (hempty _)

theorem ensureWorker (h : f.Staffed handle.workers roster none old) (hempty : ∀ i, old i [])
    (hspec : spec.lang = lang) {r : Except Diagnostic Handle}
    (he : handle.ensureWorker backend lang spec (f, host) = (r, g, host')) :
    (∀ d, r = .error d → g.Staffed handle.workers roster none old) ∧
      ∀ handle', r = .ok handle' → ∃ new : List Profile, (∀ p ∈ new, p.spec = spec) ∧
        g.Staffed handle'.workers (roster ++ new) none old ∧
        ∀ i, handle'.workers.lookup lang = some i →
          roster.length ≤ i ∨ handle.workers.lookup lang = some i := by
  unfold Handle.ensureWorker at he
  split at he
  · cases he
    refine ⟨fun _ hd => (nomatch hd), ?_⟩
    rintro handle' ⟨⟩
    exact ⟨[], fun _ hp => (nomatch hp), by rwa [List.append_nil], fun i hi => .inr hi⟩
  · rename_i hnone
    rw [Option.not_isSome_iff_eq_none] at hnone
    have hlaunch : backend.launch spec (f, host) = launch spec (f, host) := rfl
    rw [hlaunch] at he
    split at he
    · rename_i i s hl
      obtain ⟨f', host₁⟩ := s
      cases he
      obtain ⟨hlaunched, hloop, htickets⟩ := launched_of_launch hl
      cases hlaunched with
      | @started w hworkers hw hkey hjobs hscript =>
        refine ⟨fun _ hd => (nomatch hd), ?_⟩
        rintro handle' ⟨⟩
        subst hw
        subst hspec
        refine ⟨[w.profile], ?_,
          h.push hempty hnone hworkers hloop htickets hkey hjobs hscript, ?_⟩
        · intro p hp
          rw [List.mem_singleton.1 hp]
          rfl
        · intro i hi
          rw [List.lookup_append, hnone] at hi
          simp at hi
          left
          rw [h.size_roster, hi]
    · rename_i reason s hl
      obtain ⟨f', host₁⟩ := s
      cases he
      obtain ⟨hlaunched, hloop, htickets⟩ := launched_of_launch hl
      cases hlaunched with
      | failed _ hworkers =>
        refine ⟨fun _ _ => ?_, fun _ hh => nomatch hh⟩
        have ht : f.loop.Turn g.loop := hloop ▸ .refl _
        refine h.setLoop ht htickets hworkers (Nat.le_of_eq (by rw [hloop])) ?_
        intro k l hm
        rw [hloop] at hm
        exact .inl hm

theorem forget (h : f.Staffed known roster none old) (hi : known.lookup lang = some i) :
    (terminate i (f, host)).1.Staffed (known.filter (·.1 ≠ lang)) roster none old := by
  have hstopped : (terminate i (f, host)).1.Staffed known roster none old :=
    h.modify fun _ _ => .quiet rfl rfl (fun he => nomatch he) (.inl rfl) id
  refine ⟨hstopped.owes, hstopped.profiles, ?_, ?_, hstopped.script, hstopped.bound,
    hstopped.registered, hstopped.unique, hstopped.announced, ?_⟩
  · intro l j hj
    refine h.hired l j ?_
    by_cases hl : l = lang
    · subst hl
      cases (Handle.lookup_filter_self l known).symm.trans hj
    · rwa [Handle.lookup_filter_of_ne hl] at hj
  · intro j w hw hrun
    have hknown := hstopped.serves j w hw hrun
    have hne : w.spec.lang ≠ lang := by
      rintro rfl
      cases hknown.symm.trans hi
      -- the worker that the handle knows for the Lang is the one that was stopped
      rcases has_modify hw with ⟨hne, -⟩ | ⟨-, v, -, rfl⟩
      · exact hne rfl
      · cases hrun
    rw [Handle.lookup_filter_of_ne hne]
    exact hknown
  · intro j w hw hhonest
    cases hstopped.given j w hw hhonest with
    | before hold => exact .before hold
    | now _ _ hdue => cases hdue

theorem retire (h : f.Staffed handle.workers roster none old)
    (he : handle.retire backend lang (f, host) = (handle', g, host')) :
    g.Staffed handle'.workers roster none old := by
  unfold Handle.retire at he
  split at he
  · rename_i worker hw
    simp only [Prod.mk.injEq] at he
    obtain ⟨rfl, he⟩ := he
    have hforget : (terminate worker (f, host)).1.Staffed
        (handle.workers.filter (·.1 ≠ lang)) roster none old := h.forget hw
    have hsite : backend.terminate worker (f, host) = terminate worker (f, host) := rfl
    rw [hsite] at he
    rw [he] at hforget
    exact hforget
  · cases he
    exact h

/-- Running a job adds workers that were launched for it. A worker that is given the job, once, is
one of them or was known for its Lang before. -/
theorem runJobWith {retries : Nat} {job : Job} {result : Except Diagnostic Job}
    (h : f.Staffed handle.workers roster none old) (hempty : ∀ i, old i [])
    (hspec : spec.lang = job.lang)
    (hr : handle.runJobWith backend spec retries job (f, host) = some (result, handle', g, host')) :
    (∃ new : List Profile, (∀ p ∈ new, p.spec = spec) ∧
      g.Staffed handle'.workers (roster ++ new) none (Later job.fresh
        (fun i => roster.length ≤ i ∨ handle.workers.lookup job.lang = some i)
        (roster ++ new) old)) ∧
      ∀ j, result = .ok j → j.Alike job := by
  induction retries using Nat.strong_induction_on generalizing job handle f host roster old with
  | _ retries ih =>
  -- what the worker of the Lang is given after it was made sure that there is one
  have hgiven : ∀ {h₁ : Handle} {new : List Profile} {c : Fleet},
      c.Staffed h₁.workers (roster ++ new) none
        (Later job.fresh (h₁.workers.lookup job.lang = some ·) (roster ++ new) old) →
      (∀ i, h₁.workers.lookup job.lang = some i →
        roster.length ≤ i ∨ handle.workers.lookup job.lang = some i) →
      c.Staffed h₁.workers (roster ++ new) none (Later job.fresh
        (fun i => roster.length ≤ i ∨ handle.workers.lookup job.lang = some i)
        (roster ++ new) old) := by
    intro h₁ new c hc hknown
    refine hc.mono fun i j _ hj => hj.imp id ?_
    rintro ⟨js, hjs, hold, hi, hlang⟩
    exact ⟨js, hjs, hold, hknown i hi, hlang⟩
  cases Handle.submission_of_runJobWith hr with
  | unstarted he hsame =>
    subst hsame
    have hnothing := (h.ensureWorker hempty hspec he).1 _ rfl
    refine ⟨⟨[], fun _ hp => (nomatch hp), ?_⟩, fun _ hok => nomatch hok⟩
    rw [List.append_nil]
    exact hnothing.mono fun _ _ _ hold => .inl hold
  | stopped he =>
    obtain ⟨new, hnew, hready, -⟩ := (h.ensureWorker hempty hspec he).2 _ rfl
    exact ⟨⟨new, hnew, hready.mono fun _ _ _ hold => .inl hold⟩, fun _ hok => nomatch hok⟩
  | @refused s₁ d he hsub =>
    obtain ⟨f₁, host₁⟩ := s₁
    obtain ⟨new, hnew, hready, hknown⟩ := (h.ensureWorker hempty hspec he).2 _ rfl
    obtain ⟨-, hdone⟩ := hready.submit hsub
    exact ⟨⟨new, hnew, hgiven hdone hknown⟩, fun _ hok => nomatch hok⟩
  | @done s₁ finished he _ hsub =>
    obtain ⟨f₁, host₁⟩ := s₁
    obtain ⟨new, hnew, hready, hknown⟩ := (h.ensureWorker hempty hspec he).2 _ rfl
    obtain ⟨hfits, hdone⟩ := hready.submit hsub
    refine ⟨⟨new, hnew, hgiven hdone hknown⟩, fun j hj => ?_⟩
    cases hfits with
    | done halike =>
      unfold Handle.outcome at hj
      split at hj
      · cases hj
      · cases hj
        exact halike
  | @lost h₁ s₁ s₂ lost he hsub hretire =>
    obtain ⟨f₁, host₁⟩ := s₁
    obtain ⟨f₂, host₂⟩ := s₂
    obtain ⟨new, hnew, hready, hknown⟩ := (h.ensureWorker hempty hspec he).2 _ rfl
    obtain ⟨-, hdone⟩ := hready.submit hsub
    refine ⟨⟨new, hnew, ?_⟩, fun _ hok => nomatch hok⟩
    exact (hgiven hdone hknown).retire hretire
  | @again n h₁ h₂ s₁ s₂ s₃ lost _ he hsub hretire hn hr =>
    obtain ⟨f₁, host₁⟩ := s₁
    obtain ⟨f₂, host₂⟩ := s₂
    obtain ⟨f₃, host₃⟩ := s₃
    obtain ⟨new, hnew, hready, hknown⟩ := (h.ensureWorker hempty hspec he).2 _ rfl
    obtain ⟨hfits, hdone⟩ := hready.submit hsub
    cases hfits with
    | lost =>
      have hspec' : spec.lang = ({ job.fresh with active := false } : Job).lang := hspec
      obtain ⟨⟨more, hmore, hend⟩, hok⟩ :=
        ih n (by omega) (hdone.retire hretire) (fun i => .inl (hempty i)) hspec' hr
      refine ⟨⟨new ++ more, ?_, ?_⟩, hok⟩
      · intro p hp
        exact (List.mem_append.1 hp).elim (hnew p) (hmore p)
      · rw [← List.append_assoc]
        refine hend.mono fun i js _ hjs => ?_
        rcases hjs with (hold | ⟨js', rfl, hold, hi, hlang⟩) | ⟨js', rfl, hold, hi, hlang⟩
        · exact .inl hold
        · -- the job was given to the first worker and lost
          have hlt := hdone.hired _ _ hi
          refine .inr ⟨js', rfl, hold, hknown i hi, fun p hp => hlang p ?_⟩
          rwa [List.getElem?_append_left hlt] at hp
        · -- the handle has forgotten that one, so that now it goes to one that is launched for it
          have hfresh : (roster ++ new).length ≤ i := by
            refine hi.resolve_right fun hi => ?_
            cases (Handle.lookup_of_retire hretire).symm.trans hi
          rcases hold with hold | ⟨_, -, -, hi', -⟩
          · refine .inr ⟨js', rfl, hold, .inl ?_, hlang⟩
            rw [List.length_append] at hfresh
            omega
          · have := hdone.hired _ _ hi'
            omega

end Staffed
end Fleet
end Guest
end Ditlang
