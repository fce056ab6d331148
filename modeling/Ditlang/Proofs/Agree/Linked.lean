import Ditlang.Proofs.Eval.Runs
import Ditlang.Proofs.Heap.Unplaced
import Ditlang.Proofs.Token.Continued

/-!
# Ditlang.Proofs.Agree.Linked

Two runs side by side. The same program text is read in two sources, where it may stand in
different places, and in the second source it may go on on a new line (`Pairing`). As long as the
first run has not come to the end of its source, the two states are `Linked`: they are the same
without source coordinates, and the bytes ahead of the first are ahead of the second too. Once it
has come to the end it is `Lost`, and the second run is somewhere behind.
-/

namespace Ditlang

open Source (Location View Feed)

/-! ## Faults without source coordinates -/

def Diagnostic.unplaced (d : Diagnostic) : Diagnostic :=
  { d with
    origin := d.origin.map fun o => { o with loc := .start, code := "" }
    pending := d.pending.map fun _ => .start
    trace := d.trace.map ({ · with loc := .start }) }

def Failure.unplaced (e : Failure) : Failure :=
  e.mapDiagnostic Diagnostic.unplaced

namespace Diagnostic

theorem annotate_unplaced (d : Diagnostic) (path : String) (loc : Location) (code : String) :
    (d.annotate path loc code).unplaced = d.unplaced.annotate path .start "" := by
  obtain ⟨kind, message, origin, pending, trace, notes⟩ := d
  cases origin <;> cases pending <;> rfl

theorem addTrace_unplaced (d : Diagnostic) (path : String) (loc : Location) (tag : String) :
    (d.addTrace path loc tag).unplaced = d.unplaced.addTrace path .start tag := by
  simp [addTrace, unplaced]

end Diagnostic

theorem Failure.traced_unplaced (e : Failure) (path : String) (loc : Location) (tag : String) :
    (e.traced path loc tag).unplaced = e.unplaced.traced path .start tag := by
  cases e with
  | io reason => rfl
  | diagnostic d =>
    have hknown : (Failure.diagnostic d).unplaced.isAnnotated = d.isAnnotated := by
      simp [unplaced, mapDiagnostic, isAnnotated, Diagnostic.isAnnotated, Diagnostic.unplaced]
    rw [traced, traced, hknown, isAnnotated]
    split
    · exact congrArg Failure.diagnostic (d.addTrace_unplaced path loc tag)
    · rfl

/-! ## Sessions without source coordinates -/

namespace Session

/-- The session without source coordinates, and without what it keeps of the bodies that were run. -/
def unplaced (s : Session) : Session :=
  { s with heap := s.heap.unplaced s.main, log := [] }

@[simp] theorem unplaced_note (s : Session) (e : BodyEvent) : (s.note e).unplaced = s.unplaced := rfl

/-- Two sessions are the same without source coordinates. -/
def Alike (s t : Session) : Prop :=
  s.unplaced = t.unplaced

namespace Alike

variable {s t : Session}

theorem refl (s : Session) : s.Alike s := rfl

theorem main (hst : s.Alike t) : s.main = t.main :=
  congrArg (·.main) hst

theorem heap (hst : s.Alike t) : s.heap.Alike s.main t.heap := by
  have hheap : s.heap.unplaced s.main = t.heap.unplaced t.main := congrArg (·.heap) hst
  rwa [← hst.main] at hheap

/-- What a session has beside its store is the same. -/
theorem eq (hst : s.Alike t) {α : Type} {f : Session → α} (hf : ∀ s, f s.unplaced = f s) :
    f s = f t := by
  rw [← hf, hst, hf]

/-- A change that leaves the store and the main dit alone. -/
theorem map (hst : s.Alike t) {f : Session → Session} (hf : ∀ s, (f s).unplaced = f s.unplaced) :
    (f s).Alike (f t) := by
  rw [Alike, hf, hst, hf]

theorem setHeap (hst : s.Alike t) {h k : Heap} (hk : h.Alike s.main k) :
    ({ s with heap := h } : Session).Alike { t with heap := k } := by
  have hset (s : Session) (h : Heap) : ({ s with heap := h } : Session).unplaced =
      { s.unplaced with heap := h.unplaced s.main } := rfl
  rw [Alike, hset s h, hset t k, hst, hk, hst.main]

theorem note (hst : s.Alike t) (e e' : BodyEvent) : (s.note e).Alike (t.note e') :=
  hst

end Alike
end Session

/-! ## Cursors -/

namespace Source.Feed

/-- The bytes ahead are those of the buffer at the cursor. -/
def Anchored (f : Feed) : Prop :=
  f.rest <+: f.view.buffer.drop (f.view.first + f.loc.pos)

/-- The bytes ahead of a first cursor are ahead of a second one too, and then there is `after`. Two
different cursors stand where their places say. -/
inductive Linked (after : List UInt8) : Feed → Feed → Prop where
  | same (f : Feed) : after = [] → Linked after f f
  | anchored {f g : Feed} : f.Anchored → g.Anchored → g.rest = f.rest ++ after → Linked after f g

theorem advance_loc_pos (f : Feed) {n : Nat} (hn : n ≤ f.rest.length) :
    (f.advance n).loc.pos = f.loc.pos + n := by
  induction n generalizing f with
  | zero => rfl
  | succ n ih =>
    rw [advance]
    split
    · rename_i h
      rw [h] at hn
      cases hn
    · rename_i b rest h
      rw [h, List.length_cons] at hn
      rw [ih _ (by simpa using hn)]
      simp only [Location.after_pos]
      omega

theorem anchored_ofView {v : View} (hv : v.startLoc.pos = 0) : (Feed.ofView v).Anchored := by
  rw [Anchored, ofView, hv]
  exact List.take_prefix _ _

theorem Anchored.advance {f : Feed} (hf : f.Anchored) {n : Nat} (hn : n ≤ f.rest.length) :
    (f.advance n).Anchored := by
  rw [Anchored, advance_view, advance_rest, advance_loc_pos f hn, ← Nat.add_assoc,
    ← List.drop_drop]
  exact hf.drop n

namespace Linked

variable {after : List UInt8} {f g : Feed}

theorem rest (hfg : Linked after f g) : g.rest = f.rest ++ after := by
  cases hfg with
  | same ha => rw [ha, List.append_nil]
  | anchored _ _ hr => exact hr

theorem advance (hfg : Linked after f g) {n : Nat} (hn : n ≤ f.rest.length) :
    Linked after (f.advance n) (g.advance n) := by
  cases hfg with
  | same ha => exact .same _ ha
  | anchored hf hg hr =>
    have hlen : g.rest.length = f.rest.length + after.length := by rw [hr, List.length_append]
    refine .anchored (hf.advance hn) (hg.advance (by omega)) ?_
    rw [advance_rest, advance_rest, hr, List.drop_append_of_le_length hn]

theorem anchored_right (hfg : Linked after f g) (ha : after ≠ []) : g.Anchored := by
  cases hfg with
  | same h => exact absurd h ha
  | anchored _ hg _ => exact hg

/-- Cursors at the start of views with the same text. -/
theorem ofView {v w : View} (hvw : v.unplaced = w.unplaced) :
    Linked [] (.ofView v) (.ofView w) := by
  have hbytes := View.bytes_eq hvw
  unfold View.unplaced at hvw
  split at hvw
  · rename_i hv
    split at hvw
    · rename_i hw
      exact .anchored (anchored_ofView hv) (anchored_ofView hw) (by simp [Feed.ofView, hbytes])
    · rename_i hw
      exact absurd (congrArg (·.startLoc.pos) hvw).symm hw
  · rename_i hv
    split at hvw
    · exact absurd (congrArg (·.startLoc.pos) hvw) hv
    · exact hvw ▸ .same _ rfl

end Linked
end Source.Feed

/-! ## States -/

/-- How two runs are compared. -/
structure Pairing where
  main : ContainerId
  mainPath : String
  /-- The container in which both run. -/
  body : ContainerId
  /-- The file that both read, by name. -/
  path : String
  /-- What the second source goes on with on a new line, if it does. -/
  more : Option (List UInt8)
  /-- The first run has at most so many bytes ahead. -/
  bound : Nat
  /-- Whether the values of expression statements are compared. -/
  kept : Bool

/-- What stands in the second source after the first. -/
def Pairing.after (p : Pairing) : List UInt8 :=
  match p.more with
  | none => []
  | some bytes => 10 :: bytes

/-- Two tokens are the same but for their places. -/
structure Token.Alike (t u : Token) : Prop where
  kind : t.kind = u.kind
  payload : t.payload = u.payload

namespace Token.Alike

variable {t u : Token} (htu : t.Alike u)

include htu

theorem word? : t.word? = u.word? := by
  rw [Token.word?, Token.word?, htu.payload]

theorem word : t.word = u.word := by
  rw [Token.word, Token.word, htu.word?]

theorem slot? : t.slot? = u.slot? := by
  rw [Token.slot?, Token.slot?, htu.payload]

theorem name? : t.name? = u.name? := by
  rw [Token.name?, Token.name?, htu.kind, htu.word?]

end Token.Alike

/-- Two readings stand before the same token of the same text. -/
structure Reading.Alike (r q : Reading) : Prop where
  body : r.body = q.body
  path : r.path = q.path
  fragment : r.fragment = q.fragment
  next : r.next.Alike q.next

/-- The states of two runs that have come equally far. -/
structure Linked (p : Pairing) (s t : EvalState) : Prop where
  session : s.session.Alike t.session
  main : s.session.main = p.main
  mainPath : s.session.mainPath = p.mainPath
  body : s.reading.body = p.body
  path : s.reading.path = p.path
  reading : s.reading.Alike t.reading
  feed : Feed.Linked p.after s.reading.feed t.reading.feed
  rest : s.reading.feed.rest.length ≤ p.bound
  lastValue : p.kept = true → s.reading.lastValue = t.reading.lastValue
  program : p.more ≠ none → s.reading.fragment = false

/-- The first run has come to the end of its source, and the second has not. -/
structure Lost (p : Pairing) (s : EvalState) : Prop where
  more : p.more ≠ none
  program : s.reading.fragment = false
  next : s.reading.next.kind = .eof
  rest : s.reading.feed.rest = []

theorem Linked.heap {p : Pairing} {s t : EvalState} (hst : Linked p s t) :
    s.session.heap.Alike p.main t.session.heap :=
  hst.main ▸ hst.session.heap

theorem Linked.setSession {p : Pairing} {s t : EvalState} (hst : Linked p s t) {u v : Session}
    (huv : u.Alike v) (hmain : u.main = s.session.main) (hpath : u.mainPath = s.session.mainPath) :
    Linked p { s with session := u } { t with session := v } :=
  ⟨huv, hmain.trans hst.main, hpath.trans hst.mainPath, hst.body, hst.path, hst.reading, hst.feed,
    hst.rest, hst.lastValue, hst.program⟩

theorem Linked.setHeap {p : Pairing} {s t : EvalState} (hst : Linked p s t) {h k : Heap}
    (hk : h.Alike p.main k) :
    Linked p { s with session := { s.session with heap := h } }
      { t with session := { t.session with heap := k } } :=
  hst.setSession (hst.session.setHeap (hst.main ▸ hk)) rfl rfl

theorem Lost.setSession {p : Pairing} {s : EvalState} (hs : Lost p s) (u : Session) :
    Lost p { s with session := u } :=
  ⟨hs.more, hs.program, hs.next, hs.rest⟩

end Ditlang
