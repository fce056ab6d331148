import Ditlang.Host.Loading
import Mathlib.Data.List.TakeWhile

/-!
# Ditlang.Proofs.Host.Imports

Where relative imports lead from a URL. A relative target takes the place of what stands behind the last
slash of the importer. If there is a slash behind the server, imports and imports of imports stay on
that server (`importChain_of_slash`). A URL without one ends in the slashes of its scheme, and a target takes
the place of the server itself (`origin_resolveImport_of_no_slash`). So a slash behind the server is what
decides (`relative_imports_stay_iff_slash`).
-/

namespace Ditlang
namespace Host
namespace Url

/-! ## The server of a URL -/

/-- A text without the characters that do not count in a URL. -/
def counted (cs : List Char) : List Char :=
  cs.filter fun c => !(c = '\t' || c = '\n' || c = '\r')

/-- A text without the white space at its end. -/
def trimEnd (cs : List Char) : List Char :=
  (cs.reverse.dropWhile fun c => c.toNat ≤ 32).reverse

/-- What follows the colon of a scheme and the slashes there. -/
def afterSlashes (rest : List Char) : List Char :=
  rest.tail.dropWhile fun c => c = '/' || c = '\\'

/-- What stands behind the scheme of a URL and the slashes that follow it. -/
def afterScheme (cs : List Char) : List Char :=
  afterSlashes (upTo [':'] (counted cs)).2

/-- The characters of which the first one ends what names the server. -/
def authorityStops : List Char := ['/', '\\', '?', '#']

/-- The scheme of a URL, and the text that names its server. -/
def origin (url : String) : List Char × List Char :=
  let (scheme, rest) := upTo [':'] (trimEnd (counted url.toList))
  (scheme, (upTo authorityStops (afterSlashes rest)).1)

/-- The server a URL leads to: whether the connection is secure, the host and the service number. -/
def server (url : String) : Except UrlFault (Bool × Destination × Option Nat) :=
  (ofText url).map fun u => (u.secure, u.host, u.service)

/-- The server that a scheme and the text behind it name. -/
def serverOf (scheme authority : List Char) : Except UrlFault (Bool × Destination × Option Nat) := do
  let secure := scheme = "https".toList
  let (host, service) := splitService false (splitUser authority).2
  let host ← readHost host
  let service ← readService secure service.tail
  pure (secure, host, service)

theorem exceptMap_bind {ε α β γ : Type} (f : β → γ) (x : Except ε α) (g : α → Except ε β) :
    (x >>= g).map f = x >>= fun a => (g a).map f := by
  cases x <;> rfl

/-- Path, query and fragment have no part in where a URL leads. -/
theorem server_eq (url : String) : server url = serverOf (origin url).1 (origin url).2 := by
  unfold server ofText serverOf
  simp only [exceptMap_bind]
  rfl

/-! ## Texts that go on after a slash -/

/-- A text in which a stop was found goes on behind it. -/
theorem upTo_append {stops xs : List Char} (hx : (upTo stops xs).2 ≠ []) (ys : List Char) :
    upTo stops (xs ++ ys) = ((upTo stops xs).1, (upTo stops xs).2 ++ ys) := by
  unfold upTo at hx ⊢
  dsimp only at hx ⊢
  have hlen : (xs.takeWhile fun c => !stops.contains c).length ≠ xs.length := by
    intro hlen
    have hall := List.takeWhile_append_dropWhile (p := fun c => !stops.contains c) (l := xs)
    rw [(List.takeWhile_prefix _).eq_of_length hlen] at hall
    exact hx (List.append_right_eq_self.1 hall)
  rw [List.takeWhile_append, if_neg hlen, List.dropWhile_append, if_neg (by simpa using hx)]

/-- What stands before a stop is found whatever follows the stop. -/
theorem upTo_append_cons {stops : List Char} {c : Char} (hc : c ∈ stops)
    (xs ys : List Char) : (upTo stops (xs ++ c :: ys)).1 = (upTo stops xs).1 := by
  unfold upTo
  dsimp only
  rw [List.takeWhile_append, List.takeWhile_cons_of_neg (by simp [hc]), List.append_nil]
  split
  · rename_i hlen
    exact ((List.takeWhile_prefix _).eq_of_length hlen).symm
  · rfl

theorem counted_append (p x : List Char) :
    counted (p ++ '/' :: x) = counted p ++ '/' :: counted x := by
  unfold counted
  rw [List.filter_append, List.filter_cons_of_pos (by decide)]

/-- White space before a slash is not at the end. -/
theorem trimEnd_append (p x : List Char) : trimEnd (p ++ '/' :: x) = p ++ '/' :: trimEnd x := by
  unfold trimEnd
  rw [List.reverse_append, List.reverse_cons, List.append_assoc, List.dropWhile_append]
  split
  · rename_i hnil
    rw [List.isEmpty_iff.1 hnil]
    simp
  · simp

theorem upTo_colon_ne_nil {cs : List Char} (hc : ':' ∈ cs) : (upTo [':'] cs).2 ≠ [] := by
  unfold upTo
  rw [Ne, List.dropWhile_eq_nil_iff]
  simpa using hc

/-- Behind a colon and more than slashes, a text goes on. -/
theorem afterSlashes_append {rest : List Char} (hr : afterSlashes rest ≠ []) (ys : List Char) :
    afterSlashes (rest ++ ys) = afterSlashes rest ++ ys := by
  cases rest with
  | nil => exact absurd rfl hr
  | cons c rest =>
    unfold afterSlashes at hr ⊢
    rw [List.cons_append, List.tail_cons, List.dropWhile_append, if_neg (by simpa using hr)]
    rfl

/-- Behind a colon and nothing but slashes, one more slash is passed over as well. -/
theorem afterSlashes_append_slash {rest : List Char} (hne : rest ≠ []) (hr : afterSlashes rest = [])
    (ys : List Char) : afterSlashes (rest ++ '/' :: ys) = afterSlashes (':' :: ys) := by
  cases rest with
  | nil => exact absurd rfl hne
  | cons c rest =>
    unfold afterSlashes at hr ⊢
    rw [List.tail_cons] at hr
    rw [List.cons_append, List.tail_cons, List.dropWhile_append, if_pos (by simpa using hr),
      List.dropWhile_cons_of_pos (by decide), List.tail_cons]

section

variable {p : List Char} (hcolon : ':' ∈ counted p)

include hcolon

/-- A server is named by what stands before the first slash behind it. -/
theorem origin_append (hp : afterScheme p ≠ []) (x : List Char) :
    origin (String.ofList (p ++ '/' :: x)) =
      ((upTo [':'] (counted p)).1, (upTo authorityStops (afterScheme p)).1) := by
  unfold origin
  rw [String.toList_ofList, counted_append, trimEnd_append, upTo_append (upTo_colon_ne_nil hcolon)]
  dsimp only
  rw [afterSlashes_append hp, upTo_append_cons (by decide)]
  rfl

theorem origin_append_of_eq_nil (hp : afterScheme p = []) (x : List Char) :
    origin (String.ofList (p ++ '/' :: x)) =
      ((upTo [':'] (counted p)).1,
        (upTo authorityStops (afterSlashes (':' :: trimEnd (counted x)))).1) := by
  unfold origin
  rw [String.toList_ofList, counted_append, trimEnd_append, upTo_append (upTo_colon_ne_nil hcolon)]
  dsimp only
  rw [afterSlashes_append_slash (upTo_colon_ne_nil hcolon) hp]

theorem afterScheme_append (hp : afterScheme p ≠ []) (x : List Char) :
    afterScheme (p ++ '/' :: x) = afterScheme p ++ '/' :: counted x := by
  unfold afterScheme
  rw [counted_append, upTo_append (upTo_colon_ne_nil hcolon)]
  exact afterSlashes_append hp _

/-- There is a slash behind the server when there is anything between the slashes of the scheme and the
last slash. -/
theorem slash_mem_afterScheme_iff {last : List Char} (hl : '/' ∉ last) :
    '/' ∈ afterScheme (p ++ '/' :: last) ↔ afterScheme p ≠ [] := by
  constructor
  · intro hmem hp
    unfold afterScheme at hmem
    rw [counted_append, upTo_append (upTo_colon_ne_nil hcolon)] at hmem
    dsimp only at hmem
    rw [afterSlashes_append_slash (upTo_colon_ne_nil hcolon) hp] at hmem
    have hsub := (List.dropWhile_suffix _).subset hmem
    exact hl (List.mem_filter.1 hsub).1
  · intro hp
    rw [afterScheme_append hcolon hp]
    simp

end

/-! ## URLs up to their last slash -/

/-- A text that is a URL up to its last slash: what stands before it, and what stands behind. -/
structure Cut (url : String) (dir last : List Char) : Prop where
  toList : url.toList = dir ++ '/' :: last
  slashless : '/' ∉ last
  scheme : "http://".toList <+: dir ++ ['/'] ∨ "https://".toList <+: dir ++ ['/']

theorem exists_cut_at_last_slash {cs : List Char} (hc : '/' ∈ cs) :
    ∃ dir last, cs = dir ++ '/' :: last ∧ '/' ∉ last := by
  induction cs with
  | nil => cases hc
  | cons c cs ih =>
    by_cases hcs : '/' ∈ cs
    · obtain ⟨dir, last, rfl, hl⟩ := ih hcs
      exact ⟨c :: dir, last, rfl, hl⟩
    · obtain rfl : '/' = c := (List.mem_cons.1 hc).resolve_right hcs
      exact ⟨[], cs, rfl, hcs⟩

/-- What ends in a slash ends at the last slash or before it. -/
theorem prefix_of_slash {u dir last : List Char} (hl : '/' ∉ last)
    (hu : u ++ ['/'] <+: dir ++ '/' :: last) : u ++ ['/'] <+: dir ++ ['/'] := by
  induction u generalizing dir with
  | nil =>
    cases dir with
    | nil => exact List.prefix_rfl
    | cons d dir => exact List.cons_prefix_cons.2 ⟨(List.cons_prefix_cons.1 hu).1, List.nil_prefix⟩
  | cons c u ih =>
    cases dir with
    | nil =>
      have hrest := (List.cons_prefix_cons.1 hu).2
      exact absurd (hrest.subset (List.mem_append_right _ List.mem_cons_self)) hl
    | cons d dir =>
      obtain ⟨hcd, hrest⟩ := List.cons_prefix_cons.1 hu
      exact List.cons_prefix_cons.2 ⟨hcd, ih hrest⟩

theorem isUrl_iff {url : String} : isUrl url = true ↔
    "http://".toList <+: url.toList ∨ "https://".toList <+: url.toList := by
  rw [isUrl, Bool.or_eq_true, List.isPrefixOf_iff_prefix, List.isPrefixOf_iff_prefix]

theorem exists_cut {url : String} (hu : isUrl url = true) : ∃ dir last, Cut url dir last := by
  rw [isUrl_iff] at hu
  have hslash : '/' ∈ url.toList := by
    rcases hu with hu | hu
    · exact hu.subset (by decide)
    · exact hu.subset (by decide)
  obtain ⟨dir, last, he, hl⟩ := exists_cut_at_last_slash hslash
  rw [he] at hu
  refine ⟨dir, last, he, hl, hu.imp ?_ ?_⟩
  · exact prefix_of_slash (u := "http:/".toList) hl
  · exact prefix_of_slash (u := "https:/".toList) hl

namespace Cut

variable {url : String} {dir last : List Char}

theorem beforeLastSlash (hc : Cut url dir last) :
    beforeLastSlash? url = some (String.ofList dir) := by
  have hlast : ∀ c ∈ last.reverse, (decide (c ≠ '/')) = true := by
    intro c hmem
    exact decide_eq_true fun he => hc.slashless (he ▸ List.mem_reverse.1 hmem)
  unfold beforeLastSlash?
  dsimp only
  rw [hc.toList, List.reverse_append, List.reverse_cons, List.append_assoc, if_pos (by simp)]
  rw [List.dropWhile_append_of_pos hlast]
  simp

theorem colon_mem (hc : Cut url dir last) : ':' ∈ counted dir := by
  refine List.mem_filter.2 ⟨?_, by decide⟩
  have hmem : ':' ∈ dir ++ ['/'] := by
    rcases hc.scheme with h | h
    · exact h.subset (by decide)
    · exact h.subset (by decide)
  simpa using hmem

/-- A text that goes on differently behind the last slash is a URL too. -/
theorem isUrl_append (hc : Cut url dir last) (x : List Char) :
    isUrl (String.ofList (dir ++ '/' :: x)) = true := by
  have hdir : dir ++ ['/'] <+: (String.ofList (dir ++ '/' :: x)).toList := by
    rw [String.toList_ofList, List.append_cons dir '/' x]
    exact List.prefix_append _ _
  exact isUrl_iff.2 (hc.scheme.imp (·.trans hdir) (·.trans hdir))

theorem eq_ofList (hc : Cut url dir last) : url = String.ofList (dir ++ '/' :: last) := by
  rw [← hc.toList, String.ofList_toList]

theorem isUrl (hc : Cut url dir last) : isUrl url = true := by
  rw [hc.eq_ofList]
  exact hc.isUrl_append last

theorem slash_mem_iff (hc : Cut url dir last) :
    '/' ∈ afterScheme url.toList ↔ afterScheme dir ≠ [] := by
  rw [hc.toList]
  exact slash_mem_afterScheme_iff hc.colon_mem hc.slashless

end Cut

end Url

/-! ## Imports of imports -/

/-- A target that is neither a URL nor an absolute path. -/
def Relative (target : String) : Prop :=
  Url.isUrl target = false ∧ Path.isAbsolute target = false

instance Relative.decidable : DecidablePred Relative :=
  fun t => inferInstanceAs (Decidable (Url.isUrl t = false ∧ Path.isAbsolute t = false))

/-- The paths of a chain of imports: the first target is imported by `importer`, and every further one
by the file before it. -/
def importChain : String → List String → List String
  | _, [] => []
  | importer, target :: rest =>
    resolveImport target importer :: importChain (resolveImport target importer) rest

open Url

/-- A relative import from a URL goes on behind its last slash. -/
theorem resolveImport_of_cut {importer target : String} {dir last : List Char}
    (hc : Cut importer dir last) (ht : Relative target) :
    resolveImport target importer = String.ofList (dir ++ '/' :: target.toList) := by
  unfold resolveImport
  rw [ht.1, ht.2, Bool.or_self, if_neg (by decide), if_pos hc.isUrl, hc.beforeLastSlash]
  apply String.toList_inj.1
  simp

section

variable {importer : String}

/-- A URL with a slash behind its server leads to such a URL on the same server. -/
theorem resolveImport_of_slash (hu : isUrl importer = true) (hs : '/' ∈ afterScheme importer.toList)
    {target : String} (ht : Relative target) :
    isUrl (resolveImport target importer) = true ∧
      '/' ∈ afterScheme (resolveImport target importer).toList ∧
      origin (resolveImport target importer) = origin importer := by
  obtain ⟨dir, last, hc⟩ := exists_cut hu
  have hdir := hc.slash_mem_iff.1 hs
  rw [resolveImport_of_cut hc ht]
  refine ⟨hc.isUrl_append _, ?_, ?_⟩
  · rw [String.toList_ofList, afterScheme_append hc.colon_mem hdir]
    exact List.mem_append_right _ List.mem_cons_self
  · rw [hc.eq_ofList, origin_append hc.colon_mem hdir, origin_append hc.colon_mem hdir]

/-- All imports and imports of imports of a URL with a slash behind its server stay on the server. -/
theorem importChain_of_slash (hu : isUrl importer = true) (hs : '/' ∈ afterScheme importer.toList)
    {targets : List String} (ht : ∀ t ∈ targets, Relative t) :
    ∀ path ∈ importChain importer targets, isUrl path = true ∧ origin path = origin importer := by
  induction targets generalizing importer with
  | nil => exact fun _ hp => nomatch hp
  | cons target rest ih =>
    rw [List.forall_mem_cons] at ht
    obtain ⟨hurl, hslash, horigin⟩ := resolveImport_of_slash hu hs ht.1
    rw [importChain, List.forall_mem_cons]
    refine ⟨⟨hurl, horigin⟩, fun path hpath => ?_⟩
    exact (ih hurl hslash ht.2 path hpath).imp_right (·.trans horigin)

/-- Without a slash behind its server, a URL is imported from as if it were its scheme alone: the target
names the server. -/
theorem origin_resolveImport_of_no_slash (hu : isUrl importer = true)
    (hs : '/' ∉ afterScheme importer.toList) {target : String} (ht : Relative target) :
    origin (resolveImport target importer) =
      ((origin importer).1,
        (upTo authorityStops (afterSlashes (':' :: trimEnd (counted target.toList)))).1) := by
  obtain ⟨dir, last, hc⟩ := exists_cut hu
  have hdir : afterScheme dir = [] := by
    rw [hc.slash_mem_iff, not_not] at hs
    exact hs
  rw [resolveImport_of_cut hc ht, hc.eq_ofList, origin_append_of_eq_nil hc.colon_mem hdir,
    origin_append_of_eq_nil hc.colon_mem hdir]

end

/-- Two targets that name different servers, if a target can name one. -/
theorem serverOf_address (scheme : List Char) (last : Nat) (hl : last = 1 ∨ last = 2) :
    serverOf scheme ("[::".toList ++ Nat.toDigits 10 last ++ [']']) =
      .ok (scheme = "https".toList, .address (.six [0, 0, 0, 0, 0, 0, 0, last]), none) := by
  rcases hl with rfl | rfl
  · rfl
  · rfl

/-- The relative imports of a URL, and the imports of these, stay on its server when there is a slash
behind the server, and only then: otherwise there is a target that leads to another server. -/
theorem relative_imports_stay_iff_slash {importer : String} (hu : isUrl importer = true) :
    ('/' ∈ afterScheme importer.toList → ∀ targets, (∀ t ∈ targets, Relative t) →
      ∀ path ∈ importChain importer targets,
        isUrl path = true ∧ origin path = origin importer ∧ server path = server importer) ∧
    ('/' ∉ afterScheme importer.toList →
      ∃ target, Relative target ∧ server (resolveImport target importer) ≠ server importer) := by
  constructor
  · intro hs targets ht path hpath
    obtain ⟨hurl, horigin⟩ := importChain_of_slash hu hs ht path hpath
    exact ⟨hurl, horigin, by rw [server_eq, server_eq, horigin]⟩
  · intro hs
    -- Two targets lead to two servers, and the importer can be on one of them only.
    have hfirst : Relative "[::1]" := by decide
    have hsecond : Relative "[::2]" := by decide
    by_contra hnone
    have hno : ∀ t, Relative t → server (resolveImport t importer) = server importer :=
      fun t ht => by_contra fun hne => hnone ⟨t, ht, hne⟩
    have hsame := (hno _ hfirst).trans (hno _ hsecond).symm
    rw [server_eq, server_eq, origin_resolveImport_of_no_slash hu hs hfirst,
      origin_resolveImport_of_no_slash hu hs hsecond] at hsame
    have h1 := serverOf_address (origin importer).1 1 (.inl rfl)
    have h2 := serverOf_address (origin importer).1 2 (.inr rfl)
    have hcontra := h1.symm.trans (hsame.trans h2)
    simp at hcontra

theorem relative_imports_stay_iff_slash_in_query :
    isUrl "http://[::1]:8080?file=a/b.dit" = true ∧
      importChain "http://[::1]:8080?file=a/b.dit" ["../c.dit", "d.dit"] =
        ["http://[::1]:8080?file=a/../c.dit", "http://[::1]:8080?file=a/../d.dit"] ∧
      ∀ path ∈ importChain "http://[::1]:8080?file=a/b.dit" ["../c.dit", "d.dit"],
        isUrl path = true ∧ origin path = origin "http://[::1]:8080?file=a/b.dit" ∧
          server path = server "http://[::1]:8080?file=a/b.dit" := by
  have hu : isUrl "http://[::1]:8080?file=a/b.dit" = true := by decide
  have hs : '/' ∈ afterScheme "http://[::1]:8080?file=a/b.dit".toList := by decide
  exact ⟨hu, by decide, (relative_imports_stay_iff_slash hu).1 hs _ (by decide)⟩

/-- A file that is imported relative to a URL without a path is asked for from the server that its own
name begins with. -/
theorem import_asks_other_server :
    isUrl "http://127.0.0.1:1" = true ∧ Relative "127.0.0.1/x.dit" ∧
      resolveImport "127.0.0.1/x.dit" "http://127.0.0.1:1" = "http://127.0.0.1/x.dit" ∧
      origin "http://127.0.0.1:1" = ("http".toList, "127.0.0.1:1".toList) ∧
      origin "http://127.0.0.1/x.dit" = ("http".toList, "127.0.0.1".toList) ∧
      server (resolveImport "[::2]/x.dit" "http://[::1]") ≠ server "http://[::1]" := by
  decide

end Host
end Ditlang
