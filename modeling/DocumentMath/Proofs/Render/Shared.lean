import DocumentMath.Proofs.Render.Storing

/-!
# Renderers that share a directory

Renderers with the same engine and the same settings may write to one directory, and their calls may
come in any order (`SharedState.callAll`). If no identifiers are given, each of them does what it
does alone, and the files are the same in the end for every order of the calls
(`SharedState.calls_independent`).

Two facts carry the proof. What a renderer makes of an equation depends on what it keeps and on the
engine alone, as long as its writes succeed (`Renderer.answered`, `RenderState.render_answered`).
And what is in the directory is told by the calls so far, whoever made them, as a set
(`SharedState.Follows`); a file that is written twice has the same bytes, since its name is computed
from what they are made of.
-/

namespace DocumentMath

open RenderState (markupEngine markupSettings)
open Text (Bytes)

variable {σ : Type}

/-! ### A renderer whose writes succeed -/

namespace Renderer

/-- What a renderer makes of an equation, if its writes succeed. -/
def answered (engine : Engine) (s : RenderSettings) (e : NamedInput) (r : Renderer) :
    Except Error Artifact × Renderer :=
  match r.cached? e.identifier with
  | some a => (.ok a, r)
  | none =>
    match s.outcome e.identifier (engine (s.request e.input)) with
    | .ok a => (.ok a, (r.stored s).keep a)
    | .error error => (.error error, r)

/-- What a renderer makes of equations, one after the other. -/
def answerAll (engine : Engine) (s : RenderSettings) :
    List NamedInput → Renderer → List Attempt × Renderer
  | [], r => ([], r)
  | e :: es, r =>
    let (result, r) := r.answered engine s e
    let (as, r) := answerAll engine s es r
    (⟨e, result⟩ :: as, r)

theorem answerAll_cons (engine : Engine) (s : RenderSettings) (e : NamedInput)
    (es : List NamedInput) (r : Renderer) :
    answerAll engine s (e :: es) r
      = (⟨e, (r.answered engine s e).1⟩ :: (answerAll engine s es (r.answered engine s e).2).1,
          (answerAll engine s es (r.answered engine s e).2).2) := rfl

/-- The files that come of an equation. -/
def filesNow (engine : Engine) (s : RenderSettings) (e : NamedInput) (r : Renderer) :
    List (String × Bytes) :=
  if (r.cached? e.identifier).isSome then []
  else s.filesFrom e.identifier (engine (s.request e.input))

/-- Nothing is kept but what was kept before and the artifact of the equation. -/
theorem mem_identifiers_answered {engine : Engine} {s : RenderSettings} {e : NamedInput}
    {r : Renderer} {identifier : String}
    (h : identifier ∈ (r.answered engine s e).2.identifiers) :
    identifier ∈ r.identifiers ∨ identifier = e.identifier := by
  rw [answered] at h
  split at h
  · exact Or.inl h
  · split at h
    · next a houtcome =>
      have hidentifier := RenderSettings.identifier_of_outcome houtcome
      have hcache : (r.stored s).cache = r.cache := by
        rw [stored]
        split <;> rfl
      rw [identifiers, keep, hcache, List.map_append, List.mem_append] at h
      exact h.imp_right fun hnew ↦ (List.mem_singleton.mp hnew).trans hidentifier
    · exact Or.inl h

end Renderer

namespace RenderState

variable {host : Host σ} {files : σ → FileTree} {engine : Engine} {s : RenderSettings}
  {st : RenderState σ} {t₀ : FileTree} {deposited : List (String × Bytes)}

/-- What a renderer makes of an equation depends on what it keeps and on the engine, if the files of
the answer could be written in the beginning. -/
theorem render_answered (hengine : host.Answers engine) (hfiles : host.KeepsFiles files)
    (hdeposits : st.Deposits files s deposited t₀) {e : NamedInput}
    (hslash : '/' ∉ e.identifier.toList)
    (hsame : ∀ f ∈ deposited, ∀ g ∈ s.filesFrom e.identifier (engine (s.request e.input)),
      f.1 = g.1 → f.2 = g.2)
    (hwritable : ∀ f ∈ s.filesFrom e.identifier (engine (s.request e.input)), s.Writable t₀ f) :
    ∃ st', st.render host s e.input e.explicit? = ((st.renderer.answered engine s e).1, st') ∧
      st'.renderer = (st.renderer.answered engine s e).2 ∧
      st'.Deposits files s (deposited ++ st.renderer.filesNow engine s e) t₀ := by
  have hrender : st.render host s e.input e.explicit? = match st.renderer.cached? e.identifier with
      | some a => (.ok a, st)
      | none => st.renderNew host s e.identifier e.input := rfl
  rw [hrender, Renderer.answered, Renderer.filesNow]
  cases hcached : st.renderer.cached? e.identifier with
  | some a => exact ⟨st, rfl, rfl, (List.append_nil deposited).symm ▸ hdeposits⟩
  | none =>
    have hanswer : (host.typeset (s.request e.input) st.world).1 = engine (s.request e.input) :=
      hengine _ _
    have hresult := renderNew_of_writable hfiles hdeposits hslash (hanswer.symm ▸ hwritable)
    rw [if_neg (by decide)]
    rcases hnew : st.renderNew host s e.identifier e.input with ⟨result, st'⟩
    rw [hnew, hanswer] at hresult
    change result = _ at hresult
    cases houtcome : s.outcome e.identifier (engine (s.request e.input)) with
    | error error =>
      rw [← hanswer] at houtcome
      have hkept := files_renderNew_failure hfiles hdeposits houtcome
      have hrenderer := renderer_renderNew_failure houtcome
      rw [hnew] at hkept hrenderer
      rw [hanswer] at houtcome
      rw [RenderSettings.filesFrom_of_error houtcome, List.append_nil]
      exact ⟨st', congrArg (·, st') (hresult.trans houtcome), hrenderer, hkept⟩
    | ok a =>
      have hok : result = .ok a := hresult.trans houtcome
      subst hok
      rw [RenderSettings.filesFrom_of_ok houtcome] at hsame ⊢
      exact ⟨st', rfl, renderer_renderNew_ok hnew,
        files_renderNew_ok hfiles hdeposits hslash hsame hnew⟩

end RenderState

/-! ### Several renderers -/

/-- Renderers and the state of the surroundings they share. -/
structure SharedState (ι σ : Type) where
  renderers : ι → Renderer
  world : σ

namespace SharedState

variable {ι : Type}

/-- No renderer has been called yet. -/
def initial (world : σ) : SharedState ι σ :=
  ⟨fun _ ↦ .initial, world⟩

/-- One of the renderers with the surroundings. -/
def view (i : ι) (st : SharedState ι σ) : RenderState σ :=
  ⟨st.renderers i, st.world⟩

section Calls

variable [DecidableEq ι]

/-- Those of the calls, or of what has come of them, that are of one renderer. -/
def side {α : Type} (i : ι) (calls : List (ι × α)) : List α :=
  calls.filterMap fun c ↦ if c.1 = i then some c.2 else none

/-- One of the renderers is called, while the others wait. -/
def call (host : Host σ) (settings : ι → RenderSettings) (c : ι × NamedInput)
    (st : SharedState ι σ) : Except Error Artifact × SharedState ι σ :=
  let (result, after) := (st.view c.1).render host (settings c.1) c.2.input c.2.explicit?
  (result, ⟨Function.update st.renderers c.1 after.renderer, after.world⟩)

/-- The renderers are called one after the other, in the order of the calls. -/
def callAll (host : Host σ) (settings : ι → RenderSettings) :
    List (ι × NamedInput) → SharedState ι σ → List (ι × Attempt) × SharedState ι σ
  | [], st => ([], st)
  | c :: calls, st =>
    let (result, st) := st.call host settings c
    let (as, st) := callAll host settings calls st
    ((c.1, ⟨c.2, result⟩) :: as, st)

theorem side_cons_self {α : Type} (i : ι) (x : α) (calls : List (ι × α)) :
    side i ((i, x) :: calls) = x :: side i calls :=
  List.filterMap_cons_some (if_pos rfl)

theorem side_cons_of_ne {α : Type} {i j : ι} (h : j ≠ i) (x : α) (calls : List (ι × α)) :
    side i ((j, x) :: calls) = side i calls :=
  List.filterMap_cons_none (if_neg h)

theorem callAll_cons (host : Host σ) (settings : ι → RenderSettings) (c : ι × NamedInput)
    (calls : List (ι × NamedInput)) (st : SharedState ι σ) :
    callAll host settings (c :: calls) st
      = ((c.1, ⟨c.2, (st.call host settings c).1⟩)
            :: (callAll host settings calls (st.call host settings c).2).1,
          (callAll host settings calls (st.call host settings c).2).2) := rfl

theorem mem_side {α : Type} {i : ι} {x : α} {calls : List (ι × α)} :
    x ∈ side i calls ↔ (i, x) ∈ calls := by
  rw [side, List.mem_filterMap]
  constructor
  · rintro ⟨⟨j, y⟩, hc, heq⟩
    split at heq <;> cases heq
    next hj => exact hj ▸ hc
  · exact fun hc ↦ ⟨(i, x), hc, if_pos rfl⟩

theorem side_map {α : Type} (i : ι) (xs : List α) : side i (xs.map (i, ·)) = xs := by
  induction xs with
  | nil => rfl
  | cons x xs ih => rw [List.map_cons, side_cons_self, ih]

/-- A renderer whose calls are the only ones is called as if it were alone. -/
theorem callAll_map (host : Host σ) (settings : ι → RenderSettings) (i : ι) (es : List NamedInput)
    (st : SharedState ι σ) :
    side i (callAll host settings (es.map (i, ·)) st).1
        = (RenderState.renderAll host (settings i) es (st.view i)).1 ∧
      (callAll host settings (es.map (i, ·)) st).2.view i
        = (RenderState.renderAll host (settings i) es (st.view i)).2 := by
  induction es generalizing st with
  | nil => exact ⟨rfl, rfl⟩
  | cons e es ih =>
    obtain ⟨hresults, hview⟩ := ih (st.call host settings (i, e)).2
    have hcalled : (st.call host settings (i, e)).2.view i
        = ((st.view i).render host (settings i) e.input e.explicit?).2 := by
      simp only [call, view, Function.update_self]
    rw [hcalled] at hresults hview
    rw [List.map_cons, callAll_cons, side_cons_self, hresults, hview, RenderState.renderAll_cons]
    exact ⟨rfl, rfl⟩

end Calls

/-! ### What calls come to -/

/-- Settings that put the same files into the same directory. -/
structure Alike (settings : ι → RenderSettings) : Prop where
  format : ∀ i j, (settings i).format = (settings j).format
  resolution : ∀ i j, (settings i).resolution = (settings j).resolution
  embed : ∀ i j, (settings i).embed = (settings j).embed
  directory : ∀ i j, (settings i).location.directory = (settings j).location.directory

/-- The files that come of a call. -/
def filesAt (engine : Engine) (settings : ι → RenderSettings) (c : ι × NamedInput) :
    List (String × Bytes) :=
  (settings c.1).filesFrom c.2.identifier (engine ((settings c.1).request c.2.input))

/-- Calls whose files can be written, and of which those with one identifier have one input. -/
structure Admissible (engine : Engine) (settings : ι → RenderSettings) (t₀ : FileTree)
    (calls : List (ι × NamedInput)) : Prop where
  slash : ∀ c ∈ calls, '/' ∉ c.2.identifier.toList
  input : ∀ c ∈ calls, ∀ c' ∈ calls, c.2.identifier = c'.2.identifier → c.2.input = c'.2.input
  writable : ∀ c ∈ calls, ∀ f ∈ filesAt engine settings c, (settings c.1).Writable t₀ f

/-- What is in the directory, and what the renderers keep, is told by the calls so far: the files in
the directory are those that come of them, and under an identifier only something is kept that has
come of one. -/
structure Follows (files : σ → FileTree) (engine : Engine) (settings : ι → RenderSettings)
    (t₀ : FileTree) (done : List (ι × NamedInput)) (deposited : List (String × Bytes))
    (st : SharedState ι σ) : Prop where
  deposits : ∀ i, (st.view i).Deposits files (settings i) deposited t₀
  mem_deposited : ∀ f, f ∈ deposited ↔ ∃ c ∈ done, f ∈ filesAt engine settings c
  kept : ∀ i, ∀ identifier ∈ (st.renderers i).identifiers,
    ∃ e, (i, e) ∈ done ∧ e.identifier = identifier

theorem follows_initial (files : σ → FileTree) (engine : Engine) (settings : ι → RenderSettings)
    (world : σ) : (initial world).Follows files engine settings (files world) [] [] where
  deposits i := RenderState.deposits_initial files (settings i) world
  mem_deposited f := by
    constructor
    · exact fun h ↦ absurd h List.not_mem_nil
    · rintro ⟨c, hc, -⟩
      cases hc
  kept i identifier h := absurd h List.not_mem_nil

variable {host : Host σ} {files : σ → FileTree} {engine : Engine} {settings : ι → RenderSettings}
  {t₀ : FileTree} {all done : List (ι × NamedInput)} {deposited : List (String × Bytes)}
  {st : SharedState ι σ}

theorem fileName_eq (halike : Alike settings) (i j : ι) (identifier : String) :
    (settings i).fileName identifier = (settings j).fileName identifier := by
  rw [RenderSettings.fileName, RenderSettings.fileName, halike.format i j]

theorem request_eq (halike : Alike settings) (i j : ι) (input : String) :
    (settings i).request input = (settings j).request input := by
  rw [RenderSettings.request, RenderSettings.request, halike.format i j, halike.resolution i j]

/-- An identifier that is not given is a digest of the input. -/
theorem admissible_of_not_isNamed (hnamed : ∀ c ∈ all, c.2.isNamed = false)
    (hdigest : ∀ c ∈ all, ∀ c' ∈ all,
      Md5.hexDigest c.2.input = Md5.hexDigest c'.2.input → c.2.input = c'.2.input)
    (hwritable : ∀ c ∈ all, ∀ f ∈ filesAt engine settings c, (settings c.1).Writable t₀ f) :
    Admissible engine settings t₀ all where
  slash c hc := by
    rw [NamedInput.identifier_of_not_isNamed (hnamed c hc)]
    exact not_mem_contentIdentifier (by decide) (by decide) c.2.input
  input c hc c' hc' hidentifier := by
    rw [NamedInput.identifier_of_not_isNamed (hnamed c hc),
      NamedInput.identifier_of_not_isNamed (hnamed c' hc')] at hidentifier
    exact hdigest c hc c' hc' (hexDigest_eq_of_contentIdentifier_eq hidentifier)
  writable := hwritable

/-- Files of one name have the same bytes, whatever calls they come of. -/
theorem Admissible.filesAt_agree (h : Admissible engine settings t₀ all) (halike : Alike settings)
    {c c' : ι × NamedInput} (hc : c ∈ all) (hc' : c' ∈ all) {f g : String × Bytes}
    (hf : f ∈ filesAt engine settings c) (hg : g ∈ filesAt engine settings c')
    (hname : f.1 = g.1) : f.2 = g.2 := by
  obtain ⟨output, hanswer, rfl⟩ := RenderSettings.eq_of_mem_filesFrom hf
  obtain ⟨output', hanswer', rfl⟩ := RenderSettings.eq_of_mem_filesFrom hg
  change (settings c.1).fileName _ = (settings c'.1).fileName _ at hname
  rw [fileName_eq halike c'.1 c.1] at hname
  have hinput := h.input c hc c' hc' ((settings c.1).fileName_injective hname)
  rw [request_eq halike c'.1 c.1, ← hinput, hanswer] at hanswer'
  exact congrArg EngineOutput.data (Except.ok.inj hanswer')

/-- A call adds its files to those in the directory, also if they are there already. -/
theorem Follows.mem_append (hadmissible : Admissible engine settings t₀ all)
    (hdone : ∀ c ∈ done, c ∈ all) (h : st.Follows files engine settings t₀ done deposited)
    {c : ι × NamedInput} (hc : c ∈ all) (f : String × Bytes) :
    f ∈ deposited ++ (st.renderers c.1).filesNow engine (settings c.1) c.2 ↔
      ∃ c' ∈ done ++ [c], f ∈ filesAt engine settings c' := by
  have hsplit : (∃ c' ∈ done ++ [c], f ∈ filesAt engine settings c') ↔
      f ∈ deposited ∨ f ∈ filesAt engine settings c := by
    rw [h.mem_deposited]
    simp only [List.mem_append, List.mem_singleton, or_and_right, exists_or, exists_eq_left]
  rw [hsplit, List.mem_append, Renderer.filesNow]
  split
  · next hfound =>
    -- an artifact is kept under the identifier, so that the files have come of an earlier call
    obtain ⟨e, he, hidentifier⟩ := h.kept c.1 _ (Renderer.isSome_cached?_iff.mp hfound)
    have hinput := hadmissible.input _ (hdone _ he) c hc hidentifier
    have hfiles : filesAt engine settings (c.1, e) = filesAt engine settings c := by
      rw [filesAt, filesAt, hidentifier, hinput]
    have hearlier : f ∈ filesAt engine settings c → f ∈ deposited := fun hf ↦
      (h.mem_deposited f).mpr ⟨(c.1, e), he, hfiles.symm ▸ hf⟩
    constructor
    · exact fun hf ↦ Or.inl (hf.resolve_right List.not_mem_nil)
    · exact fun hf ↦ Or.inl (hf.elim id hearlier)
  · rfl

theorem Follows.kept_answered (h : st.Follows files engine settings t₀ done deposited)
    (c : ι × NamedInput) {identifier : String}
    (hmem : identifier ∈
      ((st.renderers c.1).answered engine (settings c.1) c.2).2.identifiers) :
    ∃ e, (c.1, e) ∈ done ++ [c] ∧ e.identifier = identifier := by
  rcases Renderer.mem_identifiers_answered hmem with hold | rfl
  · obtain ⟨e, he, hidentifier⟩ := h.kept c.1 identifier hold
    exact ⟨e, List.mem_append_left _ he, hidentifier⟩
  · exact ⟨c.2, List.mem_append_right _ (List.mem_singleton_self _), rfl⟩

/-- A call comes to what its renderer makes of the equation, and is one more of the calls that tell
the rest. -/
theorem Follows.call [DecidableEq ι] (hengine : host.Answers engine)
    (hfiles : host.KeepsFiles files) (halike : Alike settings)
    (hadmissible : Admissible engine settings t₀ all)
    (hdone : ∀ c ∈ done, c ∈ all) (h : st.Follows files engine settings t₀ done deposited)
    {c : ι × NamedInput} (hc : c ∈ all) :
    ∃ st' deposited', st.call host settings c
        = (((st.renderers c.1).answered engine (settings c.1) c.2).1, st') ∧
      st'.renderers = Function.update st.renderers c.1
        ((st.renderers c.1).answered engine (settings c.1) c.2).2 ∧
      st'.Follows files engine settings t₀ (done ++ [c]) deposited' := by
  have hsame : ∀ f ∈ deposited, ∀ g ∈ filesAt engine settings c, f.1 = g.1 → f.2 = g.2 := by
    intro f hf g hg hname
    obtain ⟨c', hc', hf⟩ := (h.mem_deposited f).mp hf
    exact hadmissible.filesAt_agree halike (hdone c' hc') hc hf hg hname
  obtain ⟨⟨renderer, world⟩, hrender, rfl, hdeposits⟩ := RenderState.render_answered hengine hfiles
    (h.deposits c.1) (hadmissible.slash c hc) hsame (hadmissible.writable c hc)
  refine ⟨⟨Function.update st.renderers c.1 _, world⟩, deposited ++ _, ?_, rfl,
    fun i ↦ ⟨?_, fun hready ↦ ?_⟩, h.mem_append hadmissible hdone hc, fun i identifier hmem ↦ ?_⟩
  · rw [SharedState.call, hrender]
    rfl
  · have htree := hdeposits.files
    rw [halike.directory c.1 i] at htree
    exact htree
  · by_cases hi : i = c.1
    · subst hi
      simp only [view, Function.update_self] at hready
      exact hdeposits.ready hready
    · simp only [view, Function.update_of_ne hi] at hready
      exact List.append_ne_nil_of_left_ne_nil ((h.deposits i).ready hready) _
  · by_cases hi : i = c.1
    · subst hi
      simp only [Function.update_self] at hmem
      exact h.kept_answered c hmem
    · simp only [Function.update_of_ne hi] at hmem
      obtain ⟨e, he, hidentifier⟩ := h.kept i identifier hmem
      exact ⟨e, List.mem_append_left _ he, hidentifier⟩

/-- What calls come to, when some have been made before: each renderer makes of its own calls what
it makes of them alone. -/
theorem Follows.callAll [DecidableEq ι] (hengine : host.Answers engine)
    (hfiles : host.KeepsFiles files) (halike : Alike settings)
    (hadmissible : Admissible engine settings t₀ all) {calls : List (ι × NamedInput)}
    (hall : ∀ c ∈ done ++ calls, c ∈ all)
    (h : st.Follows files engine settings t₀ done deposited) :
    (∃ deposited', (callAll host settings calls st).2.Follows files engine settings t₀
        (done ++ calls) deposited') ∧
      ∀ i, side i (callAll host settings calls st).1
          = ((st.renderers i).answerAll engine (settings i) (side i calls)).1 ∧
        (callAll host settings calls st).2.renderers i
          = ((st.renderers i).answerAll engine (settings i) (side i calls)).2 := by
  induction calls generalizing st done deposited with
  | nil =>
    rw [List.append_nil]
    exact ⟨⟨deposited, h⟩, fun i ↦ ⟨rfl, rfl⟩⟩
  | cons c calls ih =>
    obtain ⟨i, e⟩ := c
    obtain ⟨st', deposited', hcall, hrenderers, hfollows⟩ := h.call hengine hfiles halike
      hadmissible (fun c' hc' ↦ hall c' (List.mem_append_left _ hc'))
      (hall (i, e) (List.mem_append_right _ List.mem_cons_self))
    rw [List.append_cons] at hall ⊢
    obtain ⟨hlater, hsides⟩ := ih hall hfollows
    rw [callAll_cons, hcall]
    refine ⟨hlater, fun j ↦ ?_⟩
    obtain ⟨hresults, hrenderer⟩ := hsides j
    simp only at hresults hrenderer ⊢
    rw [hrenderers] at hresults hrenderer
    by_cases hj : j = i
    · subst hj
      rw [Function.update_self] at hresults hrenderer
      rw [side_cons_self, side_cons_self, Renderer.answerAll_cons, hresults]
      exact ⟨rfl, hrenderer⟩
    · rw [Function.update_of_ne hj] at hresults hrenderer
      rw [side_cons_of_ne (Ne.symm hj), side_cons_of_ne (Ne.symm hj)]
      exact ⟨hresults, hrenderer⟩

/-- **Renderers that share a directory do not disturb each other.** For calls for which no
identifiers are given, in whatever order they come, each renderer makes of its own calls what it
makes of them alone, and writes as many files; and the tree of files is the same in the end for
every order in which the calls of each renderer stand as they do here. The engine answers each
request in one way, no two inputs have one digest, and the files can be written. -/
theorem calls_independent [DecidableEq ι] (host : Host σ) (files : σ → FileTree) (engine : Engine)
    (settings : ι → RenderSettings) (calls : List (ι × NamedInput)) (world : σ)
    (hengine : host.Answers engine) (hfiles : host.KeepsFiles files) (halike : Alike settings)
    (hnamed : ∀ c ∈ calls, c.2.isNamed = false)
    (hdigest : ∀ c ∈ calls, ∀ c' ∈ calls,
      Md5.hexDigest c.2.input = Md5.hexDigest c'.2.input → c.2.input = c'.2.input)
    (hwritable : ∀ c ∈ calls, ∀ f ∈ filesAt engine settings c,
      (settings c.1).Writable (files world) f) :
    (∀ i, side i (callAll host settings calls (initial world)).1
        = (RenderState.renderAll host (settings i) (side i calls) ⟨.initial, world⟩).1 ∧
      ((callAll host settings calls (initial world)).2.renderers i).filesWritten
        = (RenderState.renderAll host (settings i) (side i calls)
            ⟨.initial, world⟩).2.renderer.filesWritten) ∧
      ∀ calls', (∀ i, side i calls' = side i calls) → ∀ place,
        (files (callAll host settings calls' (initial world)).2.world).get? place
          = (files (callAll host settings calls (initial world)).2.world).get? place := by
  have hadmissible : Admissible engine settings (files world) calls :=
    admissible_of_not_isNamed hnamed hdigest hwritable
  have hinitial := follows_initial (ι := ι) files engine settings world
  -- any calls that are among these come to what each renderer makes of its own
  have hrun (calls' : List (ι × NamedInput)) (hall : ∀ c ∈ calls', c ∈ calls) :=
    hinitial.callAll hengine hfiles halike hadmissible hall
  refine ⟨fun i ↦ ?_, fun calls' hsides place ↦ ?_⟩
  · obtain ⟨-, hshared⟩ := hrun calls fun _ ↦ id
    obtain ⟨-, halone⟩ := hrun ((side i calls).map (i, ·)) fun c hc ↦ by
      obtain ⟨e, he, rfl⟩ := List.mem_map.mp hc
      exact mem_side.mp he
    obtain ⟨hresults, hrenderer⟩ := hshared i
    obtain ⟨hresultsAlone, hrendererAlone⟩ := halone i
    obtain ⟨hrenderAll, hview⟩ := callAll_map host settings i (side i calls) (initial world)
    rw [side_map] at hresultsAlone hrendererAlone
    constructor
    · exact hresults.trans (hresultsAlone.symm.trans hrenderAll)
    · rw [hrenderer, ← hrendererAlone]
      exact congrArg (fun after ↦ after.renderer.filesWritten) hview
  · have hmem (c : ι × NamedInput) : c ∈ calls' ↔ c ∈ calls := by
      obtain ⟨i, e⟩ := c
      rw [← mem_side, ← mem_side, hsides i]
    obtain ⟨⟨deposited, hfollows⟩, -⟩ := hrun calls fun _ ↦ id
    obtain ⟨⟨deposited', hfollows'⟩, -⟩ := hrun calls' fun c ↦ (hmem c).mp
    cases calls with
    | nil =>
      rw [List.eq_nil_iff_forall_not_mem.mpr fun c hc ↦ List.not_mem_nil ((hmem c).mp hc)]
    | cons c _ =>
      have hsame (f : String × Bytes) : f ∈ deposited' ↔ f ∈ deposited := by
        rw [hfollows'.mem_deposited, hfollows.mem_deposited]
        simp only [List.nil_append, hmem]
      exact (hfollows'.deposits c.1).files.get?_eq (hfollows.deposits c.1).files hsame place

/-- Two renderers, which lead to one directory in different ways. -/
def neighbours (i : Bool) : RenderSettings :=
  { markupSettings with embed := false, location := ⟨⟨"/work/img"⟩, if i then "." else "img"⟩ }

/-- Calls in turn. Both renderers render the first equation, and one of them is asked for it
again. -/
def callsInTurn : List (Bool × NamedInput) :=
  [(true, ⟨none, "$x$"⟩), (false, ⟨none, "$x$"⟩), (false, ⟨none, "$bad$"⟩),
    (true, ⟨some "", "$y$"⟩), (false, ⟨none, "$x$"⟩)]

/-- An empty directory, and nothing else. -/
def emptyWorkspace : Workspace :=
  .ofFiles (.withDirectory ["work"])

theorem calls_independent_of_turns :
    (Host.ofEngine markupEngine).Answers markupEngine ∧
      (Host.ofEngine markupEngine).KeepsFiles Workspace.files ∧
      Alike neighbours ∧
      (∀ c ∈ callsInTurn, c.2.isNamed = false) ∧
      (∀ c ∈ callsInTurn, ∀ c' ∈ callsInTurn,
        Md5.hexDigest c.2.input = Md5.hexDigest c'.2.input → c.2.input = c'.2.input) ∧
      (∀ c ∈ callsInTurn, ∀ f ∈ filesAt markupEngine neighbours c,
        (neighbours c.1).Writable emptyWorkspace.files f) ∧
      (∀ i, side i (callAll (.ofEngine markupEngine) neighbours callsInTurn
            (initial emptyWorkspace)).1
          = (RenderState.renderAll (.ofEngine markupEngine) (neighbours i) (side i callsInTurn)
              ⟨.initial, emptyWorkspace⟩).1 ∧
        ((callAll (.ofEngine markupEngine) neighbours callsInTurn
            (initial emptyWorkspace)).2.renderers i).filesWritten
          = (RenderState.renderAll (.ofEngine markupEngine) (neighbours i) (side i callsInTurn)
              ⟨.initial, emptyWorkspace⟩).2.renderer.filesWritten) ∧
        ∀ calls', (∀ i, side i calls' = side i callsInTurn) → ∀ place,
          (callAll (.ofEngine markupEngine) neighbours calls'
              (initial emptyWorkspace)).2.world.files.get? place
            = (callAll (.ofEngine markupEngine) neighbours callsInTurn
                (initial emptyWorkspace)).2.world.files.get? place := by
  have hengine : (Host.ofEngine markupEngine).Answers markupEngine := fun _ _ ↦ rfl
  have hfiles : (Host.ofEngine markupEngine).KeepsFiles Workspace.files :=
    Host.keepsFiles_ofEngine _
  have halike : Alike neighbours :=
    ⟨fun _ _ ↦ rfl, fun _ _ ↦ rfl, fun _ _ ↦ rfl, fun _ _ ↦ rfl⟩
  have hnamed : ∀ c ∈ callsInTurn, c.2.isNamed = false := by decide
  have hdigest : ∀ c ∈ callsInTurn, ∀ c' ∈ callsInTurn,
      Md5.hexDigest c.2.input = Md5.hexDigest c'.2.input → c.2.input = c'.2.input := by
    decide +kernel
  have hwritable : ∀ c ∈ callsInTurn, ∀ f ∈ filesAt markupEngine neighbours c,
      (neighbours c.1).Writable emptyWorkspace.files f := by decide +kernel
  exact ⟨hengine, hfiles, halike, hnamed, hdigest, hwritable,
    calls_independent _ _ _ _ _ _ hengine hfiles halike hnamed hdigest hwritable⟩

end SharedState

end DocumentMath
