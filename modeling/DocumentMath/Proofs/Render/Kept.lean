import DocumentMath.Proofs.Render.Rendering
import Mathlib.Data.List.Dedup
import Mathlib.Data.List.Perm.Subperm

/-!
# What a renderer keeps

A renderer keeps one artifact for each identifier that it has rendered, and has written one file for
each unless artifacts are embedded. That is an invariant of its calls, `Renderer.Keeps`: a call that
succeeds adds its identifier, and one that fails adds nothing. So the files that a renderer has
written can be counted by the identifiers (`Renderer.Keeps.filesWritten_eq`).
-/

namespace DocumentMath

namespace Renderer

/-- The identifiers that artifacts are kept under. -/
def identifiers (r : Renderer) : List String :=
  r.cache.map (·.1)

/-- An artifact is found under the identifiers that one is kept under. -/
theorem isSome_cached?_iff {r : Renderer} {identifier : String} :
    (r.cached? identifier).isSome ↔ identifier ∈ r.identifiers := by
  rw [cached?, Option.isSome_map, List.find?_isSome, identifiers, List.mem_map]
  simp only [beq_iff_eq]

/-- The identifiers in a list have been rendered, and no others. -/
structure Keeps (embed : Bool) (rendered : List String) (r : Renderer) : Prop where
  nodup : r.identifiers.Nodup
  mem_iff : ∀ identifier, identifier ∈ r.identifiers ↔ identifier ∈ rendered
  files : r.filesWritten = if embed then 0 else r.identifiers.length

namespace Keeps

variable {embed : Bool} {rendered : List String} {r r' : Renderer} {identifier : String}

theorem initial (embed : Bool) : Renderer.initial.Keeps embed [] where
  nodup := List.nodup_nil
  mem_iff _ := Iff.rfl
  files := by cases embed <;> rfl

/-- The files are as many as the identifiers, each counted once. -/
theorem filesWritten_eq (h : r.Keeps embed rendered) :
    r.filesWritten = if embed then 0 else rendered.dedup.length := by
  have hperm : r.identifiers.Perm rendered.dedup :=
    (List.perm_ext_iff_of_nodup h.nodup rendered.nodup_dedup).mpr fun identifier ↦
      (h.mem_iff identifier).trans List.mem_dedup.symm
  rw [h.files, hperm.length_eq]

theorem of_eq (h : r.Keeps embed rendered) (hcache : r'.cache = r.cache)
    (hfiles : r'.filesWritten = r.filesWritten) : r'.Keeps embed rendered := by
  have hidentifiers : r'.identifiers = r.identifiers := by rw [identifiers, hcache, identifiers]
  constructor
  · rw [hidentifiers]
    exact h.nodup
  · rw [hidentifiers]
    exact h.mem_iff
  · rw [hfiles, hidentifiers]
    exact h.files

theorem found_iff (h : r.Keeps embed rendered) :
    (r.cached? identifier).isSome ↔ identifier ∈ rendered :=
  Renderer.isSome_cached?_iff.trans (h.mem_iff identifier)

theorem cached?_eq_none (h : r.Keeps embed rendered) (hmem : identifier ∉ rendered) :
    r.cached? identifier = none :=
  Option.not_isSome_iff_eq_none.mp (mt h.found_iff.mp hmem)

/-- An identifier that is rendered again changes nothing. -/
theorem again (h : r.Keeps embed rendered) (hmem : identifier ∈ r.identifiers) :
    r.Keeps embed (rendered ++ [identifier]) where
  nodup := h.nodup
  mem_iff i := by
    rw [List.mem_append, List.mem_singleton, ← h.mem_iff]
    exact ⟨Or.inl, fun hi ↦ hi.elim id fun heq ↦ heq ▸ hmem⟩
  files := h.files

/-- A new identifier comes with an artifact and with a file. -/
theorem new (h : r.Keeps embed rendered) (hmem : identifier ∉ r.identifiers) {a : Artifact}
    (hcache : r'.cache = r.cache ++ [(identifier, a)])
    (hfiles : r'.filesWritten = r.filesWritten + if embed then 0 else 1) :
    r'.Keeps embed (rendered ++ [identifier]) := by
  have hidentifiers : r'.identifiers = r.identifiers ++ [identifier] := by
    rw [identifiers, hcache, List.map_append, identifiers, List.map_singleton]
  constructor
  · rw [hidentifiers, ← List.concat_eq_append]
    exact h.nodup.concat hmem
  · intro i
    rw [hidentifiers, List.mem_append, List.mem_append, h.mem_iff]
  · rw [hfiles, hidentifiers, h.files, List.length_append, List.length_singleton]
    split <;> rfl

end Keeps

end Renderer

/-! ### Files -/

/-- The number of files that are written for a result. -/
def RenderSettings.filesFor (s : RenderSettings) : Except Error Artifact → Nat
  | .ok _ => if s.embed then 0 else 1
  | .error _ => 0

namespace RenderState

variable {σ : Type} (host : Host σ) (s : RenderSettings) (st : RenderState σ)

theorem filesWritten_ensureDirectory :
    (ensureDirectory host s st).2.renderer.filesWritten = st.renderer.filesWritten := by
  rw [ensureDirectory]
  split
  · rfl
  · rcases host.createDirectory s.location.directory st.world with ⟨e | u, world⟩ <;> rfl

theorem filesWritten_store (a : Artifact) :
    (store host s a st).2.renderer.filesWritten
      = st.renderer.filesWritten + s.filesFor (store host s a st).1 := by
  rw [store]
  split
  · next hembed => simp [RenderSettings.filesFor, hembed]
  · next hembed =>
    have hensure := filesWritten_ensureDirectory host s st
    rw [writeFile]
    rcases hresult : ensureDirectory host s st with ⟨e | u, st'⟩ <;> rw [hresult] at hensure
    · exact hensure
    · simp only
      rcases host.writeFile _ a.data st'.world with ⟨e | v, world⟩
      · exact hensure
      · have hone : s.filesFor (.ok (s.written a)) = 1 := by simp [RenderSettings.filesFor, hembed]
        exact (congrArg (· + 1) hensure).trans (congrArg _ hone.symm)

theorem filesWritten_renderNew (identifier input : String) :
    (renderNew host s identifier input st).2.renderer.filesWritten
      = st.renderer.filesWritten + s.filesFor (renderNew host s identifier input st).1 := by
  rw [renderNew]
  rcases host.typeset ⟨input, s.format, s.resolution⟩ st.world with ⟨e | output, world⟩
  · rfl
  · simp only
    cases s.accept identifier output with
    | error e => rfl
    | ok a =>
      have hstore := filesWritten_store host s { st with world } a
      simp only
      rcases hresult : store host s a { st with world } with ⟨e | b, st'⟩ <;>
        rw [hresult] at hstore <;> exact hstore

/-- A call that fails writes no file that counts. -/
theorem filesWritten_of_render_error {input : String} {explicit? : Option String} {e : Error}
    (h : (st.render host s input explicit?).1 = .error e) :
    (st.render host s input explicit?).2.renderer.filesWritten = st.renderer.filesWritten := by
  rcases st.render_cases host s input explicit? with ⟨a, -, hhit⟩ | hnew
  · rw [hhit] at h
    cases h
  · rw [hnew] at h ⊢
    rw [filesWritten_renderNew, h]
    rfl

end RenderState

/-! ### Renderings -/

namespace Renderer.Keeps

variable {σ : Type} {host : Host σ} {s : RenderSettings} {st st' : RenderState σ}
  {rendered : List String} {input : String} {explicit? : Option String}
  (h : st.renderer.Keeps s.embed rendered)
include h

theorem render_ok {a : Artifact} (hrender : st.render host s input explicit? = (.ok a, st')) :
    st'.renderer.Keeps s.embed (rendered ++ [identifierOf explicit? input]) := by
  rw [RenderState.render] at hrender
  cases hcached : st.renderer.cached? (identifierOf explicit? input) with
  | some b =>
    rw [hcached] at hrender
    cases hrender
    -- what has been found in the cache is kept under its identifier
    exact h.again (isSome_cached?_iff.mp (Option.isSome_of_mem hcached))
  | none =>
    rw [hcached] at hrender
    have hmem : identifierOf explicit? input ∉ st.renderer.identifiers := by
      rw [← isSome_cached?_iff, hcached]
      exact Bool.false_ne_true
    have hfiles := st.filesWritten_renderNew host s (identifierOf explicit? input) input
    have hcases := st.renderNew_cases host s (identifierOf explicit? input) input
    simp only at hrender
    rw [hrender] at hfiles hcases
    obtain ⟨b, -, -, hcache⟩ | ⟨e, he, -⟩ := hcases
    · exact h.new hmem hcache hfiles
    · cases he

theorem render_error {e : Error} (hrender : st.render host s input explicit? = (.error e, st')) :
    st'.renderer.Keeps s.embed rendered := by
  have hfiles := RenderState.filesWritten_of_render_error host s st (congrArg Prod.fst hrender)
  rw [hrender] at hfiles
  exact h.of_eq (RenderState.cache_of_render_error hrender) hfiles

end Renderer.Keeps

end DocumentMath
