import DocumentMath.Proofs.Render.Kept
import DocumentMath.Proofs.Render.Recording

/-!
# The states of a renderer

A renderer is called for one equation after the other. A call may find an artifact, or fail in one
of several places, or render the equation; and in every state that is reached, what the renderer
keeps and what it counts fit together (`Renderer.IsSound`). The cache only grows, so that an
artifact that is kept is what every later call for its identifier gives, and the engine is not asked
for it again. A call that fails keeps nothing and counts nothing, and if it is the equation that
fails, nothing but the engine has been called.

All this is `RenderState.renderAll_sound`. What one call does is told first, for any state, and is
carried through the calls by `RenderState.renderAll_induction`.
-/

namespace DocumentMath

variable {σ : Type}

/-! ### Sound renderers -/

/-- Each artifact is kept once, under its own identifier, in the format asked for, and is in a file
exactly if artifacts are not embedded; and the files are counted. -/
structure Renderer.IsSound (s : RenderSettings) (r : Renderer) : Prop where
  nodup : r.identifiers.Nodup
  identifier : ∀ entry ∈ r.cache, entry.2.identifier = entry.1
  format : ∀ entry ∈ r.cache, entry.2.format = s.format
  isFile : ∀ entry ∈ r.cache, entry.2.target?.isSome = !s.embed ∧ entry.2.path?.isSome = !s.embed
  files : r.filesWritten = if s.embed then 0 else r.cache.length

/-- What is kept are outcomes of answers, and they are counted. -/
theorem Renderer.Keeps.isSound {s : RenderSettings} {rendered : List String} {r : Renderer}
    (h : r.Keeps s.embed rendered) (houtcomes : r.KeepsOutcomes s) : r.IsSound s where
  nodup := h.nodup
  identifier entry hentry := by
    obtain ⟨answer, houtcome⟩ := houtcomes entry hentry
    exact RenderSettings.identifier_of_outcome houtcome
  format entry hentry := by
    obtain ⟨answer, houtcome⟩ := houtcomes entry hentry
    exact RenderSettings.format_of_outcome houtcome
  isFile entry hentry := by
    obtain ⟨answer, houtcome⟩ := houtcomes entry hentry
    exact RenderSettings.isFile_of_outcome houtcome
  files := by rw [h.files, identifiers, List.length_map]

namespace RenderState

variable {host : Host σ} {s : RenderSettings} {st : RenderState σ}

/-! ### One call -/

/-- The calls that a renderer makes of its host when it renders an equation. -/
def callsFor (host : Host σ) (s : RenderSettings) (e : NamedInput) (st : RenderState σ) :
    List HostCall :=
  ((RenderState.mk st.renderer (st.world, [])).render host.recording s e.input e.explicit?).2.calls

section Call

variable {input : String} {explicit? : Option String}

/-- Whatever comes of a call, the identifiers are counted and what is kept are outcomes. -/
theorem keeps_render {rendered : List String} (h : st.renderer.Keeps s.embed rendered)
    (houtcomes : st.renderer.KeepsOutcomes s) :
    (∃ rendered', (st.render host s input explicit?).2.renderer.Keeps s.embed rendered') ∧
      (st.render host s input explicit?).2.renderer.KeepsOutcomes s := by
  rcases hrender : st.render host s input explicit? with ⟨e | a, st'⟩
  · exact ⟨⟨rendered, h.render_error hrender⟩, keepsOutcomes_of_render_error houtcomes hrender⟩
  · exact ⟨⟨_, h.render_ok hrender⟩, (keepsOutcomes_of_render_ok houtcomes hrender).1⟩

/-- A call only adds to the cache. -/
theorem exists_cache_render (host : Host σ) (s : RenderSettings) (input : String)
    (explicit? : Option String) (st : RenderState σ) :
    ∃ new, (st.render host s input explicit?).2.renderer.cache = st.renderer.cache ++ new := by
  rcases hrender : st.render host s input explicit? with ⟨e | a, st'⟩
  · exact ⟨[], (cache_of_render_error hrender).trans (List.append_nil _).symm⟩
  · rcases cache_of_render_ok hrender with ⟨-, hcache⟩ | ⟨-, -, hcache⟩
    · exact ⟨[], hcache.trans (List.append_nil _).symm⟩
    · exact ⟨_, hcache⟩

theorem cached?_render {identifier : String} {a : Artifact}
    (h : st.renderer.cached? identifier = some a) :
    (st.render host s input explicit?).2.renderer.cached? identifier = some a := by
  obtain ⟨new, hcache⟩ := exists_cache_render host s input explicit? st
  obtain ⟨entry, hentry, rfl⟩ := Option.map_eq_some_iff.mp h
  rw [Renderer.cached?, hcache, List.find?_append, hentry, Option.some_or, Option.map_some]

/-- An equation that fails changes nothing but what the engine changes. -/
theorem render_of_failure {e : Error} (h : (st.render host s input explicit?).1 = .error e)
    (hfailure : e.isRenderFailure = true) :
    (st.render host s input explicit?).2
      = ⟨st.renderer, (host.typeset (s.request input) st.world).2⟩ := by
  rcases st.render_cases host s input explicit? with ⟨a, -, hhit⟩ | hnew
  · rw [hhit] at h
    cases h
  · rw [hnew] at h ⊢
    rcases st.renderNew_cases host s (identifierOf explicit? input) input with
      ⟨a, ha, -⟩ | ⟨e', he, houtcome, -⟩
    · cases h.symm.trans ha
    · cases h.symm.trans he
      -- the outcome of the answer is the failure, so that nothing has been stored
      exact st.renderNew_of_failure host s (houtcome hfailure)

end Call

/-- An artifact that is kept is what a call for its identifier gives, and nothing is called for. -/
theorem render_of_cached {e : NamedInput} {a : Artifact}
    (h : st.renderer.cached? e.identifier = some a) :
    st.render host s e.input e.explicit? = (.ok a, st) ∧ st.callsFor host s e = [] := by
  constructor
  · rw [NamedInput.identifier] at h
    rw [render, h]
  · obtain ⟨stored, hcalls, -⟩ := calls_render host s ⟨st.renderer, (st.world, [])⟩ e
    rw [callsFor, hcalls, h]
    rfl

/-- For an equation that fails, only the engine has been called. -/
theorem callsFor_of_failure {e : NamedInput} {error : Error}
    (h : (st.render host s e.input e.explicit?).1 = .error error)
    (hfailure : error.isRenderFailure = true) :
    st.callsFor host s e = [.typeset (s.request e.input)] := by
  have hseen := render_seen host.recording_looksLike s ⟨st.renderer, (st.world, [])⟩ e.input
    e.explicit?
  have hrecorded : ((RenderState.mk st.renderer (st.world, [])).render host.recording s e.input
      e.explicit?).1 = .error error :=
    (congrArg Prod.fst hseen).symm.trans h
  rw [callsFor, render_of_failure hrecorded hfailure]
  rfl

/-! ### Calls one after the other -/

/-- What every call keeps is kept by all of them. -/
theorem renderAll_induction {P : RenderState σ → Prop}
    (hcall : ∀ (e : NamedInput) st, P st → P (st.render host s e.input e.explicit?).2)
    (es : List NamedInput) (hst : P st) : P (renderAll host s es st).2 := by
  induction es generalizing st with
  | nil => exact hst
  | cons e es ih => exact ih (hcall e st hst)

theorem isSound_renderAll (host : Host σ) (s : RenderSettings) (es : List NamedInput) (world : σ) :
    (renderAll host s es ⟨.initial, world⟩).2.renderer.IsSound s := by
  let P : RenderState σ → Prop := fun st ↦
    (∃ rendered, st.renderer.Keeps s.embed rendered) ∧ st.renderer.KeepsOutcomes s
  have hkept : P (renderAll host s es ⟨.initial, world⟩).2 := by
    refine renderAll_induction ?_ es ⟨⟨[], .initial s.embed⟩, Renderer.keepsOutcomes_initial s⟩
    rintro e st ⟨⟨rendered, hkeeps⟩, houtcomes⟩
    exact keeps_render hkeeps houtcomes
  obtain ⟨⟨rendered, hkeeps⟩, houtcomes⟩ := hkept
  exact hkeeps.isSound houtcomes

/-- An artifact that is kept stays what it is. -/
theorem cached?_renderAll {identifier : String} {a : Artifact}
    (h : st.renderer.cached? identifier = some a) (es : List NamedInput) :
    (renderAll host s es st).2.renderer.cached? identifier = some a :=
  renderAll_induction (P := fun st ↦ st.renderer.cached? identifier = some a)
    (fun _ _ ↦ cached?_render) es h

/-- An artifact that comes of a call is kept. -/
theorem cached?_of_render_ok {e : NamedInput} {a : Artifact}
    (h : (st.render host s e.input e.explicit?).1 = .ok a) :
    (st.render host s e.input e.explicit?).2.renderer.cached? e.identifier = some a := by
  cases hcached : st.renderer.cached? e.identifier with
  | some b =>
    have hhit : st.render host s e.input e.explicit? = (.ok b, st) := (render_of_cached hcached).1
    rw [hhit] at h ⊢
    cases h
    exact hcached
  | none =>
    rcases cache_of_render_ok (Prod.ext h rfl) with ⟨hmem, -⟩ | ⟨answer, -, hcache⟩
    · have hfound := Renderer.isSome_cached?_iff.mpr (List.mem_map_of_mem hmem)
      rw [NamedInput.identifier] at hcached
      rw [hcached] at hfound
      cases hfound
    · rw [Renderer.cached?_append hcache, hcached, NamedInput.identifier, if_pos rfl,
        Option.none_or]

/-- Whatever comes of a call is still kept after all of them. -/
theorem cached?_of_mem_renderAll {es : List NamedInput} {x : Attempt} {a : Artifact}
    (hx : x ∈ (renderAll host s es st).1) (ha : x.result = .ok a) :
    (renderAll host s es st).2.renderer.cached? x.equation.identifier = some a := by
  induction es generalizing st with
  | nil => cases hx
  | cons e es ih =>
    rw [renderAll_cons] at hx ⊢
    rcases List.mem_cons.mp hx with rfl | hx
    · exact cached?_renderAll (cached?_of_render_ok ha) es
    · exact ih hx

/-- The artifacts that come of two calls are the same exactly if the identifiers are. -/
theorem artifact_eq_iff {es : List NamedInput} {world : σ} {x y : Attempt} {a b : Artifact}
    (hx : x ∈ (renderAll host s es ⟨.initial, world⟩).1) (ha : x.result = .ok a)
    (hy : y ∈ (renderAll host s es ⟨.initial, world⟩).1) (hb : y.result = .ok b) :
    a = b ↔ x.equation.identifier = y.equation.identifier := by
  have hkept := cached?_of_mem_renderAll hx ha
  have hkept' := cached?_of_mem_renderAll hy hb
  constructor
  · rintro rfl
    -- an artifact has the identifier that it is kept under
    have hown : ∀ {identifier}, (renderAll host s es ⟨.initial, world⟩).2.renderer.cached? identifier
        = some a → a.identifier = identifier := by
      intro identifier hfound
      obtain ⟨entry, hentry, rfl⟩ := Option.map_eq_some_iff.mp hfound
      rw [(isSound_renderAll host s es world).identifier entry (List.mem_of_find?_eq_some hentry)]
      simpa using List.find?_some hentry
    rw [← hown hkept, ← hown hkept']
  · intro heq
    rw [heq, hkept'] at hkept
    exact (Option.some.inj hkept).symm

/-- **A renderer stays sound.** After any calls, whatever has come of them: the renderer is sound;
an artifact that is kept stays the same whatever is called for, and every call for its identifier
gives it, changes nothing and calls for nothing; and a call that fails leaves the cache and the
count as they are, and if the equation fails, the files as well, for there is then no call but one
of the engine. -/
theorem renderAll_sound (host : Host σ) (s : RenderSettings) (es : List NamedInput) (world : σ) :
    let st := (renderAll host s es ⟨.initial, world⟩).2
    st.renderer.IsSound s ∧
      (∀ identifier a, st.renderer.cached? identifier = some a → ∀ later,
        let st' := (renderAll host s later st).2
        st'.renderer.cached? identifier = some a ∧ ∀ e : NamedInput, e.identifier = identifier →
          st'.render host s e.input e.explicit? = (.ok a, st') ∧ st'.callsFor host s e = []) ∧
      ∀ (e : NamedInput) error, (st.render host s e.input e.explicit?).1 = .error error →
        let st' := (st.render host s e.input e.explicit?).2
        st'.renderer.cache = st.renderer.cache ∧
          st'.renderer.filesWritten = st.renderer.filesWritten ∧
          (error.isRenderFailure = true →
            st.callsFor host s e = [.typeset (s.request e.input)] ∧
              ∀ (φ : Type) (files : σ → φ),
                (∀ request world, files (host.typeset request world).2 = files world) →
                  files st'.world = files st.world) := by
  refine ⟨isSound_renderAll host s es world, fun identifier a ha later ↦ ?_,
    fun e error herror ↦ ?_⟩
  · refine ⟨cached?_renderAll ha later, fun e he ↦ ?_⟩
    subst he
    exact render_of_cached (cached?_renderAll ha later)
  · refine ⟨cache_of_render_error (Prod.ext herror rfl),
      filesWritten_of_render_error host s _ herror,
      fun hfailure ↦ ⟨callsFor_of_failure herror hfailure, fun φ files hfiles ↦ ?_⟩⟩
    rw [render_of_failure herror hfailure]
    exact hfiles _ _

/-- Markup is asked for, and it is written to files. -/
def fileSettings : RenderSettings :=
  { markupSettings with embed := false }

/-- After the calls an artifact is kept that was rendered only the second time, and an equation is
rejected. -/
theorem renderAll_sound_of_shared :
    let st := (renderAll (.writable markupEngine) fileSettings sharedCalls ⟨.initial, ()⟩).2
    st.renderer.IsSound fileSettings ∧
      (∃ a, st.renderer.cached? "a" = some a ∧ ∀ later,
        let st' := (renderAll (.writable markupEngine) fileSettings later st).2
        st'.render (.writable markupEngine) fileSettings "$z$" (some "a") = (.ok a, st') ∧
          st'.callsFor (.writable markupEngine) fileSettings ⟨some "a", "$z$"⟩ = []) ∧
      ∃ error, (st.render (.writable markupEngine) fileSettings "$bad$" none).1 = .error error ∧
        (st.render (.writable markupEngine) fileSettings "$bad$" none).2.renderer.cache
            = st.renderer.cache ∧
          st.callsFor (.writable markupEngine) fileSettings ⟨none, "$bad$"⟩
            = [.typeset (fileSettings.request "$bad$")] := by
  obtain ⟨hsound, hkept, hfails⟩ :=
    renderAll_sound (.writable markupEngine) fileSettings sharedCalls ()
  refine ⟨hsound, ?_, ?_⟩
  · obtain ⟨a, ha⟩ := Option.isSome_iff_exists.mp (by decide +kernel :
      ((renderAll (.writable markupEngine) fileSettings sharedCalls
        ⟨.initial, ()⟩).2.renderer.cached? "a").isSome = true)
    exact ⟨a, ha, fun later ↦ (hkept "a" a ha later).2 ⟨some "a", "$z$"⟩ (by decide +kernel)⟩
  · have herror : ((renderAll (.writable markupEngine) fileSettings sharedCalls
        ⟨.initial, ()⟩).2.render (.writable markupEngine) fileSettings "$bad$" none).1
          = .error (.engine "bad input") := by decide +kernel
    obtain ⟨hcache, -, hfailure⟩ := hfails ⟨none, "$bad$"⟩ _ herror
    dsimp only at hcache
    exact ⟨_, herror, hcache, (hfailure rfl).1⟩

end RenderState

end DocumentMath
