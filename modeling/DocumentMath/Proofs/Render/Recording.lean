import DocumentMath.Proofs.Render.Calls

/-!
# The calls of a renderer

A recording host passes every call on to another one and writes it down (`Host.recording`). Whoever
does not look at the record sees the other host (`Host.recording_looksLike`), and a renderer makes
nothing of the state of its surroundings but to hand it on, so that it behaves alike on both
(`RenderState.render_seen`).

What a rendering calls its host for is told by `RenderState.calls_render`: nothing, if an artifact
is kept under the identifier, and otherwise first the engine, with the equation, and then at most
what it takes to write the one file of that identifier.
-/

namespace DocumentMath

open Text (Bytes)

variable {σ τ : Type}

/-! ### Hosts that look like others -/

/-- A host behaves as another one does, if its states are seen in a certain way. -/
structure Host.LooksLike (seen : τ → σ) (host' : Host τ) (host : Host σ) : Prop where
  typeset : ∀ request world,
    host.typeset request (seen world) = (host'.typeset request world).map id seen
  createDirectory : ∀ path world,
    host.createDirectory path (seen world) = (host'.createDirectory path world).map id seen
  writeFile : ∀ path data world,
    host.writeFile path data (seen world) = (host'.writeFile path data world).map id seen

namespace RenderState

/-- A renderer whose surroundings are seen in a certain way. -/
def seen (see : τ → σ) (st : RenderState τ) : RenderState σ :=
  ⟨st.renderer, see st.world⟩

variable {see : τ → σ} {host' : Host τ} {host : Host σ} (h : host'.LooksLike see host)
  (s : RenderSettings) (st : RenderState τ)
include h

theorem ensureDirectory_seen :
    (st.seen see).ensureDirectory host s = (st.ensureDirectory host' s).map id (seen see) := by
  rw [ensureDirectory, ensureDirectory]
  simp only [seen, h.createDirectory]
  split
  · rfl
  · rcases host'.createDirectory s.location.directory st.world with ⟨e | u, world⟩ <;> rfl

theorem store_seen (a : Artifact) :
    (st.seen see).store host s a = (st.store host' s a).map id (seen see) := by
  rw [store, store]
  split
  · rfl
  · rw [writeFile, writeFile, ensureDirectory_seen h]
    rcases st.ensureDirectory host' s with ⟨e | u, st'⟩
    · rfl
    · simp only [Prod.map_apply, id, seen, h.writeFile]
      rcases host'.writeFile (s.location.filePath (s.fileName a.identifier)) a.data st'.world
        with ⟨e | u, world⟩ <;> rfl

theorem renderNew_seen (identifier input : String) :
    (st.seen see).renderNew host s identifier input
      = (st.renderNew host' s identifier input).map id (seen see) := by
  rw [renderNew, renderNew]
  simp only [seen, h.typeset]
  rcases host'.typeset ⟨input, s.format, s.resolution⟩ st.world with ⟨e | output, world⟩
  · rfl
  · simp only [Prod.map_apply, id]
    cases s.accept identifier output with
    | error e => rfl
    | ok a =>
      have hstore := store_seen h s ⟨st.renderer, world⟩ a
      rw [seen] at hstore
      simp only [hstore]
      rcases store host' s a ⟨st.renderer, world⟩ with ⟨e | b, st'⟩ <;> rfl

/-- What a renderer does depends on its surroundings only by what it is answered. -/
theorem render_seen (input : String) (explicit? : Option String) :
    (st.seen see).render host s input explicit?
      = (st.render host' s input explicit?).map id (seen see) := by
  have hrenderer : (st.seen see).renderer = st.renderer := rfl
  rw [render, render, hrenderer]
  cases st.renderer.cached? (identifierOf explicit? input) with
  | some a => rfl
  | none => exact renderNew_seen h s st (identifierOf explicit? input) input

end RenderState

/-! ### Recording hosts -/

/-- A call of an operation of a host. -/
inductive HostCall where
  | typeset (request : Request)
  | createDirectory (path : Path)
  | writeFile (path : Path) (data : Bytes)

namespace HostCall

/-- What an engine is asked to typeset. -/
def request? : HostCall → Option Request
  | typeset request => some request
  | createDirectory _ => none
  | writeFile _ _ => none

/-- The calls that may be made to store an artifact under an identifier. -/
inductive Stores (s : RenderSettings) (identifier : String) : HostCall → Prop
  | directory : Stores s identifier (createDirectory s.location.directory)
  | file (data : Bytes) :
    Stores s identifier (writeFile (s.location.filePath (s.fileName identifier)) data)

theorem Stores.request?_eq_none {s : RenderSettings} {identifier : String} {c : HostCall}
    (h : c.Stores s identifier) : c.request? = none := by
  cases h <;> rfl

end HostCall

/-- The host that passes every call on and writes it down. -/
def Host.recording (host : Host σ) : Host (σ × List HostCall) where
  typeset request := fun (world, calls) ↦
    (host.typeset request world).map id (·, calls ++ [.typeset request])
  createDirectory path := fun (world, calls) ↦
    (host.createDirectory path world).map id (·, calls ++ [.createDirectory path])
  writeFile path data := fun (world, calls) ↦
    (host.writeFile path data world).map id (·, calls ++ [.writeFile path data])

theorem Host.recording_looksLike (host : Host σ) :
    Host.LooksLike Prod.fst host.recording host where
  typeset _ _ := rfl
  createDirectory _ _ := rfl
  writeFile _ _ _ := rfl

/-- The calls that have been written down. -/
def RenderState.calls (st : RenderState (σ × List HostCall)) : List HostCall :=
  st.world.2

namespace RenderState

variable (host : Host σ) (s : RenderSettings) (st : RenderState (σ × List HostCall))

theorem calls_ensureDirectory (identifier : String) :
    ∃ stored, (st.ensureDirectory host.recording s).2.calls = st.calls ++ stored ∧
      ∀ c ∈ stored, c.Stores s identifier := by
  rw [ensureDirectory]
  split
  · exact ⟨[], (List.append_nil _).symm, List.forall_mem_nil _⟩
  · refine ⟨[.createDirectory s.location.directory], ?_, List.forall_mem_singleton.mpr .directory⟩
    simp only [Host.recording]
    rcases host.createDirectory s.location.directory st.world.1 with ⟨e | u, world⟩ <;> rfl

theorem calls_store (a : Artifact) :
    ∃ stored, (st.store host.recording s a).2.calls = st.calls ++ stored ∧
      ∀ c ∈ stored, s.embed = false ∧ c.Stores s a.identifier := by
  rw [store]
  split
  · exact ⟨[], (List.append_nil _).symm, List.forall_mem_nil _⟩
  · next hembed =>
    rw [Bool.not_eq_true] at hembed
    obtain ⟨stored, hcalls, hstored⟩ := calls_ensureDirectory host s st a.identifier
    rw [writeFile]
    rcases hensure : st.ensureDirectory host.recording s with ⟨e | u, st'⟩ <;>
      rw [hensure] at hcalls
    · exact ⟨stored, hcalls, fun c hc ↦ ⟨hembed, hstored c hc⟩⟩
    · refine ⟨stored ++ [.writeFile (s.location.filePath (s.fileName a.identifier)) a.data], ?_,
        fun c hc ↦ ⟨hembed, List.forall_mem_append.mpr
          ⟨hstored, List.forall_mem_singleton.mpr (.file a.data)⟩ c hc⟩⟩
      rw [← List.append_assoc, ← hcalls]
      simp only [Host.recording]
      rcases host.writeFile (s.location.filePath (s.fileName a.identifier)) a.data st'.world.1
        with ⟨e | u, world⟩ <;> rfl

theorem calls_renderNew (identifier input : String) :
    ∃ stored, (st.renderNew host.recording s identifier input).2.calls
        = st.calls ++ .typeset (s.request input) :: stored ∧
      ∀ c ∈ stored, s.embed = false ∧ c.Stores s identifier := by
  have hworld : (host.recording.typeset ⟨input, s.format, s.resolution⟩ st.world).2.2
      = st.calls ++ [.typeset (s.request input)] := rfl
  rw [renderNew]
  rcases hanswer : host.recording.typeset ⟨input, s.format, s.resolution⟩ st.world
    with ⟨e | output, world⟩ <;> rw [hanswer] at hworld
  · exact ⟨[], hworld, List.forall_mem_nil _⟩
  · simp only
    cases haccept : s.accept identifier output with
    | error e => exact ⟨[], hworld, List.forall_mem_nil _⟩
    | ok a =>
      obtain ⟨stored, hcalls, hstored⟩ := calls_store host s ⟨st.renderer, world⟩ a
      rw [RenderSettings.identifier_of_accept haccept] at hstored
      refine ⟨stored, ?_, hstored⟩
      rw [List.append_cons _ _ stored, ← hworld]
      refine Eq.trans ?_ hcalls
      simp only
      rcases store host.recording s a ⟨st.renderer, world⟩ with ⟨e | b, st'⟩ <;> rfl

/-- A rendering calls the engine first, and then at most for the file of its identifier, unless
artifacts are embedded; and it makes no call at all if an artifact is kept under the identifier. -/
theorem calls_render (e : NamedInput) :
    ∃ stored, (st.render host.recording s e.input e.explicit?).2.calls
        = st.calls ++ (if (st.renderer.cached? e.identifier).isSome then []
          else .typeset (s.request e.input) :: stored) ∧
      ∀ c ∈ stored, s.embed = false ∧ c.Stores s e.identifier := by
  rw [render]
  cases hcached : st.renderer.cached? (identifierOf e.explicit? e.input) with
  | some a =>
    refine ⟨[], ?_, List.forall_mem_nil _⟩
    rw [NamedInput.identifier, hcached]
    exact (List.append_nil _).symm
  | none =>
    rw [NamedInput.identifier, hcached]
    exact calls_renderNew host s st (identifierOf e.explicit? e.input) e.input

end RenderState

end DocumentMath
