import DocumentMath.Proofs.Fallible
import DocumentMath.Render.Renderer

/-!
# What a rendering comes to

`RenderSettings.outcome` is what an answer of the engine makes if nothing goes wrong with files. A
rendering without a kept artifact either comes to that and keeps it, or fails and keeps nothing
(`RenderState.renderNew_cases`); if it is the equation that fails, the outcome of the answer is the
same failure. A rendering with a kept artifact is that artifact (`RenderState.render_cases`). So
what is kept are outcomes of answers, whatever the order of the calls (`Renderer.KeepsOutcomes`). An
error that is not about the equation is one that the surroundings raise (`Host.Raises`).
-/

namespace DocumentMath

/-! ### Answers -/

/-- The errors that the surroundings of a pass end it with: those of files, and those that the
engine returns and that do not concern a single equation. -/
def Host.Raises {σ : Type} (host : Host σ) (e : Error) : Prop :=
  (∃ cause, e = .io cause) ∨
    ∃ request world, (host.typeset request world).1 = .error e ∧ e.isRenderFailure = false

theorem Image.detect_of_check {expected : Format} {data : Text.Bytes} {u : Unit}
    (h : Image.check expected data = .ok u) : Image.detect data = .ok expected := by
  rw [check] at h
  split at h
  · cases h
  · next found hdetect =>
    split at h
    · next heq => rw [hdetect, heq]
    · cases h

namespace RenderSettings

/-- What an answer of the engine makes under an identifier, if files can be written. -/
def outcome (s : RenderSettings) (identifier : String) (answer : Except Error EngineOutput) :
    Except Error Artifact :=
  match answer with
  | .error e => .error e
  | .ok output =>
    match s.accept identifier output with
    | .error e => .error (.unknownFormat e)
    | .ok a => .ok (if s.embed then a else s.written a)

/-- What the engine is asked for an input. -/
def request (s : RenderSettings) (input : String) : Request :=
  ⟨input, s.format, s.resolution⟩

variable {s : RenderSettings} {identifier : String}

/-- An accepted artifact has the identifier it was accepted under and the bytes of the answer, in
the format asked for, and has not been written to a file. -/
theorem accept_eq_ok {output : EngineOutput} {a : Artifact}
    (h : s.accept identifier output = .ok a) :
    a.identifier = identifier ∧ a.format = s.format ∧ a.data = output.data ∧ a.target? = none ∧
      a.path? = none := by
  obtain ⟨-, -, h⟩ := Fallible.bind_eq_ok h
  split at h
  · obtain ⟨⟨width, height⟩, -, h⟩ := Fallible.bind_eq_ok h
    cases h
    exact ⟨rfl, rfl, rfl, rfl, rfl⟩
  · cases h
    exact ⟨rfl, rfl, rfl, rfl, rfl⟩

/-- An accepted artifact is in the format asked for. -/
theorem detect_of_accept {output : EngineOutput} {a : Artifact}
    (h : s.accept identifier output = .ok a) : Image.detect a.data = .ok s.format := by
  obtain ⟨u, hcheck, -⟩ := Fallible.bind_eq_ok h
  rw [(accept_eq_ok h).2.2.1]
  exact Image.detect_of_check hcheck

/-- An accepted artifact has a size exactly if it is a raster image. -/
theorem isSome_size_of_accept {output : EngineOutput} {a : Artifact}
    (h : s.accept identifier output = .ok a) :
    a.width?.isSome = s.format.isRaster ∧ a.height?.isSome = s.format.isRaster := by
  obtain ⟨-, -, h⟩ := Fallible.bind_eq_ok h
  split at h
  · next hraster =>
    obtain ⟨⟨width, height⟩, -, h⟩ := Fallible.bind_eq_ok h
    cases h
    exact ⟨hraster.symm, hraster.symm⟩
  · next hraster =>
    rw [Bool.not_eq_true] at hraster
    cases h
    exact ⟨hraster.symm, hraster.symm⟩

theorem identifier_of_accept {output : EngineOutput} {a : Artifact}
    (h : s.accept identifier output = .ok a) : a.identifier = identifier :=
  (accept_eq_ok h).1

variable {answer : Except Error EngineOutput} {a : Artifact}

/-- An artifact that comes of an answer is what has been accepted of it, written to a file or not.
-/
theorem accept_of_outcome (h : s.outcome identifier answer = .ok a) :
    ∃ output accepted, answer = .ok output ∧ s.accept identifier output = .ok accepted ∧
      a = if s.embed then accepted else s.written accepted := by
  unfold outcome at h
  split at h
  · cases h
  · next output =>
    split at h
    · cases h
    · next accepted haccept =>
      cases h
      exact ⟨output, accepted, rfl, haccept, rfl⟩

theorem identifier_of_outcome (h : s.outcome identifier answer = .ok a) :
    a.identifier = identifier := by
  obtain ⟨output, accepted, -, haccept, rfl⟩ := accept_of_outcome h
  rw [← identifier_of_accept haccept]
  split <;> rfl

theorem format_of_outcome (h : s.outcome identifier answer = .ok a) : a.format = s.format := by
  obtain ⟨output, accepted, -, haccept, rfl⟩ := accept_of_outcome h
  rw [← (accept_eq_ok haccept).2.1]
  split <;> rfl

/-- An artifact that comes of an answer is in a file, and is referred to, unless artifacts are
embedded. -/
theorem isFile_of_outcome (h : s.outcome identifier answer = .ok a) :
    a.target?.isSome = !s.embed ∧ a.path?.isSome = !s.embed := by
  obtain ⟨output, accepted, -, haccept, rfl⟩ := accept_of_outcome h
  obtain ⟨-, -, -, htarget, hpath⟩ := accept_eq_ok haccept
  cases s.embed with
  | true => exact ⟨congrArg Option.isSome htarget, congrArg Option.isSome hpath⟩
  | false => exact ⟨rfl, rfl⟩

/-- An artifact that comes of an answer holds the bytes of the answer. -/
theorem data_of_outcome (h : s.outcome identifier answer = .ok a) :
    ∃ output, answer = .ok output ∧ a.data = output.data := by
  obtain ⟨output, accepted, rfl, haccept, rfl⟩ := accept_of_outcome h
  refine ⟨output, rfl, ?_⟩
  rw [← (accept_eq_ok haccept).2.2.1]
  split <;> rfl

/-- An artifact that comes of an answer is in the format asked for. -/
theorem detect_of_outcome (h : s.outcome identifier answer = .ok a) :
    Image.detect a.data = .ok s.format := by
  obtain ⟨output, accepted, -, haccept, rfl⟩ := accept_of_outcome h
  have hdetect := detect_of_accept haccept
  split <;> exact hdetect

/-- An artifact that comes of an answer has a size exactly if it is a raster image. -/
theorem isSome_size_of_outcome (h : s.outcome identifier answer = .ok a) :
    a.width?.isSome = s.format.isRaster ∧ a.height?.isSome = s.format.isRaster := by
  obtain ⟨output, accepted, -, haccept, rfl⟩ := accept_of_outcome h
  have hsize := isSome_size_of_accept haccept
  split <;> exact hsize

/-- Without embedding, an artifact is referred to by the name of its file. -/
theorem target?_of_outcome (hembed : s.embed = false) (h : s.outcome identifier answer = .ok a) :
    a.target? = some (s.location.target (s.fileName identifier)) := by
  obtain ⟨output, accepted, -, haccept, rfl⟩ := accept_of_outcome h
  obtain rfl := identifier_of_accept haccept
  rw [hembed]
  rfl

end RenderSettings

/-! ### Renderings -/

namespace RenderState

variable {σ : Type} (host : Host σ) (s : RenderSettings) (st : RenderState σ)

theorem ensureDirectory_cases :
    ((ensureDirectory host s st).1 = .ok () ∨
        ∃ e, (ensureDirectory host s st).1 = .error (.io e)) ∧
      (ensureDirectory host s st).2.renderer.cache = st.renderer.cache := by
  rw [ensureDirectory]
  split
  · exact ⟨Or.inl rfl, rfl⟩
  · rcases host.createDirectory s.location.directory st.world with ⟨e | u, world⟩
    · exact ⟨Or.inr ⟨e, rfl⟩, rfl⟩
    · exact ⟨Or.inl rfl, rfl⟩

/-- Storing an artifact gives what it is to be, or fails for the sake of a file. -/
theorem store_cases (a : Artifact) :
    ((store host s a st).1 = .ok (if s.embed then a else s.written a) ∨
        ∃ e, (store host s a st).1 = .error (.io e)) ∧
      (store host s a st).2.renderer.cache = st.renderer.cache := by
  rw [store]
  split
  · exact ⟨Or.inl rfl, rfl⟩
  · obtain ⟨hresult, hcache⟩ := ensureDirectory_cases host s st
    rw [writeFile]
    rcases hensure : ensureDirectory host s st with ⟨e | u, st'⟩ <;>
      rw [hensure] at hresult hcache
    · obtain ⟨e', rfl⟩ : ∃ e', e = Error.io e' := by simpa using hresult
      exact ⟨Or.inr ⟨e', rfl⟩, hcache⟩
    · obtain ⟨u⟩ := u
      simp only
      rcases host.writeFile _ a.data st'.world with ⟨e | v, world⟩
      · exact ⟨Or.inr ⟨e, rfl⟩, hcache⟩
      · exact ⟨Or.inl rfl, hcache⟩

/-- A rendering that no artifact is kept for either makes an artifact and keeps it, or fails and
keeps nothing. -/
theorem renderNew_cases (identifier input : String) :
    (∃ a, (renderNew host s identifier input st).1 = .ok a ∧
        s.outcome identifier (host.typeset (s.request input) st.world).1 = .ok a ∧
        (renderNew host s identifier input st).2.renderer.cache
          = st.renderer.cache ++ [(identifier, a)]) ∨
      ∃ e, (renderNew host s identifier input st).1 = .error e ∧
        (e.isRenderFailure = true →
          s.outcome identifier (host.typeset (s.request input) st.world).1 = .error e) ∧
        (renderNew host s identifier input st).2.renderer.cache = st.renderer.cache := by
  rw [renderNew, RenderSettings.request]
  rcases host.typeset ⟨input, s.format, s.resolution⟩ st.world with ⟨e | output, world⟩
  · exact Or.inr ⟨e, rfl, fun _ ↦ rfl, rfl⟩
  · rw [RenderSettings.outcome]
    simp only
    cases haccept : s.accept identifier output with
    | error e => exact Or.inr ⟨.unknownFormat e, rfl, fun _ ↦ rfl, rfl⟩
    | ok a =>
      simp only
      obtain ⟨hresult, hcache⟩ := store_cases host s { st with world } a
      have hid : (if s.embed then a else s.written a).identifier = identifier := by
        rw [← RenderSettings.identifier_of_accept haccept]
        split <;> rfl
      rcases hstore : store host s a { st with world } with ⟨e | b, st'⟩ <;>
        rw [hstore] at hresult hcache
      · obtain ⟨e', rfl⟩ : ∃ e', e = Error.io e' := by simpa using hresult
        exact Or.inr ⟨.io e', rfl, fun hfailure ↦ (Bool.false_ne_true hfailure).elim, hcache⟩
      · have hb : b = if s.embed then a else s.written a := by simpa using hresult
        refine Or.inl ⟨b, rfl, by rw [hb], ?_⟩
        rw [← hid, ← hb, ← hcache]
        rfl

/-- Without a kept artifact, the engine is asked. Its answer fails, and nothing else happens; or it
is accepted, and the artifact is stored and kept. -/
theorem renderNew_steps (identifier input : String) {answer : Except Error EngineOutput} {world : σ}
    (hanswer : host.typeset (s.request input) st.world = (answer, world)) :
    (∃ e, s.outcome identifier answer = .error e ∧
        st.renderNew host s identifier input = (.error e, { st with world })) ∨
      ∃ a, s.outcome identifier answer = .ok (if s.embed then a else s.written a) ∧
        a.identifier = identifier ∧
        st.renderNew host s identifier input = match store host s a { st with world } with
          | (.error e, st) => (.error e, st)
          | (.ok a, st) => (.ok a, { st with renderer := st.renderer.keep a }) := by
  rw [RenderSettings.request] at hanswer
  rw [renderNew, hanswer]
  cases answer with
  | error e => exact Or.inl ⟨e, rfl, rfl⟩
  | ok output =>
    simp only [RenderSettings.outcome]
    cases haccept : s.accept identifier output with
    | error e => exact Or.inl ⟨.unknownFormat e, rfl, rfl⟩
    | ok a => exact Or.inr ⟨a, rfl, RenderSettings.identifier_of_accept haccept, rfl⟩

/-- After an answer that fails, the renderer is as it was. -/
theorem renderNew_of_failure {identifier input : String} {e : Error}
    (houtcome : s.outcome identifier (host.typeset (s.request input) st.world).1 = .error e) :
    (st.renderNew host s identifier input).2
      = ⟨st.renderer, (host.typeset (s.request input) st.world).2⟩ := by
  rcases hanswer : host.typeset (s.request input) st.world with ⟨answer, world⟩
  rw [hanswer] at houtcome
  rcases st.renderNew_steps host s identifier input hanswer with
    ⟨e', -, hrun⟩ | ⟨accepted, hok, -, -⟩
  · rw [hrun]
  · cases houtcome.symm.trans hok

/-- A rendering that no artifact is kept for fails for the sake of a file, because the answer is
not in the right format, or because the engine fails. -/
theorem renderNew_error {identifier input : String} {e : Error}
    (h : (renderNew host s identifier input st).1 = .error e) :
    (∃ cause, e = .io cause) ∨ (∃ cause, e = .unknownFormat cause) ∨
      (host.typeset (s.request input) st.world).1 = .error e := by
  rw [renderNew] at h
  rw [RenderSettings.request]
  rcases htypeset : host.typeset ⟨input, s.format, s.resolution⟩ st.world with
    ⟨e' | output, world⟩ <;> rw [htypeset] at h
  · cases h
    exact Or.inr (Or.inr rfl)
  · simp only at h
    cases haccept : s.accept identifier output with
    | error e' =>
      rw [haccept] at h
      cases h
      exact Or.inr (Or.inl ⟨e', rfl⟩)
    | ok a =>
      rw [haccept] at h
      obtain ⟨hresult, -⟩ := store_cases host s { st with world } a
      simp only at h
      rcases hstore : store host s a { st with world } with ⟨e' | b, st'⟩ <;>
        rw [hstore] at h hresult <;> cases h
      exact Or.inl (by simpa using hresult)

/-- A rendering gives the artifact that is kept, if there is one, or is a new one. -/
theorem render_cases (input : String) (explicit? : Option String) :
    (∃ a, (identifierOf explicit? input, a) ∈ st.renderer.cache ∧
        render host s input explicit? st = (.ok a, st)) ∨
      render host s input explicit? st
        = renderNew host s (identifierOf explicit? input) input st := by
  rw [render]
  cases hcached : st.renderer.cached? (identifierOf explicit? input) with
  | none => exact Or.inr rfl
  | some a =>
    obtain ⟨entry, hentry, rfl⟩ := Option.map_eq_some_iff.mp hcached
    have hkey : entry.1 = identifierOf explicit? input := by
      simpa using List.find?_some hentry
    exact Or.inl ⟨entry.2, hkey ▸ List.mem_of_find?_eq_some hentry, rfl⟩

variable {host s st} {st' : RenderState σ} {input : String} {explicit? : Option String}

/-- An artifact that is rendered is kept afterwards. It was kept before, or it is what an answer of
the engine makes. -/
theorem cache_of_render_ok {a : Artifact} (h : render host s input explicit? st = (.ok a, st')) :
    ((identifierOf explicit? input, a) ∈ st.renderer.cache ∧
        st'.renderer.cache = st.renderer.cache) ∨
      ∃ answer, s.outcome (identifierOf explicit? input) answer = .ok a ∧
        st'.renderer.cache = st.renderer.cache ++ [(identifierOf explicit? input, a)] := by
  rcases render_cases host s st input explicit? with ⟨b, hb, hrender⟩ | hrender
  · cases hrender.symm.trans h
    exact Or.inl ⟨hb, rfl⟩
  · have hnew := renderNew_cases host s st (identifierOf explicit? input) input
    rw [← hrender, h] at hnew
    rcases hnew with ⟨b, hb, houtcome, hcache⟩ | ⟨e, he, -⟩
    · cases hb
      exact Or.inr ⟨_, houtcome, hcache⟩
    · cases he

/-- A rendering fails because of the equation, or with an error of its surroundings. -/
theorem raises_of_render_error {e : Error} (h : render host s input explicit? st = (.error e, st'))
    (hfailure : e.isRenderFailure = false) : host.Raises e := by
  rcases render_cases host s st input explicit? with ⟨a, -, hrender⟩ | hrender
  · cases hrender.symm.trans h
  · have hresult := congrArg Prod.fst (hrender.symm.trans h)
    rcases renderNew_error host s st hresult with hio | ⟨cause, rfl⟩ | hengine
    · exact Or.inl hio
    · cases hfailure
    · exact Or.inr ⟨_, _, hengine, hfailure⟩

/-- A rendering that fails keeps nothing. -/
theorem cache_of_render_error {e : Error} (h : render host s input explicit? st = (.error e, st')) :
    st'.renderer.cache = st.renderer.cache := by
  rcases render_cases host s st input explicit? with ⟨b, -, hrender⟩ | hrender
  · cases hrender.symm.trans h
  · have hnew := renderNew_cases host s st (identifierOf explicit? input) input
    rw [← hrender, h] at hnew
    rcases hnew with ⟨b, hb, -⟩ | ⟨e', -, -, hcache⟩
    · cases hb
    · exact hcache

end RenderState

/-! ### What is kept -/

/-- Each artifact that is kept is what an answer of the engine makes under its identifier. -/
def Renderer.KeepsOutcomes (s : RenderSettings) (r : Renderer) : Prop :=
  ∀ entry ∈ r.cache, ∃ answer, s.outcome entry.1 answer = .ok entry.2

theorem Renderer.keepsOutcomes_initial (s : RenderSettings) : Renderer.initial.KeepsOutcomes s :=
  List.forall_mem_nil _

namespace RenderState

variable {σ : Type} {host : Host σ} {s : RenderSettings} {st st' : RenderState σ} {input : String}
  {explicit? : Option String} (hst : st.renderer.KeepsOutcomes s)
include hst

theorem keepsOutcomes_of_render_ok {a : Artifact}
    (h : st.render host s input explicit? = (.ok a, st')) :
    st'.renderer.KeepsOutcomes s ∧
      ∃ answer, s.outcome (identifierOf explicit? input) answer = .ok a := by
  rcases cache_of_render_ok h with ⟨ha, hcache⟩ | ⟨answer, houtcome, hcache⟩ <;>
    rw [Renderer.KeepsOutcomes, hcache]
  · exact ⟨hst, hst _ ha⟩
  · rw [List.forall_mem_append, List.forall_mem_singleton]
    exact ⟨⟨hst, answer, houtcome⟩, answer, houtcome⟩

theorem keepsOutcomes_of_render_error {e : Error}
    (h : st.render host s input explicit? = (.error e, st')) : st'.renderer.KeepsOutcomes s := by
  rw [Renderer.KeepsOutcomes, cache_of_render_error h]
  exact hst

end RenderState

end DocumentMath
