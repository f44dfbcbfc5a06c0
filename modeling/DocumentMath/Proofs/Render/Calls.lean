import DocumentMath.Proofs.Render.Rendering
import DocumentMath.Render.Prepared

/-!
# Sequences of calls

A renderer is called for one equation after the other (`RenderState.renderAll`); a call that fails
does not end the sequence. An artifact is kept under the identifier of its equation, whatever the
equation is. So what a call shows is the first equation that has been rendered under its identifier
(`RenderState.renderAll_shows_first`), which may be another one only if an identifier has been given
for one of the two: two equations with one given identifier are shown alike
(`RenderState.renderAll_shows_other`).

The invariant of the calls is `Renderer.Remembers`: what is kept under an identifier shows the first
equation in the history that has been rendered under it, and where nothing is kept there is none.
-/

namespace DocumentMath

variable {σ : Type}

/-! ### Equations and what comes of them -/

/-- An equation as a renderer gets it. -/
structure NamedInput where
  /-- The identifier given for it. -/
  explicit? : Option String
  /-- The delimited LaTeX. -/
  input : String
  deriving DecidableEq, Repr

namespace NamedInput

/-- The name under which the artifact of an equation is kept. -/
def identifier (e : NamedInput) : String :=
  identifierOf e.explicit? e.input

/-- Whether an identifier has been given for the equation. -/
def isNamed (e : NamedInput) : Bool :=
  e.explicit?.any (!·.isEmpty)

theorem identifier_of_not_isNamed {e : NamedInput} (h : e.isNamed = false) :
    e.identifier = contentIdentifier e.input := by
  have hnone : e.explicit?.filter (!·.isEmpty) = none := by
    cases hexplicit : e.explicit? with
    | none => rfl
    | some id =>
      rw [isNamed, hexplicit] at h
      exact Option.filter_eq_none_iff.mpr fun a ha ↦ by cases ha; simpa using h
  rw [identifier, identifierOf, hnone]
  rfl

end NamedInput

theorem hexDigest_eq_of_contentIdentifier_eq {input input' : String}
    (h : contentIdentifier input = contentIdentifier input') :
    Md5.hexDigest input = Md5.hexDigest input' :=
  String.append_right_inj _ |>.mp h

/-- An equation that has been given to a renderer, and what has come of it. -/
structure Attempt where
  equation : NamedInput
  result : Except Error Artifact

namespace Attempt

/-- The artifact, if the equation has been rendered. -/
def artifact? (a : Attempt) : Option Artifact :=
  a.result.toOption

/-- The failure that is reported, if the equation has not been rendered. -/
def failure? (a : Attempt) : Option Failure :=
  match a.result with
  | .ok _ => none
  | .error e => some ⟨a.equation.input, e.message⟩

/-- The identifier of the equation, if it has been rendered. -/
def identifier? (a : Attempt) : Option String :=
  a.artifact?.map fun _ ↦ a.equation.identifier

/-- The equation has been rendered. -/
def isRendered (a : Attempt) : Bool :=
  a.artifact?.isSome

theorem exists_result_of_isRendered {x : Attempt} (h : x.isRendered = true) :
    ∃ a, x.result = .ok a := by
  obtain ⟨e, error | a⟩ := x
  · cases h
  · exact ⟨a, rfl⟩

/-- Each equation has been rendered or has failed. -/
theorem countP_add_length (as : List Attempt) :
    as.countP isRendered + (as.filterMap failure?).length = as.length := by
  induction as with
  | nil => rfl
  | cons a as ih =>
    obtain ⟨e, error | artifact⟩ := a
    · simp only [List.countP_cons, List.filterMap_cons, isRendered, artifact?, failure?,
        Except.toOption, List.length_cons, ← ih]
      exact Nat.add_assoc _ _ 1
    · simp only [List.countP_cons, List.filterMap_cons, isRendered, artifact?, failure?,
        Except.toOption, List.length_cons, ← ih]
      exact Nat.add_right_comm _ 1 _

/-- The equation has been rendered under an identifier. -/
def isRenderedAs (identifier : String) (a : Attempt) : Bool :=
  a.identifier? == some identifier

theorem isRenderedAs_of_ok {e : NamedInput} {a : Artifact} {identifier : String} :
    isRenderedAs identifier ⟨e, .ok a⟩ = (e.identifier == identifier) := rfl

theorem isRenderedAs_of_error {e : NamedInput} {error : Error} {identifier : String} :
    isRenderedAs identifier ⟨e, .error error⟩ = false := rfl

/-- If there is an artifact, it holds what an engine makes of an input. -/
def Shows (engine : Engine) (s : RenderSettings) (input : String) (a : Attempt) : Prop :=
  ∀ artifact, a.result = .ok artifact →
    ∃ output, engine (s.request input) = .ok output ∧ artifact.data = output.data

instance (engine : Engine) (s : RenderSettings) (input : String) (a : Attempt) :
    Decidable (a.Shows engine s input) :=
  match hresult : a.result with
  | .error _ => .isTrue fun _ hartifact ↦ nomatch hresult.symm.trans hartifact
  | .ok artifact =>
    match hanswer : engine (s.request input) with
    | .error _ => .isFalse fun hshows ↦
      have ⟨_, houtput, _⟩ := hshows artifact hresult
      nomatch hanswer.symm.trans houtput
    | .ok output =>
      if hdata : artifact.data = output.data then
        .isTrue fun _ hartifact ↦
          Except.ok.inj (hresult.symm.trans hartifact) ▸ ⟨output, hanswer, hdata⟩
      else
        .isFalse fun hshows ↦
          have ⟨_, houtput, hother⟩ := hshows artifact hresult
          hdata (Except.ok.inj (hanswer.symm.trans houtput) ▸ hother)

end Attempt

/-- The host of an engine for which every write succeeds. -/
def Host.writable (engine : Engine) : Host Unit where
  typeset request _ := (engine request, ())
  createDirectory _ _ := (.ok (), ())
  writeFile _ _ _ := (.ok (), ())

/-- The engine of a host answers each request in one way. -/
def Host.Answers (host : Host σ) (engine : Engine) : Prop :=
  ∀ request world, (host.typeset request world).1 = engine request

/-! ### What is remembered -/

namespace Renderer

theorem cached?_append {r r' : Renderer} {identifier : String} {a : Artifact}
    (hcache : r'.cache = r.cache ++ [(identifier, a)]) (other : String) :
    r'.cached? other
      = (r.cached? other).or (if identifier = other then some a else none) := by
  rw [cached?, cached?, hcache, List.find?_append, List.find?_singleton]
  cases r.cache.find? (·.1 == other) with
  | some entry => rfl
  | none =>
    by_cases hother : identifier = other <;> simp [hother]

theorem cached?_congr {r r' : Renderer} (hcache : r'.cache = r.cache) (identifier : String) :
    r'.cached? identifier = r.cached? identifier := by
  rw [cached?, cached?, hcache]

/-- What is kept shows the first equation that has been rendered under its identifier, and there is
one only if something is kept. -/
structure Remembers (engine : Engine) (s : RenderSettings) (history : List Attempt)
    (r : Renderer) : Prop where
  kept : ∀ identifier a, r.cached? identifier = some a →
    ∃ first output, history.find? (Attempt.isRenderedAs identifier) = some first ∧
      engine (s.request first.equation.input) = .ok output ∧ a.data = output.data
  absent : ∀ identifier, r.cached? identifier = none →
    history.find? (Attempt.isRenderedAs identifier) = none

namespace Remembers

variable {engine : Engine} {s : RenderSettings} {history : List Attempt} {r r' : Renderer}

theorem initial (engine : Engine) (s : RenderSettings) : initial.Remembers engine s [] where
  kept _ _ h := nomatch h
  absent _ _ := rfl

/-- A call that finds something, or that fails, is no news. -/
theorem again (h : r.Remembers engine s history) (hcache : r'.cache = r.cache) {x : Attempt}
    (hx : ∀ identifier, x.isRenderedAs identifier = true → (r.cached? identifier).isSome) :
    r'.Remembers engine s (history ++ [x]) := by
  constructor
  · intro identifier a ha
    rw [cached?_congr hcache] at ha
    obtain ⟨first, output, hfirst, hshows⟩ := h.kept identifier a ha
    exact ⟨first, output, by rw [List.find?_append, hfirst, Option.some_or], hshows⟩
  · intro identifier hnone
    rw [cached?_congr hcache] at hnone
    have hother : x.isRenderedAs identifier = false := by
      rw [← Bool.not_eq_true]
      intro hrendered
      have hsome := hx identifier hrendered
      rw [hnone] at hsome
      cases hsome
    rw [List.find?_append, h.absent identifier hnone, List.find?_singleton, hother]
    rfl

/-- The first equation that is rendered under an identifier is remembered. -/
theorem new (h : r.Remembers engine s history) {e : NamedInput} {a : Artifact}
    {output : EngineOutput} (hnone : r.cached? e.identifier = none)
    (hcache : r'.cache = r.cache ++ [(e.identifier, a)])
    (hengine : engine (s.request e.input) = .ok output) (hdata : a.data = output.data) :
    r'.Remembers engine s (history ++ [⟨e, .ok a⟩]) := by
  constructor
  · intro identifier b hb
    rw [cached?_append hcache] at hb
    by_cases hidentifier : e.identifier = identifier
    · -- nothing has been kept before, so that no earlier one comes first
      subst hidentifier
      rw [hnone, Option.none_or, if_pos rfl] at hb
      cases hb
      refine ⟨⟨e, .ok a⟩, output, ?_, hengine, hdata⟩
      rw [List.find?_append, h.absent _ hnone, Option.none_or, List.find?_singleton,
        Attempt.isRenderedAs_of_ok, beq_self_eq_true, if_pos rfl]
    · rw [if_neg hidentifier, Option.or_none] at hb
      obtain ⟨first, output, hfirst, hshows⟩ := h.kept identifier b hb
      exact ⟨first, output, by rw [List.find?_append, hfirst, Option.some_or], hshows⟩
  · intro identifier hb
    rw [cached?_append hcache, Option.or_eq_none_iff] at hb
    have hidentifier : e.identifier ≠ identifier := fun heq ↦ by
      rw [if_pos heq] at hb
      cases hb.2
    rw [List.find?_append, h.absent identifier hb.1, Option.none_or, List.find?_singleton,
      Attempt.isRenderedAs_of_ok, beq_eq_false_iff_ne.mpr hidentifier]
    rfl

end Remembers

end Renderer

/-! ### Calls -/

namespace RenderState

/-- Renders equations one after the other, and puts down what comes of each. -/
def renderAll (host : Host σ) (s : RenderSettings) :
    List NamedInput → RenderState σ → List Attempt × RenderState σ
  | [], st => ([], st)
  | e :: es, st =>
    let (result, st) := st.render host s e.input e.explicit?
    let (as, st) := renderAll host s es st
    (⟨e, result⟩ :: as, st)

variable {host : Host σ} {s : RenderSettings} {engine : Engine}

theorem renderAll_cons (e : NamedInput) (es : List NamedInput) (st : RenderState σ) :
    renderAll host s (e :: es) st
      = (⟨e, (st.render host s e.input e.explicit?).1⟩
          :: (renderAll host s es (st.render host s e.input e.explicit?).2).1,
        (renderAll host s es (st.render host s e.input e.explicit?).2).2) := rfl

theorem equation_renderAll (host : Host σ) (s : RenderSettings) (es : List NamedInput)
    (st : RenderState σ) : (renderAll host s es st).1.map Attempt.equation = es := by
  induction es generalizing st with
  | nil => rfl
  | cons e es ih => rw [renderAll_cons, List.map_cons, ih]

/-- A call shows the first equation in the history, itself included, that has been rendered under
its identifier; and that is remembered. -/
theorem remembers_render (hengine : host.Answers engine) {history : List Attempt}
    {st : RenderState σ} (h : st.renderer.Remembers engine s history) (e : NamedInput) :
    (st.render host s e.input e.explicit?).2.renderer.Remembers engine s
        (history ++ [⟨e, (st.render host s e.input e.explicit?).1⟩]) ∧
      ∀ a, (st.render host s e.input e.explicit?).1 = .ok a →
        (st.render host s e.input e.explicit?).2.renderer.cached? e.identifier = some a := by
  rw [render]
  cases hcached : st.renderer.cached? (identifierOf e.explicit? e.input) with
  | some b =>
    refine ⟨h.again rfl fun identifier hrendered ↦ ?_, fun a ha ↦ by cases ha; exact hcached⟩
    rw [Attempt.isRenderedAs_of_ok, beq_iff_eq] at hrendered
    rw [← hrendered, NamedInput.identifier, hcached]
    rfl
  | none =>
    rcases st.renderNew_cases host s (identifierOf e.explicit? e.input) e.input with
      ⟨a, hresult, houtcome, hcache⟩ | ⟨error, hresult, -, hcache⟩
    · rw [hengine] at houtcome
      obtain ⟨output, hanswer, hdata⟩ := RenderSettings.data_of_outcome houtcome
      simp only [hresult]
      refine ⟨h.new hcached hcache hanswer hdata, fun b hb ↦ ?_⟩
      cases hb
      rw [Renderer.cached?_append hcache, NamedInput.identifier, hcached, if_pos rfl,
        Option.none_or]
    · simp only [hresult]
      refine ⟨h.again hcache fun identifier hrendered ↦ ?_, fun b hb ↦ nomatch hb⟩
      rw [Attempt.isRenderedAs_of_error] at hrendered
      cases hrendered

/-- Each call shows the first equation in the history that has been rendered under its
identifier. -/
theorem shows_of_remembers (hengine : host.Answers engine) {history : List Attempt}
    {es : List NamedInput} {st : RenderState σ} (h : st.renderer.Remembers engine s history)
    {i : Nat} {x : Attempt} (hx : (renderAll host s es st).1[i]? = some x)
    (hrendered : x.isRendered = true) :
    ∃ first, (history ++ (renderAll host s es st).1.take (i + 1)).find?
        (Attempt.isRenderedAs x.equation.identifier) = some first ∧
      x.Shows engine s first.equation.input := by
  induction es generalizing history st i with
  | nil => cases hx
  | cons e es ih =>
    obtain ⟨hremembers, hcached⟩ := remembers_render hengine h e
    rw [renderAll_cons] at hx ⊢
    cases i with
    | zero =>
      -- the history of this call ends with the call itself
      cases hx
      obtain ⟨a, hresult⟩ := Attempt.exists_result_of_isRendered hrendered
      simp only at hresult
      obtain ⟨first, output, hfirst, hanswer, hdata⟩ := hremembers.kept _ a (hcached a hresult)
      refine ⟨first, hfirst, fun b hb ↦ ⟨output, hanswer, ?_⟩⟩
      cases hresult.symm.trans hb
      exact hdata
    | succ i =>
      obtain ⟨first, hfirst, hshows⟩ := ih hremembers hx
      refine ⟨first, ?_, hshows⟩
      rw [List.append_assoc] at hfirst
      exact hfirst

/-- **A call shows the first equation that has been rendered under its identifier.** That is the
equation of the call itself, if neither for it nor for the first one an identifier has been given.
-/
theorem renderAll_shows_first (host : Host σ) (s : RenderSettings) (engine : Engine)
    (es : List NamedInput) (world : σ) (hengine : host.Answers engine)
    (hdigest : ∀ e ∈ es, ∀ e' ∈ es, Md5.hexDigest e.input = Md5.hexDigest e'.input →
      e.input = e'.input) :
    (renderAll host s es ⟨.initial, world⟩).1.map Attempt.equation = es ∧
      ∀ i x, (renderAll host s es ⟨.initial, world⟩).1[i]? = some x → x.isRendered = true →
        ∃ first, ((renderAll host s es ⟨.initial, world⟩).1.take (i + 1)).find?
            (Attempt.isRenderedAs x.equation.identifier) = some first ∧
          x.Shows engine s first.equation.input ∧
          (first.equation.isNamed = false → x.equation.isNamed = false →
            first.equation.input = x.equation.input) := by
  have hequations := equation_renderAll host s es ⟨.initial, world⟩
  refine ⟨hequations, fun i x hx hrendered ↦ ?_⟩
  obtain ⟨first, hfirst, hshows⟩ :=
    shows_of_remembers hengine (.initial engine s) hx hrendered
  refine ⟨first, hfirst, hshows, fun hfirstNamed hxNamed ↦ ?_⟩
  have hmem : ∀ y ∈ (renderAll host s es ⟨.initial, world⟩).1, y.equation ∈ es := fun y hy ↦
    hequations ▸ List.mem_map_of_mem hy
  have hidentifier : first.equation.identifier = x.equation.identifier := by
    have hrenderedAs := List.find?_some hfirst
    rw [Attempt.isRenderedAs, beq_iff_eq, Attempt.identifier?, Option.map_eq_some_iff]
      at hrenderedAs
    obtain ⟨a, -, heq⟩ := hrenderedAs
    exact heq
  rw [NamedInput.identifier_of_not_isNamed hfirstNamed,
    NamedInput.identifier_of_not_isNamed hxNamed] at hidentifier
  exact hdigest _ (hmem _ (List.mem_of_mem_take (List.mem_of_find?_eq_some hfirst))) _
    (hmem _ (List.mem_of_getElem? hx)) (hexDigest_eq_of_contentIdentifier_eq hidentifier)

/-- An engine that puts everything into markup but what it calls bad. -/
def markupEngine : Engine :=
  Prepared.engine ⟨[⟨"bad", .reject "bad input"⟩], 1, 1, none, none⟩

/-- Markup is asked for, and it is embedded. -/
def markupSettings : RenderSettings where
  format := .svg
  resolution := 72
  embed := true
  location := .resolve none none ⟨"/"⟩

/-- Equations of which some have one identifier: the first and the last, for which none is given,
and the three between, of which one is rejected. -/
def sharedCalls : List NamedInput :=
  [⟨none, "$x$"⟩, ⟨some "a", "$bad$"⟩, ⟨some "a", "$y$"⟩, ⟨some "a", "$z$"⟩, ⟨some "", "$x$"⟩]

theorem renderAll_shows_first_of_shared :
    (Host.writable markupEngine).Answers markupEngine ∧
      (∀ e ∈ sharedCalls, ∀ e' ∈ sharedCalls, Md5.hexDigest e.input = Md5.hexDigest e'.input →
        e.input = e'.input) ∧
      (renderAll (.writable markupEngine) markupSettings sharedCalls
          ⟨.initial, ()⟩).1.map Attempt.equation = sharedCalls ∧
        ∀ i x, (renderAll (.writable markupEngine) markupSettings sharedCalls
            ⟨.initial, ()⟩).1[i]? = some x → x.isRendered = true →
          ∃ first, ((renderAll (.writable markupEngine) markupSettings sharedCalls
                ⟨.initial, ()⟩).1.take (i + 1)).find?
              (Attempt.isRenderedAs x.equation.identifier) = some first ∧
            x.Shows markupEngine markupSettings first.equation.input ∧
            (first.equation.isNamed = false → x.equation.isNamed = false →
              first.equation.input = x.equation.input) := by
  have hengine : (Host.writable markupEngine).Answers markupEngine := fun _ _ ↦ rfl
  have hdigest : ∀ e ∈ sharedCalls, ∀ e' ∈ sharedCalls,
      Md5.hexDigest e.input = Md5.hexDigest e'.input → e.input = e'.input := by decide +kernel
  exact ⟨hengine, hdigest, renderAll_shows_first _ _ _ _ _ hengine hdigest⟩

/-- Two equations for which the same identifier is given are shown alike: the second one is shown as
the first. -/
theorem renderAll_shows_other :
    (Host.writable markupEngine).Answers markupEngine ∧
      (∀ e ∈ sharedCalls, ∀ e' ∈ sharedCalls, Md5.hexDigest e.input = Md5.hexDigest e'.input →
        e.input = e'.input) ∧
      ¬ ∀ x ∈ (renderAll (.writable markupEngine) markupSettings sharedCalls ⟨.initial, ()⟩).1,
        x.Shows markupEngine markupSettings x.equation.input :=
  ⟨fun _ _ ↦ rfl, by decide +kernel, by decide +kernel⟩

end RenderState

end DocumentMath
