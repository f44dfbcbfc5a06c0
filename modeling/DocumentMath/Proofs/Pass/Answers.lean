import DocumentMath.Proofs.Pass.Requests
import DocumentMath.Proofs.Render.Storing

/-!
# What a pass is answered

A host can write down what its engine answers (`Host.transcribing`), as it can write down what it is
called for; that makes no difference to a pass (`Pass.run_transcribing`). In a pass that succeeds
there is one answer for each attempt for which the engine is asked, and it decides what comes of the
attempt (`Pass.answers_of_attempts`). The artifacts that are kept are those of these attempts
(`Pass.cache_of_attempts`), each of them made of the first answer under its identifier that has been
accepted (`RenderSettings.firstAccepted_eq`).
-/

namespace DocumentMath

variable {σ : Type}

/-- The artifact of an attempt under its identifier, if the equation has been rendered. -/
def Attempt.entry? (a : Attempt) : Option (String × Artifact) :=
  a.artifact?.map (a.equation.identifier, ·)

theorem Attempt.of_entry? {x : Attempt} {identifier : String} {a : Artifact}
    (h : x.entry? = some (identifier, a)) :
    x.equation.identifier = identifier ∧ x.result = .ok a := by
  obtain ⟨equation, error | b⟩ := x
  · cases h
  · cases h
    exact ⟨rfl, rfl⟩

/-! ### Writing down answers -/

/-- The host that passes every call on and writes down what the engine answers. -/
def Host.transcribing (host : Host σ) : Host (σ × List (Except Error EngineOutput)) where
  typeset request := fun (world, answers) ↦
    let (answer, world) := host.typeset request world
    (answer, world, answers ++ [answer])
  createDirectory path := fun (world, answers) ↦
    (host.createDirectory path world).map id (·, answers)
  writeFile path data := fun (world, answers) ↦
    (host.writeFile path data world).map id (·, answers)

theorem Host.transcribing_looksLike (host : Host σ) :
    Host.LooksLike Prod.fst host.transcribing host where
  typeset _ _ := rfl
  createDirectory _ _ := rfl
  writeFile _ _ _ := rfl

/-- The answers that have been written down. -/
def RenderState.answers (st : RenderState (σ × List (Except Error EngineOutput))) :
    List (Except Error EngineOutput) :=
  st.world.2

namespace RenderState

variable (host : Host σ) (s : RenderSettings)
  (st : RenderState (σ × List (Except Error EngineOutput)))

theorem answers_ensureDirectory :
    (st.ensureDirectory host.transcribing s).2.answers = st.answers := by
  rw [ensureDirectory]
  split
  · rfl
  · simp only [Host.transcribing]
    rcases host.createDirectory s.location.directory st.world.1 with ⟨e | u, world⟩ <;> rfl

theorem answers_store (a : Artifact) :
    (st.store host.transcribing s a).2.answers = st.answers := by
  rw [store]
  split
  · rfl
  · have hensured := answers_ensureDirectory host s st
    rw [writeFile]
    rcases hensure : st.ensureDirectory host.transcribing s with ⟨e | u, st'⟩ <;>
      rw [hensure] at hensured
    · exact hensured
    · rw [← hensured]
      simp only [Host.transcribing]
      rcases host.writeFile (s.location.filePath (s.fileName a.identifier)) a.data st'.world.1
        with ⟨e | u, world⟩ <;> rfl

theorem answers_renderNew (identifier input : String) :
    (st.renderNew host.transcribing s identifier input).2.answers
      = st.answers ++ [(host.typeset (s.request input) st.world.1).1] := by
  rcases hanswer : host.typeset (s.request input) st.world.1 with ⟨answer, world⟩
  have htranscribed : host.transcribing.typeset (s.request input) st.world
      = (answer, world, st.answers ++ [answer]) := by
    show (let (answer, world) := host.typeset (s.request input) st.world.1
      (answer, world, st.answers ++ [answer])) = _
    rw [hanswer]
  rcases st.renderNew_steps host.transcribing s identifier input htranscribed with
    ⟨e, -, hrun⟩ | ⟨a, -, -, hrun⟩ <;> rw [hrun]
  · rfl
  · have hstored := answers_store host s ⟨st.renderer, world, st.answers ++ [answer]⟩ a
    rcases hstore : store host.transcribing s a ⟨st.renderer, world, st.answers ++ [answer]⟩
      with ⟨e | b, st'⟩ <;> rw [hstore] at hstored <;> exact hstored

/-- A rendering is answered once, unless an artifact is kept under the identifier. -/
theorem answers_render (e : NamedInput) :
    (st.render host.transcribing s e.input e.explicit?).2.answers
      = st.answers ++ (if (st.renderer.cached? e.identifier).isSome then []
          else [(host.typeset (s.request e.input) st.world.1).1]) := by
  rw [render, NamedInput.identifier]
  cases st.renderer.cached? (identifierOf e.explicit? e.input) with
  | some a => exact (List.append_nil _).symm
  | none => exact answers_renderNew host s st (identifierOf e.explicit? e.input) e.input

end RenderState

namespace Pass

/-- The pass that writes down what its engine answers. -/
def transcribing (p : Pass σ) : Pass (σ × List (Except Error EngineOutput)) :=
  p.withHost p.host.transcribing

/-- Writing down answers makes no difference to a pass. -/
theorem run_transcribing (p : Pass σ) (d : Document) (world : σ)
    (before : List (Except Error EngineOutput)) :
    p.run d world = (p.transcribing.run d (world, before)).seen Prod.fst :=
  run_seen p.host.transcribing_looksLike d (world, before)

/-- What the engine answers in a pass over a document, in order. -/
def answers (p : Pass σ) (d : Document) (world : σ) : List (Except Error EngineOutput) :=
  (p.transcribing.run d (world, [])).world.2

variable {p : Pass σ}

/-- An attempt that fails does so for the sake of the equation. -/
theorem isRenderFailure_of_attempt {e : NamedInput} {st st' : RenderState σ} {x : Attempt}
    {error : Error} (h : (p.attempt e).run.run st = (.ok x, st')) (hx : x.result = .error error) :
    error.isRenderFailure = true := by
  obtain ⟨-, hrender⟩ := attempt_eq_ok h
  rw [hx] at hrender
  simp only [attempt, ExceptT.run, ExceptT.mk, StateT.run, hrender] at h
  split at h
  · assumption
  · cases h

/-- What comes of an attempt for which the engine is asked is decided by its answer. -/
theorem result_of_attempt {e : NamedInput} {st st' : RenderState σ} {x : Attempt}
    (hcached : st.renderer.cached? e.identifier = none)
    (h : (p.attempt e).run.run st = (.ok x, st')) :
    x.result = p.settings.outcome e.identifier
        (p.host.typeset (p.settings.request e.input) st.world).1 ∧
      st'.renderer.cache = st.renderer.cache ++ (x.artifact?.map (e.identifier, ·)).toList := by
  obtain ⟨-, hrender⟩ := attempt_eq_ok h
  rw [NamedInput.identifier] at hcached ⊢
  rw [RenderState.render, hcached] at hrender
  have hcases := RenderState.renderNew_cases p.host p.settings st
    (identifierOf e.explicit? e.input) e.input
  simp only at hrender
  rw [hrender] at hcases
  rcases hcases with ⟨a, hresult, houtcome, hcache⟩ | ⟨error, hresult, houtcome, hcache⟩
  · simp only at hresult
    rw [Attempt.artifact?, hresult]
    exact ⟨houtcome.symm, hcache⟩
  · simp only at hresult
    rw [Attempt.artifact?, hresult]
    refine ⟨(houtcome (isRenderFailure_of_attempt h hresult)).symm, ?_⟩
    exact hcache.trans (List.append_nil _).symm

/-- There is one answer for each attempt for which the engine is asked, and it decides what comes of
the attempt. -/
theorem answers_of_attempts {es : List NamedInput} {as : List Attempt} {rendered : List String}
    {st st' : RenderState (σ × List (Except Error EngineOutput))}
    (hkeeps : st.renderer.Keeps p.options.embed rendered)
    (h : (es.mapM p.transcribing.attempt).run.run st = (.ok as, st')) :
    ∃ answers, st'.answers = st.answers ++ answers ∧
      List.Forall₂ (fun x answer ↦ x.result = p.settings.outcome x.equation.identifier answer)
        (Attempt.asking rendered as) answers := by
  induction es generalizing st as rendered with
  | nil =>
    rw [List.mapM_nil] at h
    cases h
    exact ⟨[], (List.append_nil _).symm, .nil⟩
  | cons e es ih =>
    rw [List.mapM_cons] at h
    obtain ⟨x, st₁, hx, h⟩ := Fallible.run_bind_eq_ok h
    obtain ⟨as, st₂, has, h⟩ := Fallible.run_bind_eq_ok h
    cases h
    obtain ⟨rfl, hrender⟩ := attempt_eq_ok hx
    obtain ⟨answers, hanswers, hdecided⟩ := ih (keeps_of_attempt hkeeps hx) has
    have hst₁ : st₁.answers = _ :=
      (congrArg (·.2.answers) hrender).symm.trans (st.answers_render p.host p.settings x.equation)
    rw [Attempt.asking]
    by_cases hmem : x.equation.identifier ∈ rendered
    · rw [if_pos (hkeeps.found_iff.mpr hmem), List.append_nil] at hst₁
      rw [if_pos hmem, List.nil_append]
      exact ⟨answers, by rw [hanswers, hst₁], hdecided⟩
    · have hcached := hkeeps.cached?_eq_none hmem
      rw [hcached, if_neg (by decide)] at hst₁
      rw [if_neg hmem, List.singleton_append]
      have hresult := (result_of_attempt hcached hx).1
      refine ⟨_ :: answers, ?_, .cons hresult hdecided⟩
      rw [hanswers, hst₁, List.append_assoc]
      rfl

/-- The artifacts that are kept are those of the attempts for which the engine is asked. -/
theorem cache_of_attempts {es : List NamedInput} {as : List Attempt} {rendered : List String}
    {st st' : RenderState σ} (hkeeps : st.renderer.Keeps p.options.embed rendered)
    (h : (es.mapM p.attempt).run.run st = (.ok as, st')) :
    st'.renderer.cache = st.renderer.cache ++ (Attempt.asking rendered as).filterMap
      Attempt.entry? := by
  induction es generalizing st as rendered with
  | nil =>
    rw [List.mapM_nil] at h
    cases h
    exact (List.append_nil _).symm
  | cons e es ih =>
    rw [List.mapM_cons] at h
    obtain ⟨x, st₁, hx, h⟩ := Fallible.run_bind_eq_ok h
    obtain ⟨as, st₂, has, h⟩ := Fallible.run_bind_eq_ok h
    cases h
    obtain ⟨rfl, hrender⟩ := attempt_eq_ok hx
    rw [ih (keeps_of_attempt hkeeps hx) has, Attempt.asking, List.filterMap_append]
    by_cases hmem : x.equation.identifier ∈ rendered
    · -- an artifact that is found leaves everything as it is
      obtain ⟨a, ha⟩ := Option.isSome_iff_exists.mp (hkeeps.found_iff.mpr hmem)
      rw [NamedInput.identifier] at ha
      rw [RenderState.render, ha] at hrender
      rw [if_pos hmem, List.filterMap_nil, List.nil_append, ← (Prod.mk.inj hrender).2]
    · have hcached := hkeeps.cached?_eq_none hmem
      rw [(result_of_attempt hcached hx).2, if_neg hmem, List.append_assoc]
      congr 2

/-- A pass that succeeds has attempted the equations of the document one after the other, and what
its engine answers has decided what comes of them. -/
theorem exists_answered_attempts {d : Document} {world : σ} {report : Report}
    (h : (p.run d world).result = .ok report) :
    ∃ as st, ((p.inputs d).mapM p.attempt).run.run ⟨.initial, world⟩ = (.ok as, st) ∧
      st.world = (p.run d world).world ∧ report.failures = as.filterMap Attempt.failure? ∧
      List.Forall₂ (fun x answer ↦ x.result = p.settings.outcome x.equation.identifier answer)
        (Attempt.asking [] as) (p.answers d world) := by
  -- the attempts are made with the transcribing host, which makes no difference
  have htranscribing : (p.transcribing.run d (world, [])).result = .ok report := by
    rw [p.run_transcribing d world []] at h
    exact h
  obtain ⟨as, st, hrun, hworld, hfailures⟩ := exists_attempts htranscribing
  have hseen : (Fallible.seen (RenderState.seen Prod.fst)).rel
      ((p.inputs d).mapM p.transcribing.attempt) ((p.inputs d).mapM p.attempt) :=
    (Fallible.seen _).mapM fun e _ ↦ attempt_seen p.host.transcribing_looksLike e
  refine ⟨as, st.seen Prod.fst, ?_, ?_, hfailures, ?_⟩
  · exact (hseen ⟨.initial, world, []⟩).trans
      (congrArg (Prod.map id (RenderState.seen Prod.fst)) hrun)
  · rw [p.run_transcribing d world []]
    exact congrArg Prod.fst hworld
  · obtain ⟨answers, hanswers, hdecided⟩ := answers_of_attempts (.initial _) hrun
    have hall : p.answers d world = answers := by
      rw [Pass.answers, ← hworld]
      exact hanswers
    rwa [hall]

end Pass

/-! ### The first accepted answer -/

namespace RenderSettings

variable {s : RenderSettings} {identifier : String} {answer : Except Error EngineOutput}

/-- What the engine returns, if it is accepted under an identifier. -/
def accepted? (s : RenderSettings) (identifier : String) :
    Except Error EngineOutput → Option EngineOutput
  | .error _ => none
  | .ok output =>
    match s.accept identifier output with
    | .error _ => none
    | .ok _ => some output

/-- The first answer under an identifier that is accepted, among equations and what the engine has
answered for them. -/
def firstAccepted (s : RenderSettings) (identifier : String)
    (exchanges : List (NamedInput × Except Error EngineOutput)) : Option EngineOutput :=
  exchanges.findSome? fun (e, answer) ↦
    if e.identifier = identifier then s.accepted? identifier answer else none

theorem accepted?_of_outcome_ok {a : Artifact} (h : s.outcome identifier answer = .ok a) :
    ∃ output, s.accepted? identifier answer = some output ∧ a.data = output.data := by
  obtain ⟨output, rfl, hdata⟩ := data_of_outcome h
  refine ⟨output, ?_, hdata⟩
  rw [outcome] at h
  simp only [accepted?]
  cases haccept : s.accept identifier output with
  | error e =>
    rw [haccept] at h
    cases h
  | ok accepted => rfl

theorem accepted?_of_outcome_error {e : Error} (h : s.outcome identifier answer = .error e) :
    s.accepted? identifier answer = none := by
  cases answer with
  | error e => rfl
  | ok output =>
    simp only [outcome, accepted?] at h ⊢
    cases haccept : s.accept identifier output with
    | error e => rfl
    | ok accepted =>
      rw [haccept] at h
      cases h

/-- An artifact holds the first answer under its identifier that has been accepted. -/
theorem firstAccepted_eq {as : List Attempt} {answers : List (Except Error EngineOutput)}
    (hdecided : List.Forall₂ (fun x answer ↦ x.result = s.outcome x.equation.identifier answer)
      as answers)
    (honce : as.Pairwise fun x y ↦ x.identifier? ≠ some y.equation.identifier)
    {x : Attempt} (hx : x ∈ as) {a : Artifact} (ha : x.result = .ok a) :
    ∃ output, s.firstAccepted x.equation.identifier ((as.map Attempt.equation).zip answers)
        = some output ∧ a.data = output.data := by
  induction hdecided with
  | nil => cases hx
  | @cons y answer as answers hy hrest ih =>
    obtain ⟨hfirst, honce⟩ := List.pairwise_cons.mp honce
    rw [firstAccepted, List.map_cons, List.zip_cons_cons, List.findSome?_cons]
    rcases List.mem_cons.mp hx with rfl | hx
    · rw [ha] at hy
      obtain ⟨output, haccepted, hdata⟩ := accepted?_of_outcome_ok hy.symm
      exact ⟨output, by simp only [if_true, haccepted], hdata⟩
    · obtain ⟨output, hlater, hdata⟩ := ih honce hx
      refine ⟨output, ?_, hdata⟩
      -- an earlier attempt under the identifier has failed, so that its answer does not count
      have hskip : (if y.equation.identifier = x.equation.identifier
          then s.accepted? x.equation.identifier answer else none) = none := by
        split
        · next heq =>
          cases hresult : y.result with
          | error e =>
            rw [← heq]
            exact accepted?_of_outcome_error (hy.symm.trans hresult)
          | ok b =>
            refine absurd ?_ (hfirst x hx)
            rw [Attempt.identifier?, Attempt.artifact?, hresult, ← heq]
            rfl
        · rfl
      simp only [hskip]
      exact hlater

end RenderSettings

end DocumentMath
