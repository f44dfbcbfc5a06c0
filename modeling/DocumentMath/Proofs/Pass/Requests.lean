import DocumentMath.Proofs.Document.Scope
import DocumentMath.Proofs.Pass.Account
import DocumentMath.Proofs.Pass.Recording

/-!
# What a pass asks its engine

The engine of a pass that succeeds is asked for the equations of the document in document order,
but not for one whose identifier belongs to an earlier equation that has been rendered
(`Pass.requests_eq`). An equation that fails is asked for again whenever it comes up.

The invariant is that of the accounts: the renderer keeps the identifiers of the equations that have
been rendered so far (`Renderer.Keeps`), and the calls of a single rendering are known
(`RenderState.calls_render`). So the requests can be told from the attempts alone
(`Attempt.asking`).
-/

namespace DocumentMath

variable {σ : Type}

/-! ### Attempts for which an engine is asked -/

namespace Attempt

/-- The attempts for which an engine is asked when some identifiers have been rendered: those at
equations whose identifier is none of them and has not been rendered by an earlier attempt. -/
def asking (rendered : List String) : List Attempt → List Attempt
  | [] => []
  | a :: as =>
    (if a.equation.identifier ∈ rendered then [] else [a])
      ++ asking (rendered ++ a.identifier?.toList) as

theorem not_mem_of_mem_asking {rendered : List String} {as : List Attempt} {a : Attempt}
    (h : a ∈ asking rendered as) : a.equation.identifier ∉ rendered := by
  induction as generalizing rendered with
  | nil => cases h
  | cons x as ih =>
    rw [asking, List.mem_append] at h
    rcases h with h | h
    · split at h
      · cases h
      · next hx => exact List.mem_singleton.mp h ▸ hx
    · exact fun hmem ↦ ih h (List.mem_append_left _ hmem)

/-- No engine is asked for an identifier that it has been asked for with success. -/
theorem pairwise_asking (rendered : List String) (as : List Attempt) :
    (asking rendered as).Pairwise fun a b ↦ a.identifier? ≠ some b.equation.identifier := by
  induction as generalizing rendered with
  | nil => exact .nil
  | cons a as ih =>
    rw [asking]
    split
    · exact ih _
    · refine List.pairwise_cons.mpr ⟨fun b hb heq ↦ not_mem_of_mem_asking hb ?_, ih _⟩
      rw [heq]
      exact List.mem_append_right _ (List.mem_singleton_self _)

end Attempt

namespace Pass

variable {p : Pass σ}

/-- An attempt at an equation whose identifier has been rendered finds the artifact. -/
theorem failure?_of_kept {e : NamedInput} {x : Attempt} {st st' : RenderState σ}
    (hkept : e.identifier ∈ st.renderer.identifiers)
    (h : (p.attempt e).run.run st = (.ok x, st')) : x.failure? = none := by
  obtain ⟨-, hrender⟩ := attempt_eq_ok h
  obtain ⟨a, hcached⟩ := Option.isSome_iff_exists.mp (Renderer.isSome_cached?_iff.mpr hkept)
  rw [NamedInput.identifier] at hcached
  rw [RenderState.render, hcached] at hrender
  rw [Attempt.failure?, ← (Prod.mk.inj hrender).1]

/-- Each failure comes of a request of its own. -/
theorem failures_asking {es : List NamedInput} {as : List Attempt} {rendered : List String}
    {st st' : RenderState σ} (hkeeps : st.renderer.Keeps p.options.embed rendered)
    (h : (es.mapM p.attempt).run.run st = (.ok as, st')) :
    (Attempt.asking rendered as).filterMap Attempt.failure? = as.filterMap Attempt.failure? := by
  induction es generalizing st as rendered with
  | nil =>
    rw [List.mapM_nil] at h
    cases h
    rfl
  | cons e es ih =>
    rw [List.mapM_cons] at h
    obtain ⟨x, st₁, hx, h⟩ := Fallible.run_bind_eq_ok h
    obtain ⟨as, st₂, has, h⟩ := Fallible.run_bind_eq_ok h
    cases h
    rw [Attempt.asking, List.filterMap_append, ih (keeps_of_attempt hkeeps hx) has,
      (attempt_eq_ok hx).1]
    split
    · next hmem =>
      -- no request is made, and no failure is reported
      have hnone := failure?_of_kept ((hkeeps.mem_iff _).mpr hmem) hx
      rw [List.filterMap_cons_none hnone]
      rfl
    · rw [← List.filterMap_append]
      rfl

/-- What an engine is asked for can be told from the attempts. -/
theorem requests_of_attempts {es : List NamedInput} {as : List Attempt} {rendered : List String}
    {st st' : RenderState (σ × List HostCall)}
    (hkeeps : st.renderer.Keeps p.options.embed rendered)
    (h : (es.mapM p.recording.attempt).run.run st = (.ok as, st')) :
    st'.calls.filterMap HostCall.request? = st.calls.filterMap HostCall.request?
      ++ (Attempt.asking rendered as).map fun a ↦ p.settings.request a.equation.input := by
  induction es generalizing st as rendered with
  | nil =>
    rw [List.mapM_nil] at h
    cases h
    exact (List.append_nil _).symm
  | cons e es ih =>
    rw [List.mapM_cons] at h
    obtain ⟨x, st₁, hx, h⟩ := Fallible.run_bind_eq_ok h
    obtain ⟨as, st₂, has, h⟩ := Fallible.run_bind_eq_ok h
    cases h
    obtain ⟨hequation, hrender⟩ := attempt_eq_ok hx
    obtain ⟨stored, hcalls, hstored⟩ := st.calls_render p.host p.settings e
    have hnone : stored.filterMap HostCall.request? = [] :=
      List.filterMap_eq_nil_iff.mpr fun c hc ↦ (hstored c hc).2.request?_eq_none
    have hst₁ : st₁.calls = _ := (congrArg (·.2.calls) hrender).symm.trans hcalls
    rw [ih (keeps_of_attempt hkeeps hx) has, hst₁, Attempt.asking, List.filterMap_append,
      List.append_assoc, List.map_append, hequation]
    congr 2
    -- an artifact is found under the identifier exactly if that has been rendered
    have hfound : (st.renderer.cached? e.identifier).isSome ↔ e.identifier ∈ rendered :=
      Renderer.isSome_cached?_iff.trans (hkeeps.mem_iff _)
    by_cases hmem : e.identifier ∈ rendered
    · rw [if_pos (hfound.mpr hmem), if_pos hmem]
      rfl
    · rw [if_neg (mt hfound.mp hmem), if_neg hmem, List.map_singleton, hequation]
      exact congrArg (p.settings.request e.input :: ·) hnone

/-! ### The attempts of a pass -/

/-- The equations of a document are those at its sites, one site after the other. -/
theorem inputs_eq_flatMap_sites (p : Pass σ) (d : Document) :
    p.inputs d = d.sites.flatMap (p.inputsIn d) := by
  have hsites : d.sites.flatMap (p.inputsIn d)
      = (d.sites.map (·.spotIn? d)).flatMap fun x? ↦ x?.toList.flatMap p.inputsAt := by
    rw [List.flatMap_map]
    rfl
  rw [hsites, d.map_spotIn?_sites, List.flatMap_map, inputs]
  congr 1
  funext x
  rw [Option.toList_some, List.flatMap_singleton]

/-- To make the entries of sites is to attempt their equations one after the other. -/
theorem attempts_of_entries {d : Document} {ss : List Site} {es : List SiteEntry}
    {st st' : RenderState σ} (h : (ss.mapM (p.entry d)).run.run st = (.ok es, st')) :
    ((ss.flatMap (p.inputsIn d)).mapM p.attempt).run.run st
      = (.ok (es.flatMap SiteEntry.attempts), st') := by
  induction ss generalizing st es with
  | nil =>
    rw [List.mapM_nil] at h
    cases h
    rfl
  | cons s ss ih =>
    rw [List.mapM_cons] at h
    obtain ⟨e, st₁, he, h⟩ := Fallible.run_bind_eq_ok h
    obtain ⟨es, st₂, hes, h⟩ := Fallible.run_bind_eq_ok h
    cases h
    obtain ⟨as, has, rfl⟩ := Fallible.run_map_eq_ok he
    rw [List.flatMap_cons, List.mapM_append, Fallible.run_bind_of_ok has,
      Fallible.run_bind_of_ok (ih hes)]
    rfl

/-- A pass that succeeds has attempted the equations of the document one after the other, and
reports the attempts that have failed. -/
theorem exists_attempts {d : Document} {world : σ} {report : Report}
    (h : (p.run d world).result = .ok report) :
    ∃ as st, ((p.inputs d).mapM p.attempt).run.run ⟨.initial, world⟩ = (.ok as, st) ∧
      st.world = (p.run d world).world ∧ report.failures = as.filterMap Attempt.failure? := by
  rw [run] at h ⊢
  rcases p.steps_cases d world with
    ⟨st, hsteps, hreaches⟩ | ⟨done, s, later, st, e, st', hsteps, -⟩ <;> rw [hsteps] at h ⊢ <;>
    cases h
  obtain ⟨es, hrun, -, -, hadds, -⟩ := hreaches.exists_entries
  refine ⟨es.flatMap SiteEntry.attempts, st.rendering, ?_, rfl, ?_⟩
  · rw [inputs_eq_flatMap_sites]
    exact attempts_of_entries hrun
  · rw [List.filterMap_flatMap]
    exact hadds.failures

/-! ### The requests of a pass -/

theorem attempt_seen {τ : Type} {see : τ → σ} {host : Host τ} (h : host.LooksLike see p.host)
    (e : NamedInput) :
    (Fallible.seen (RenderState.seen see)).rel ((p.withHost host).attempt e) (p.attempt e) := by
  intro st
  have hrender : (st.seen see).render p.host p.settings e.input e.explicit?
      = (st.render (p.withHost host).host (p.withHost host).settings e.input
          e.explicit?).map id (.seen see) :=
    RenderState.render_seen h p.settings st e.input e.explicit?
  simp only [attempt, ExceptT.run, ExceptT.mk, StateT.run, hrender]
  rcases st.render (p.withHost host).host (p.withHost host).settings e.input e.explicit?
    with ⟨error | a, st'⟩
  · cases hfailure : error.isRenderFailure <;> simp [hfailure]
  · rfl

/-- **What a pass asks its engine.** The equations of the document are attempted in document order,
and the requests are those of the attempts for whose identifier no earlier one has been rendered, in
the format and at the resolution of the pass. So each failure that is reported comes of a request of
its own, and an identifier that has been rendered is not asked for again. The order is that of the
sites, each with its own equations; and an attribute has at a site the value that the innermost
document around the site gives it. -/
theorem requests_eq (p : Pass σ) (d : Document) (world : σ) (report : Report)
    (h : (p.run d world).result = .ok report) :
    ∃ as st, ((p.inputs d).mapM p.attempt).run.run ⟨.initial, world⟩ = (.ok as, st) ∧
      as.map Attempt.equation = p.inputs d ∧ st.world = (p.run d world).world ∧
      p.requests d world = (Attempt.asking [] as).map (fun a ↦
        ⟨a.equation.input, p.options.format, p.options.effectiveResolution⟩) ∧
      (Attempt.asking [] as).filterMap Attempt.failure? = report.failures ∧
      (Attempt.asking [] as).Pairwise (fun a b ↦ a.identifier? ≠ some b.equation.identifier) ∧
      d.sites.map (·.spotIn? d) = d.spots.map some ∧
      ∀ s ∈ d.sites, ∀ name,
        s.attributes.get? name = Document.value? name (d.enclosing s.within) := by
  -- the attempts are made with the recording host, which makes no difference
  have hrecording : (p.recording.run d (world, [])).result = .ok report := by
    rw [p.run_recording d world []] at h
    exact h
  obtain ⟨as, st, hrun, hworld, hfailures⟩ := exists_attempts hrecording
  have hseen : (Fallible.seen (RenderState.seen Prod.fst)).rel
      ((p.inputs d).mapM p.recording.attempt) ((p.inputs d).mapM p.attempt) :=
    (Fallible.seen _).mapM fun e _ ↦ attempt_seen p.host.recording_looksLike e
  have hattempts : ((p.inputs d).mapM p.attempt).run.run ⟨.initial, world⟩
      = (.ok as, st.seen Prod.fst) :=
    (hseen ⟨.initial, world, []⟩).trans (congrArg (Prod.map id (RenderState.seen Prod.fst)) hrun)
  refine ⟨as, st.seen Prod.fst, hattempts, equation_of_attempts hattempts, ?_, ?_, ?_,
    Attempt.pairwise_asking [] as, d.map_spotIn?_sites, fun s hs ↦ Document.get?_of_mem_sites hs⟩
  · rw [p.run_recording d world []]
    exact congrArg Prod.fst hworld
  · rw [requests, calls, ← hworld]
    exact requests_of_attempts (.initial _) hrun
  · rw [failures_asking (.initial _) hattempts, hfailures]

theorem requests_eq_of_variety :
    (passWriting.run variedDocument ()).result = .ok variedReport ∧
      ∃ as st, ((passWriting.inputs variedDocument).mapM passWriting.attempt).run.run
          ⟨.initial, ()⟩ = (.ok as, st) ∧
        as.map Attempt.equation = passWriting.inputs variedDocument ∧
        st.world = (passWriting.run variedDocument ()).world ∧
        passWriting.requests variedDocument () = (Attempt.asking [] as).map (fun a ↦
          ⟨a.equation.input, passWriting.options.format,
            passWriting.options.effectiveResolution⟩) ∧
        (Attempt.asking [] as).filterMap Attempt.failure? = variedReport.failures ∧
        (Attempt.asking [] as).Pairwise (fun a b ↦
          a.identifier? ≠ some b.equation.identifier) ∧
        variedDocument.sites.map (·.spotIn? variedDocument) = variedDocument.spots.map some ∧
        ∀ s ∈ variedDocument.sites, ∀ name,
          s.attributes.get? name = Document.value? name (variedDocument.enclosing s.within) :=
  ⟨result_of_variety, requests_eq _ _ _ _ result_of_variety⟩

end Pass

end DocumentMath
