import DocumentMath.Proofs.Pass.Recording
import DocumentMath.Proofs.Path.Location
import DocumentMath.Proofs.Render.FileName
import DocumentMath.Render.Prepared

/-!
# The files of a pass

A pass calls its host for the equations of the document only, and for each of them it writes at most
to the one file that is named by its identifier (`Pass.mem_calls_cases`). If no slash is in the
identifier that has been given for the equation, or if none has been given, that file stands in the
directory of files (`Pass.file_inside`). An identifier with a slash may lead out of it
(`Pass.file_outside`).
-/

namespace DocumentMath

variable {σ : Type}

/-- The file that is written to. -/
def HostCall.file? : HostCall → Option Path
  | writeFile path _ => some path
  | typeset _ => none
  | createDirectory _ => none

theorem HostCall.Stores.file_eq {s : RenderSettings} {identifier : String} {c : HostCall}
    {path : Path} (h : c.Stores s identifier) (hfile : c.file? = some path) :
    path = s.location.filePath (s.fileName identifier) := by
  cases h <;> cases hfile
  rfl

namespace Pass

/-- The files that a pass over a document writes to, in order. -/
def files (p : Pass σ) (d : Document) (world : σ) : List Path :=
  (p.calls d world).filterMap HostCall.file?

theorem files_eq (p : Pass σ) (d : Document) (world : σ) :
    p.files d world
      = (p.recording.traversal d (world, [])).2.rendering.calls.filterMap HostCall.file? := by
  rw [files, calls, (p.recording.run_eq_traverse d (world, [])).2.1]
  rfl

/-- Whatever a pass calls its host for, it is to typeset an equation of the document or to store
what has come of it, which it does only if artifacts are not embedded. That is so also when the pass
fails. -/
theorem mem_calls_cases (p : Pass σ) (d : Document) (world : σ) :
    ∀ c ∈ p.calls d world, ∃ e ∈ p.inputs d, c = .typeset (p.settings.request e.input) ∨
      p.options.embed = false ∧ c.Stores p.settings e.identifier := by
  have hworld := (p.recording.run_eq_traverse d (world, [])).2.1
  rw [calls, hworld]
  refine p.recording.rendering_induction d (world, []) (P := fun st ↦ ∀ c ∈ st.calls,
    ∃ e ∈ p.inputs d, c = .typeset (p.settings.request e.input) ∨
      p.options.embed = false ∧ c.Stores p.settings e.identifier)
    (List.forall_mem_nil _) fun e he st hst ↦ ?_
  obtain ⟨stored, hcalls, hstored⟩ := st.calls_render p.host p.settings e
  show ∀ c ∈ (st.render p.host.recording p.settings e.input e.explicit?).2.calls, _
  rw [hcalls, List.forall_mem_append]
  refine ⟨hst, fun c hc ↦ ⟨e, he, ?_⟩⟩
  -- the calls that are added are none at all, or the request and then what stores its artifact
  split at hc
  · cases hc
  · exact (List.mem_cons.mp hc).imp_right (hstored c)

theorem exists_input_of_mem_calls (p : Pass σ) (d : Document) (world : σ) :
    ∀ c ∈ p.calls d world, ∃ e ∈ p.inputs d,
      c = .typeset (p.settings.request e.input) ∨ c.Stores p.settings e.identifier := by
  intro c hc
  obtain ⟨e, he, hcall⟩ := p.mem_calls_cases d world c hc
  exact ⟨e, he, hcall.imp_right And.right⟩

/-- Whatever a pass asks of its engine, it is to typeset an equation of the document. -/
theorem exists_input_of_mem_requests (p : Pass σ) (d : Document) (world : σ) :
    ∀ r ∈ p.requests d world, ∃ e ∈ p.inputs d, r = p.settings.request e.input := by
  intro r hr
  obtain ⟨c, hc, hrequest⟩ := List.mem_filterMap.mp hr
  obtain ⟨e, he, rfl | hstores⟩ := p.exists_input_of_mem_calls d world c hc
  · exact ⟨e, he, (Option.some.inj hrequest).symm⟩
  · rw [hstores.request?_eq_none] at hrequest
    cases hrequest

/-- **Where files stand.** Every file that a pass writes to is that of an equation of the document.
It stands in the directory of files, if the identifier that has been given for the equation has no
slash in it, or if none has been given. -/
theorem file_inside (p : Pass σ) (d : Document) (world : σ) (path : Path)
    (h : path ∈ p.files d world) :
    ∃ e ∈ p.inputs d, path = p.settings.location.filePath (p.settings.fileName e.identifier) ∧
      ((∀ id ∈ e.explicit?, '/' ∉ id.toList) →
        ∃ parent, path.parent? = some parent ∧ parent.normalize = p.settings.location.directory) := by
  obtain ⟨c, hc, hfile⟩ := List.mem_filterMap.mp h
  obtain ⟨e, he, rfl | hstores⟩ := p.exists_input_of_mem_calls d world c hc
  · cases hfile
  · obtain rfl := hstores.file_eq hfile
    refine ⟨e, he, rfl, fun hslash ↦ ?_⟩
    have hname := p.settings.components_fileName (NamedInput.slash_not_mem_identifier hslash)
    exact OutputLocation.exists_parent_filePath _ _ _ hname

/-- A pass that writes files to a directory. -/
def passWithDirectory : Pass Unit where
  host := .writable (Prepared.engine ⟨[], 1, 1, none, none⟩)
  options := { Options.initial with
    dialect := .latex, format := .svg, imagesOutDir := some ⟨"img"⟩ }
  workingDirectory := ⟨"/"⟩

/-- A document with an identifier that leads out of the directory, between two that do not. -/
def documentWithSlash : Document :=
  ⟨.empty,
    [.math ⟨some "a", none, "latexmath", "x", none⟩,
      .math ⟨some "../b", none, "latexmath", "y", none⟩,
      .prose ⟨none, none, "paragraph", ["stem:[z]"], .normal⟩]⟩

theorem file_inside_of_named :
    ⟨"/img/a.svg"⟩ ∈ passWithDirectory.files documentWithSlash () ∧
      ∃ e ∈ passWithDirectory.inputs documentWithSlash,
        ⟨"/img/a.svg"⟩ = passWithDirectory.settings.location.filePath
          (passWithDirectory.settings.fileName e.identifier) ∧
        ((∀ id ∈ e.explicit?, '/' ∉ id.toList) →
          ∃ parent, (Path.mk "/img/a.svg").parent? = some parent ∧
            parent.normalize = passWithDirectory.settings.location.directory) := by
  have hmem : ⟨"/img/a.svg"⟩ ∈ passWithDirectory.files documentWithSlash () := by
    rw [files_eq]
    decide +kernel
  exact ⟨hmem, file_inside _ _ _ _ hmem⟩

/-- An identifier that is given with a slash may lead out of the directory of files. -/
theorem file_outside :
    ¬ ∀ path ∈ passWithDirectory.files documentWithSlash (), ∃ parent,
      path.parent? = some parent ∧
        parent.normalize = passWithDirectory.settings.location.directory := by
  intro h
  have hmem : ⟨"/img/../b.svg"⟩ ∈ passWithDirectory.files documentWithSlash () := by
    rw [files_eq]
    decide +kernel
  have hparent : (Path.mk "/img/../b.svg").parent? = some ⟨"/img/.."⟩ := by decide +kernel
  obtain ⟨parent, hparent', hnormal⟩ := h _ hmem
  cases hparent.symm.trans hparent'
  exact absurd hnormal (by decide +kernel)

end Pass

end DocumentMath
