import DocumentMath.Proofs.Pass.Answers
import DocumentMath.Proofs.Pass.Files

/-!
# What a pass does to the files

A pass that succeeds leaves its artifacts and nothing else (`Pass.leaves_artifacts`): no file and no
directory, if artifacts are embedded or no equation has been rendered; otherwise the directory of
files with one file for each identifier that has been rendered. The bytes in it are those of the
first answer of the engine that has been accepted under the identifier. No answer that has been
rejected leaves a trace.

What carries the proof is that the files in the directory are those of the artifacts that the
renderer keeps (`Renderer.files`), an invariant of the attempts (`Pass.deposits_of_attempts`).
-/

namespace DocumentMath

open Text (Bytes)

variable {σ : Type}

/-! ### The files of a renderer -/

namespace RenderSettings

variable (s : RenderSettings)

theorem filesOf_of_embed (hembed : s.embed = true) (identifier : String) (a : Artifact) :
    s.filesOf identifier a = [] :=
  if_pos hembed

theorem filesOf_of_not_embed (hembed : s.embed = false) (identifier : String) (a : Artifact) :
    s.filesOf identifier a = [(s.fileName identifier, a.data)] :=
  if_neg (Bool.eq_false_iff.mp hembed)

end RenderSettings

namespace Renderer

/-- The files of the artifacts that are kept. -/
def files (s : RenderSettings) (r : Renderer) : List (String × Bytes) :=
  r.cache.flatMap fun entry ↦ s.filesOf entry.1 entry.2

theorem files_of_embed {s : RenderSettings} (hembed : s.embed = true) (r : Renderer) :
    r.files s = [] :=
  List.flatMap_eq_nil_iff.mpr fun _ _ ↦ s.filesOf_of_embed hembed _ _

theorem mem_files {s : RenderSettings} {r : Renderer} {f : String × Bytes} (h : f ∈ r.files s) :
    ∃ identifier a, (identifier, a) ∈ r.cache ∧ f = (s.fileName identifier, a.data) := by
  obtain ⟨⟨identifier, a⟩, hentry, hf⟩ := List.mem_flatMap.mp h
  refine ⟨identifier, a, hentry, ?_⟩
  rw [RenderSettings.filesOf] at hf
  split at hf
  · cases hf
  · exact List.mem_singleton.mp hf

theorem mem_files_of_cache {s : RenderSettings} (hembed : s.embed = false) {r : Renderer}
    {identifier : String} {a : Artifact} (h : (identifier, a) ∈ r.cache) :
    (s.fileName identifier, a.data) ∈ r.files s := by
  refine List.mem_flatMap.mpr ⟨_, h, ?_⟩
  rw [s.filesOf_of_not_embed hembed]
  exact List.mem_singleton_self _

theorem files_of_identifiers_eq_nil {s : RenderSettings} {r : Renderer} (h : r.identifiers = []) :
    r.files s = [] := by
  rw [files, List.map_eq_nil_iff.mp h, List.flatMap_nil]

theorem exists_mem_cache {r : Renderer} {identifier : String} (h : identifier ∈ r.identifiers) :
    ∃ a, (identifier, a) ∈ r.cache := by
  obtain ⟨⟨_, a⟩, hentry, rfl⟩ := List.mem_map.mp h
  exact ⟨a, hentry⟩

end Renderer

/-! ### Attempts -/

/-- If no artifact is kept under its identifier, a new one takes no place of the files there are. -/
theorem RenderState.deposits_renderNew_ok {host : Host σ} {files : σ → FileTree}
    {s : RenderSettings} {st st' : RenderState σ} {t₀ : FileTree} (hfiles : host.KeepsFiles files)
    (hdeposits : st.Deposits files s (st.renderer.files s) t₀) {identifier input : String}
    {a : Artifact} (hslash : '/' ∉ identifier.toList)
    (hcached : st.renderer.cached? identifier = none)
    (h : st.renderNew host s identifier input = (.ok a, st')) :
    st'.Deposits files s (st.renderer.files s ++ s.filesOf identifier a) t₀ := by
  have hname : ∀ f ∈ st.renderer.files s, f.1 ≠ s.fileName identifier := by
    intro f hf heq
    obtain ⟨other, b, hentry, rfl⟩ := Renderer.mem_files hf
    obtain rfl := s.fileName_injective heq
    have hfound := Renderer.isSome_cached?_iff.mpr (List.mem_map_of_mem hentry)
    rw [hcached] at hfound
    cases hfound
  refine files_renderNew_ok hfiles hdeposits hslash (fun f hf g hg heq ↦ ?_) h
  rw [RenderSettings.filesOf] at hg
  split at hg
  · cases hg
  · rw [List.mem_singleton.mp hg] at heq
    exact absurd heq (hname f hf)

namespace Pass

variable {p : Pass σ} {files : σ → FileTree} {t₀ : FileTree}

/-- The files in the directory are those of the artifacts that are kept, before and after an
attempt. -/
theorem deposits_of_attempt (hfiles : p.host.KeepsFiles files) {e : NamedInput} {x : Attempt}
    {st st' : RenderState σ} (hslash : '/' ∉ e.identifier.toList)
    (hdeposits : st.Deposits files p.settings (st.renderer.files p.settings) t₀)
    (h : (p.attempt e).run.run st = (.ok x, st')) :
    st'.Deposits files p.settings (st'.renderer.files p.settings) t₀ := by
  obtain ⟨rfl, hrender⟩ := attempt_eq_ok h
  cases hcached : st.renderer.cached? x.equation.identifier with
  | some a =>
    rw [NamedInput.identifier] at hcached
    rw [RenderState.render, hcached] at hrender
    rwa [← (Prod.mk.inj hrender).2]
  | none =>
    obtain ⟨hresult, hcache⟩ := result_of_attempt hcached h
    have hnew : st.renderNew p.host p.settings x.equation.identifier x.equation.input
        = (x.result, st') := by
      rw [NamedInput.identifier] at hcached ⊢
      rwa [RenderState.render, hcached] at hrender
    have hadded : st'.renderer.files p.settings = st.renderer.files p.settings
        ++ x.artifact?.toList.flatMap (p.settings.filesOf x.equation.identifier) := by
      rw [Renderer.files, hcache, List.flatMap_append]
      cases x.artifact? <;> rfl
    rw [hadded, Attempt.artifact?]
    cases hx : x.result with
    | error error =>
      have hkept := RenderState.files_renderNew_failure hfiles hdeposits
        (hresult.symm.trans hx)
      rw [hnew] at hkept
      exact (List.append_nil (st.renderer.files p.settings)).symm ▸ hkept
    | ok a =>
      rw [hx] at hnew
      have hstored := RenderState.deposits_renderNew_ok hfiles hdeposits hslash hcached hnew
      rwa [← List.flatMap_singleton (p.settings.filesOf x.equation.identifier) a] at hstored

/-- The files in the directory are those of the artifacts that are kept, before and after
attempts. -/
theorem deposits_of_attempts (hfiles : p.host.KeepsFiles files) {es : List NamedInput}
    {as : List Attempt} {st st' : RenderState σ} (hslash : ∀ e ∈ es, '/' ∉ e.identifier.toList)
    (hdeposits : st.Deposits files p.settings (st.renderer.files p.settings) t₀)
    (h : (es.mapM p.attempt).run.run st = (.ok as, st')) :
    st'.Deposits files p.settings (st'.renderer.files p.settings) t₀ := by
  induction es generalizing st as with
  | nil =>
    rw [List.mapM_nil] at h
    cases h
    exact hdeposits
  | cons e es ih =>
    rw [List.forall_mem_cons] at hslash
    rw [List.mapM_cons] at h
    obtain ⟨x, st₁, hx, h⟩ := Fallible.run_bind_eq_ok h
    obtain ⟨as, st₂, has, h⟩ := Fallible.run_bind_eq_ok h
    cases h
    exact ih hslash.2 (deposits_of_attempt hfiles hslash.1 hdeposits hx) has

/-! ### The whole pass -/

/-- The files are as a pass is to leave them, given what the engine has answered for equations and
the identifiers of those that have been rendered. -/
structure Leaves (p : Pass σ) (exchanges : List (NamedInput × Except Error EngineOutput))
    (identifiers : List String) (before after : FileTree) : Prop where
  /-- Nothing is written, if there is nothing to write. -/
  untouched : p.options.embed = true ∨ identifiers = [] → after = before
  /-- Otherwise there is the directory of files. For each identifier it has a file, with the bytes
  of the first answer that has been accepted, unless a device was in its place. Everything else is
  as before, but for directories that the directory of files is in and that were not there. -/
  written : p.options.embed = false → identifiers ≠ [] → ∃ place,
    (∃ e, after.find p.settings.location.directory = .ok (place, e) ∧ e.isDirectory = true) ∧
    (∀ identifier ∈ identifiers, ∃ output,
      p.settings.firstAccepted identifier exchanges = some output ∧
      after.find (p.settings.location.filePath (p.settings.fileName identifier))
        = .ok (place ++ [p.settings.fileName identifier],
            .overwritten output.data (before.get? (place ++ [p.settings.fileName identifier])))) ∧
    ∀ q, (∀ identifier ∈ identifiers, q ≠ place ++ [p.settings.fileName identifier]) →
      after.get? q = before.get? q ∨
        (before.get? q = none ∧ after.get? q = some .directory ∧ q <+: place)

theorem leaves_of_deposits {exchanges : List (NamedInput × Except Error EngineOutput)}
    {identifiers : List String} {st : RenderState σ}
    (hdeposits : st.Deposits files p.settings (st.renderer.files p.settings) t₀)
    (hkept : ∀ identifier, identifier ∈ st.renderer.identifiers ↔ identifier ∈ identifiers)
    (hslash : ∀ identifier ∈ identifiers, '/' ∉ identifier.toList)
    (hfirst : ∀ identifier a, (identifier, a) ∈ st.renderer.cache → ∃ output,
      p.settings.firstAccepted identifier exchanges = some output ∧ a.data = output.data) :
    p.Leaves exchanges identifiers t₀ (files st.world) where
  untouched h := by
    have hnil : st.renderer.files p.settings = [] := by
      rcases h with hembed | rfl
      · exact Renderer.files_of_embed hembed _
      · refine Renderer.files_of_identifiers_eq_nil ?_
        exact List.eq_nil_iff_forall_not_mem.mpr fun identifier hmem ↦
          List.not_mem_nil ((hkept identifier).mp hmem)
    have htree := hdeposits.files
    rwa [hnil, FileTree.Deposited, if_pos rfl] at htree
  written hembed hne := by
    have hentry : ∀ identifier ∈ identifiers, ∃ a, (identifier, a) ∈ st.renderer.cache :=
      fun identifier hmem ↦ Renderer.exists_mem_cache ((hkept identifier).mpr hmem)
    have hfile : ∀ f ∈ st.renderer.files p.settings, ∃ identifier ∈ identifiers,
        f.1 = p.settings.fileName identifier := by
      intro f hf
      obtain ⟨identifier, a, hentry, rfl⟩ := Renderer.mem_files hf
      exact ⟨identifier, (hkept identifier).mp (List.mem_map_of_mem hentry), rfl⟩
    have hfilesNe : st.renderer.files p.settings ≠ [] := by
      obtain ⟨identifier, hmem⟩ := List.exists_mem_of_ne_nil _ hne
      obtain ⟨a, ha⟩ := hentry identifier hmem
      exact List.ne_nil_of_mem (Renderer.mem_files_of_cache hembed ha)
    have hnames : ∀ f ∈ st.renderer.files p.settings, Path.IsName f.1.toList := by
      intro f hf
      obtain ⟨identifier, hmem, hname⟩ := hfile f hf
      rw [hname]
      exact p.settings.isName_fileName (hslash identifier hmem)
    have hnormal : p.settings.location.directory.normalize = p.settings.location.directory :=
      OutputLocation.normalize_directory _ _ _
    obtain ⟨place, hdirectory, hfound, helsewhere⟩ :=
      (hdeposits.files.stocked hfilesNe).exists_place hnormal hnames
    refine ⟨place, hdirectory, fun identifier hmem ↦ ?_, fun q hq ↦ helsewhere q fun f hf ↦ ?_⟩
    · obtain ⟨a, ha⟩ := hentry identifier hmem
      obtain ⟨output, houtput, hdata⟩ := hfirst identifier a ha
      refine ⟨output, houtput, ?_⟩
      rw [← hdata, OutputLocation.filePath]
      exact hfound (p.settings.fileName identifier, a.data)
        (Renderer.mem_files_of_cache hembed ha)
    · obtain ⟨identifier, hmem, hname⟩ := hfile f hf
      rw [hname]
      exact hq identifier hmem

/-- **A pass leaves its artifacts and nothing else.** The equations of the document are attempted
one after the other, and the engine is asked for those whose identifier has not been rendered
before; what it answers decides what comes of them, and the failures are reported. The files
afterwards are told by the identifiers that have been rendered and by the first answers that have
been accepted under them, if no slash is in the identifiers that the document gives. -/
theorem leaves_artifacts (p : Pass σ) (files : σ → FileTree) (d : Document) (world : σ)
    (report : Report) (hfiles : p.host.KeepsFiles files)
    (hslash : ∀ e ∈ p.inputs d, ∀ id ∈ e.explicit?, '/' ∉ id.toList)
    (h : (p.run d world).result = .ok report) :
    ∃ as st, ((p.inputs d).mapM p.attempt).run.run ⟨.initial, world⟩ = (.ok as, st) ∧
      as.map Attempt.equation = p.inputs d ∧ st.world = (p.run d world).world ∧
      report.failures = as.filterMap Attempt.failure? ∧
      List.Forall₂ (fun x answer ↦ x.result = p.settings.outcome x.equation.identifier answer)
        (Attempt.asking [] as) (p.answers d world) ∧
      p.Leaves (((Attempt.asking [] as).map Attempt.equation).zip (p.answers d world))
        (as.filterMap Attempt.identifier?) (files world) (files (p.run d world).world) := by
  obtain ⟨as, st, hrun, hworld, hfailures, hdecided⟩ := exists_answered_attempts h
  have hequations := equation_of_attempts hrun
  refine ⟨as, st, hrun, hequations, hworld, hfailures, hdecided, ?_⟩
  have hkeeps := keeps_of_attempts (.initial _) hrun
  have hslash' : ∀ e ∈ p.inputs d, '/' ∉ e.identifier.toList := fun e he ↦
    NamedInput.slash_not_mem_identifier (hslash e he)
  have hinitial : (RenderState.mk .initial world).Deposits files p.settings
      (Renderer.initial.files p.settings) (files world) :=
    RenderState.deposits_initial files p.settings world
  have hdeposits := deposits_of_attempts hfiles hslash' hinitial hrun
  rw [← hworld]
  refine leaves_of_deposits hdeposits hkeeps.mem_iff (fun identifier hmem ↦ ?_)
    fun identifier a hentry ↦ ?_
  · obtain ⟨x, hx, hidentifier⟩ := List.mem_filterMap.mp hmem
    obtain ⟨a, -, rfl⟩ := Option.map_eq_some_iff.mp hidentifier
    exact hslash' _ (hequations ▸ List.mem_map_of_mem hx)
  · rw [cache_of_attempts (.initial _) hrun] at hentry
    obtain ⟨x, hx, hxentry⟩ := List.mem_filterMap.mp hentry
    obtain ⟨rfl, hresult⟩ := Attempt.of_entry? hxentry
    exact RenderSettings.firstAccepted_eq hdecided (Attempt.pairwise_asking [] as) hx hresult

/-- A pass that writes files to a directory in a tree of files. -/
def passWithFiles : Pass Workspace where
  host := .ofEngine (Prepared.engine ⟨[⟨"y", .reject "no such letter"⟩], 1, 1, none, none⟩)
  options := { Options.initial with
    dialect := .latex, format := .svg, imagesOutDir := some ⟨"img/math"⟩ }
  workingDirectory := ⟨"/work"⟩

/-- A document with an identifier that is given twice and equations of which some are rejected. -/
def documentWithRepeats : Document :=
  ⟨.empty,
    [.math ⟨some "a", none, "latexmath", "y", none⟩,
      .math ⟨some "a", none, "latexmath", "x", none⟩,
      .math ⟨some "a", none, "latexmath", "z", none⟩,
      .prose ⟨none, none, "paragraph", ["stem:[z] and stem:[y]"], .normal⟩]⟩

/-- The report on that document. -/
def reportOnRepeats : Report where
  mathBlocks := 2
  skippedBlocks := 0
  spansScanned := 1
  spansChanged := 1
  inlineEquations := 1
  escaped := 0
  nestedDocuments := 0
  filesWritten := 2
  failures := [⟨"$$y$$", "Math engine error: no such letter"⟩,
    ⟨"$y$", "Math engine error: no such letter"⟩]

/-- The files before: an empty directory, and nothing else. -/
def workspaceBefore : Workspace :=
  .ofFiles (.withDirectory ["work"])

theorem result_of_repeats :
    (passWithFiles.run documentWithRepeats workspaceBefore).result = .ok reportOnRepeats := by
  have hok : (passWithFiles.traversal documentWithRepeats workspaceBefore).1.isOk = true := by
    decide +kernel
  have hreport : { (passWithFiles.traversal documentWithRepeats workspaceBefore).2.report with
      filesWritten := (passWithFiles.traversal documentWithRepeats
        workspaceBefore).2.rendering.renderer.filesWritten } = reportOnRepeats := by
    decide +kernel
  rw [(passWithFiles.run_eq_traverse documentWithRepeats workspaceBefore).1, hreport]
  rcases htraversal : (passWithFiles.traversal documentWithRepeats workspaceBefore).1 with e | new
  · rw [htraversal] at hok
    cases hok
  · rfl

theorem leaves_artifacts_of_repeats :
    passWithFiles.host.KeepsFiles Workspace.files ∧
      (∀ e ∈ passWithFiles.inputs documentWithRepeats, ∀ id ∈ e.explicit?, '/' ∉ id.toList) ∧
      (passWithFiles.run documentWithRepeats workspaceBefore).result = .ok reportOnRepeats ∧
      ∃ as st, ((passWithFiles.inputs documentWithRepeats).mapM passWithFiles.attempt).run.run
          ⟨.initial, workspaceBefore⟩ = (.ok as, st) ∧
        as.map Attempt.equation = passWithFiles.inputs documentWithRepeats ∧
        st.world = (passWithFiles.run documentWithRepeats workspaceBefore).world ∧
        reportOnRepeats.failures = as.filterMap Attempt.failure? ∧
        List.Forall₂ (fun x answer ↦ x.result
            = passWithFiles.settings.outcome x.equation.identifier answer)
          (Attempt.asking [] as) (passWithFiles.answers documentWithRepeats workspaceBefore) ∧
        passWithFiles.Leaves (((Attempt.asking [] as).map Attempt.equation).zip
            (passWithFiles.answers documentWithRepeats workspaceBefore))
          (as.filterMap Attempt.identifier?) workspaceBefore.files
          (passWithFiles.run documentWithRepeats workspaceBefore).world.files := by
  have hfiles : passWithFiles.host.KeepsFiles Workspace.files := Host.keepsFiles_ofEngine _
  have hslash : ∀ e ∈ passWithFiles.inputs documentWithRepeats, ∀ id ∈ e.explicit?,
      '/' ∉ id.toList := by decide +kernel
  exact ⟨hfiles, hslash, result_of_repeats,
    leaves_artifacts _ _ _ _ _ hfiles hslash result_of_repeats⟩

end Pass

end DocumentMath
