import DocumentMath.Proofs.Files.Written
import DocumentMath.Proofs.Render.FileName
import DocumentMath.Proofs.Render.Kept
import DocumentMath.Render.Workspace

/-!
# What a rendering does to the files

A host may keep its files in a tree (`Host.KeepsFiles`); what its engine does is left open, but that
it leaves the tree alone. The files in the directory of files are then told by a list
(`FileTree.Deposited`). To write the file of an artifact adds one to the list, and creates the
directory if there is none yet (`RenderState.files_writeFile`); and a file that could be written in
the beginning can be written to the tree as it is (`RenderState.writeFile_ok`). An artifact that is
rendered is stored (`RenderState.files_renderNew_ok`), and an equation that is rejected changes no
file (`RenderState.files_renderNew_failure`).
-/

namespace DocumentMath

open Text (Bytes)

variable {σ : Type}

/-- A host keeps its files in a tree: the operations on files do what is done to a tree, and nothing
else changes it. What a write that fails leaves is not told. -/
structure Host.KeepsFiles (host : Host σ) (files : σ → FileTree) : Prop where
  typeset : ∀ request world, files (host.typeset request world).2 = files world
  createDirectory : ∀ path world,
    (host.createDirectory path world).map id files = (files world).createAll path
  writeFile : ∀ path content world,
    (host.writeFile path content world).1 = ((files world).write path content).map fun _ ↦ ()
  written : ∀ path content world t, (files world).write path content = .ok t →
    files (host.writeFile path content world).2 = t

theorem Host.keepsFiles_ofEngine (engine : Engine) :
    (Host.ofEngine engine).KeepsFiles Workspace.files where
  typeset _ _ := rfl
  createDirectory _ _ := rfl
  writeFile path content world := by
    simp only [Host.ofEngine, Host.ofFiles]
    cases world.files.write path content <;> rfl
  written path content world t h := by
    simp only [Host.ofEngine, Host.ofFiles, h]

namespace Host.KeepsFiles

variable {host : Host σ} {files : σ → FileTree} {path : Path} {content : Bytes} {world world' : σ}

theorem of_createDirectory (hfiles : host.KeepsFiles files)
    (h : host.createDirectory path world = (.ok (), world')) :
    (files world).createAll path = (.ok (), files world') := by
  rw [← hfiles.createDirectory, h]
  rfl

theorem exists_createDirectory (hfiles : host.KeepsFiles files) {t : FileTree}
    (h : (files world).createAll path = (.ok (), t)) :
    ∃ world', host.createDirectory path world = (.ok (), world') := by
  have hresult := (congrArg Prod.fst (hfiles.createDirectory path world)).trans
    (congrArg Prod.fst h)
  exact ⟨_, Prod.ext hresult rfl⟩

theorem of_writeFile (hfiles : host.KeepsFiles files)
    (h : host.writeFile path content world = (.ok (), world')) :
    (files world).write path content = .ok (files world') := by
  have hresult := hfiles.writeFile path content world
  rw [h] at hresult
  obtain ⟨t, ht, -⟩ := Fallible.map_eq_ok hresult.symm
  rw [ht, ← hfiles.written path content world t ht, h]

theorem exists_writeFile (hfiles : host.KeepsFiles files) {t : FileTree}
    (h : (files world).write path content = .ok t) :
    ∃ world', host.writeFile path content world = (.ok (), world') := by
  have hresult := hfiles.writeFile path content world
  rw [h] at hresult
  exact ⟨_, Prod.ext hresult rfl⟩

end Host.KeepsFiles

/-- A name without a slash stays one as the name of a file. -/
theorem RenderSettings.isName_fileName (s : RenderSettings) {identifier : String}
    (h : '/' ∉ identifier.toList) : Path.IsName (s.fileName identifier).toList := by
  have hwritten := Path.componentsOf_isWritten (s.fileName identifier).toList
  have hname : Path.componentsOf (s.fileName identifier).toList = [.name _] :=
    s.components_fileName h
  rw [hname] at hwritten
  cases hwritten with
  | cons hfirst _ =>
    cases hfirst with
    | inner hinner =>
      cases hinner with
      | name hname => exact hname

theorem RenderSettings.fileName_injective (s : RenderSettings) {identifier identifier' : String}
    (h : s.fileName identifier = s.fileName identifier') : identifier = identifier' := by
  rw [fileName, fileName, String.append_left_inj, String.append_left_inj] at h
  exact h

namespace RenderSettings

/-- The files that an artifact goes to: its own, unless artifacts are embedded. -/
def filesOf (s : RenderSettings) (identifier : String) (a : Artifact) : List (String × Bytes) :=
  if s.embed then [] else [(s.fileName identifier, a.data)]

/-- The files that an answer of the engine makes under an identifier. -/
def filesFrom (s : RenderSettings) (identifier : String) (answer : Except Error EngineOutput) :
    List (String × Bytes) :=
  match s.outcome identifier answer with
  | .ok a => s.filesOf identifier a
  | .error _ => []

/-- A file can be written to the directory of files, which is created before. -/
def Writable (s : RenderSettings) (t : FileTree) (f : String × Bytes) : Prop :=
  ∃ t₁ t₂, t.createAll s.location.directory = (.ok (), t₁) ∧
    t₁.write (s.location.filePath f.1) f.2 = .ok t₂

theorem writable_iff (s : RenderSettings) (t : FileTree) (f : String × Bytes) :
    s.Writable t f ↔ (t.createAll s.location.directory).1 = .ok () ∧
      ((t.createAll s.location.directory).2.write (s.location.filePath f.1) f.2).isOk = true := by
  constructor
  · rintro ⟨t₁, t₂, hcreate, hwrite⟩
    rw [hcreate, hwrite]
    exact ⟨rfl, rfl⟩
  · rintro ⟨hcreate, hwrite⟩
    rcases hcreated : t.createAll s.location.directory with ⟨result, t₁⟩
    rw [hcreated] at hcreate hwrite
    obtain rfl : result = .ok () := hcreate
    cases hwritten : t₁.write (s.location.filePath f.1) f.2 with
    | error e =>
      rw [hwritten] at hwrite
      cases hwrite
    | ok t₂ => exact ⟨t₁, t₂, hcreated, hwritten⟩

instance (s : RenderSettings) (t : FileTree) (f : String × Bytes) : Decidable (s.Writable t f) :=
  decidable_of_iff _ (s.writable_iff t f).symm

variable {s : RenderSettings} {identifier : String} {answer : Except Error EngineOutput}

theorem filesFrom_of_ok {a : Artifact} (h : s.outcome identifier answer = .ok a) :
    s.filesFrom identifier answer = s.filesOf identifier a := by
  rw [filesFrom, h]

theorem filesFrom_of_error {e : Error} (h : s.outcome identifier answer = .error e) :
    s.filesFrom identifier answer = [] := by
  rw [filesFrom, h]

/-- A file is named by the identifier and has the bytes of the answer. -/
theorem eq_of_mem_filesFrom {f : String × Bytes} (h : f ∈ s.filesFrom identifier answer) :
    ∃ output, answer = .ok output ∧ f = (s.fileName identifier, output.data) := by
  cases houtcome : s.outcome identifier answer with
  | error e =>
    rw [filesFrom_of_error houtcome] at h
    cases h
  | ok a =>
    obtain ⟨output, hanswer, hdata⟩ := data_of_outcome houtcome
    rw [filesFrom_of_ok houtcome, filesOf] at h
    split at h
    · cases h
    · refine ⟨output, hanswer, ?_⟩
      rw [← hdata]
      exact List.mem_singleton.mp h

end RenderSettings

/-- The renderer after an artifact has been stored. -/
def Renderer.stored (s : RenderSettings) (r : Renderer) : Renderer :=
  if s.embed then r else { r with directoryReady := true, filesWritten := r.filesWritten + 1 }

namespace RenderState

variable {host : Host σ} {files : σ → FileTree} {s : RenderSettings} {st st' : RenderState σ}
  {t₀ : FileTree} {deposited : List (String × Bytes)}

/-! ### What a success consists of -/

theorem ensureDirectory_eq_ok (h : st.ensureDirectory host s = (.ok (), st')) :
    (st.renderer.directoryReady = true ∧ st' = st) ∨
      ∃ world, host.createDirectory s.location.directory st.world = (.ok (), world) ∧
        st' = ⟨{ st.renderer with directoryReady := true }, world⟩ := by
  rw [ensureDirectory] at h
  split at h
  · next hready =>
    cases h
    exact Or.inl ⟨hready, rfl⟩
  · split at h <;> cases h
    next world hcreate => exact Or.inr ⟨world, hcreate, rfl⟩

theorem writeFile_eq_ok {a b : Artifact} (h : st.writeFile host s a = (.ok b, st')) :
    ∃ st₁ world, st.ensureDirectory host s = (.ok (), st₁) ∧
      host.writeFile (s.location.filePath (s.fileName a.identifier)) a.data st₁.world
        = (.ok (), world) ∧
      b = s.written a ∧
      st' = ⟨{ st₁.renderer with filesWritten := st₁.renderer.filesWritten + 1 }, world⟩ := by
  rw [writeFile] at h
  split at h
  · cases h
  · next st₁ hensure =>
    split at h <;> cases h
    next world hwrite => exact ⟨st₁, world, hensure, hwrite, rfl, rfl⟩

theorem store_eq_ok {a b : Artifact} (h : st.store host s a = (.ok b, st')) :
    (s.embed = true ∧ b = a ∧ st' = st) ∨
      (s.embed = false ∧ st.writeFile host s a = (.ok b, st')) := by
  rw [store] at h
  split at h
  · next hembed =>
    cases h
    exact Or.inl ⟨hembed, rfl, rfl⟩
  · next hembed => exact Or.inr ⟨Bool.eq_false_iff.mpr hembed, h⟩

theorem renderNew_eq_ok {identifier input : String} {a : Artifact}
    (h : st.renderNew host s identifier input = (.ok a, st')) :
    ∃ answer world accepted st₁, host.typeset (s.request input) st.world = (answer, world) ∧
      accepted.identifier = identifier ∧
      store host s accepted ⟨st.renderer, world⟩ = (.ok a, st₁) ∧
      st' = { st₁ with renderer := st₁.renderer.keep a } := by
  rcases hanswer : host.typeset (s.request input) st.world with ⟨answer, world⟩
  rcases st.renderNew_steps host s identifier input hanswer with
    ⟨e, -, hrun⟩ | ⟨accepted, -, hidentifier, hrun⟩
  · cases hrun.symm.trans h
  · rw [hrun] at h
    split at h <;> cases h
    next st₁ hstore => exact ⟨answer, world, accepted, st₁, rfl, hidentifier, hstore, rfl⟩

/-! ### Files in the directory -/

/-- The renderer knows the directory only if there are files in it. -/
structure Deposits (files : σ → FileTree) (s : RenderSettings) (deposited : List (String × Bytes))
    (t₀ : FileTree) (st : RenderState σ) : Prop where
  files : FileTree.Deposited s.location.directory deposited t₀ (files st.world)
  ready : st.renderer.directoryReady = true → deposited ≠ []

theorem deposits_initial (files : σ → FileTree) (s : RenderSettings) (world : σ) :
    (RenderState.mk .initial world).Deposits files s [] (files world) where
  files := FileTree.deposited_nil _ _
  ready hready := (Bool.false_ne_true hready).elim

/-- The directory for files is there when a file is to be written. -/
theorem files_ensureDirectory (hfiles : host.KeepsFiles files)
    (hdeposits : st.Deposits files s deposited t₀)
    (h : st.ensureDirectory host s = (.ok (), st')) :
    FileTree.Stocked s.location.directory deposited t₀ (files st'.world) := by
  rcases ensureDirectory_eq_ok h with ⟨hready, rfl⟩ | ⟨world, hcreate, rfl⟩
  · exact hdeposits.files.stocked (hdeposits.ready hready)
  · exact hdeposits.files.createAll (hfiles.of_createDirectory hcreate)

/-- To write the file of an artifact adds it to the files in the directory. -/
theorem files_writeFile (hfiles : host.KeepsFiles files)
    (hdeposits : st.Deposits files s deposited t₀) {a b : Artifact}
    (hname : Path.IsName (s.fileName a.identifier).toList)
    (hsame : ∀ f ∈ deposited, f.1 = s.fileName a.identifier → f.2 = a.data)
    (h : st.writeFile host s a = (.ok b, st')) :
    st'.Deposits files s (deposited ++ [(s.fileName a.identifier, a.data)]) t₀ := by
  obtain ⟨st₁, world, hensure, hwrite, -, rfl⟩ := writeFile_eq_ok h
  have hstocked := files_ensureDirectory hfiles hdeposits hensure
  refine ⟨hstocked.write hname hsame (hfiles.of_writeFile hwrite), fun _ ↦ ?_⟩
  exact List.append_ne_nil_of_right_ne_nil _ (List.cons_ne_nil _ _)

/-- A file that could be written in the beginning can still be written. -/
theorem writeFile_ok (hfiles : host.KeepsFiles files)
    (hdeposits : st.Deposits files s deposited t₀) {a : Artifact}
    (hname : Path.IsName (s.fileName a.identifier).toList) {t₁ t₂ : FileTree}
    (hcreate : t₀.createAll s.location.directory = (.ok (), t₁))
    (hwrite : t₁.write (s.location.filePath (s.fileName a.identifier)) a.data = .ok t₂) :
    ∃ st', st.writeFile host s a = (.ok (s.written a), st') := by
  have hensured : ∃ st₁, st.ensureDirectory host s = (.ok (), st₁) := by
    rw [ensureDirectory]
    split
    · exact ⟨st, rfl⟩
    · obtain ⟨t, ht⟩ := hdeposits.files.exists_createAll hcreate
      obtain ⟨world, hcall⟩ := hfiles.exists_createDirectory ht
      rw [hcall]
      exact ⟨_, rfl⟩
  obtain ⟨st₁, hensure⟩ := hensured
  have hstocked := files_ensureDirectory hfiles hdeposits hensure
  obtain ⟨t, ht⟩ := hstocked.exists_write hname hcreate hwrite
  obtain ⟨world, hcall⟩ := hfiles.exists_writeFile ht
  rw [writeFile, hensure]
  simp only [OutputLocation.filePath, hcall]
  exact ⟨_, rfl⟩

/-! ### Renderings -/

/-- To store an artifact adds its file to the files in the directory. -/
theorem files_store (hfiles : host.KeepsFiles files)
    (hdeposits : st.Deposits files s deposited t₀) {a b : Artifact}
    (hname : Path.IsName (s.fileName a.identifier).toList)
    (hsame : ∀ f ∈ deposited, ∀ g ∈ s.filesOf a.identifier a, f.1 = g.1 → f.2 = g.2)
    (h : st.store host s a = (.ok b, st')) :
    st'.Deposits files s (deposited ++ s.filesOf a.identifier a) t₀ := by
  rw [RenderSettings.filesOf] at hsame ⊢
  rcases store_eq_ok h with ⟨hembed, -, rfl⟩ | ⟨hembed, hwrite⟩
  · rwa [if_pos hembed, List.append_nil]
  · rw [if_neg (Bool.eq_false_iff.mp hembed)] at hsame ⊢
    exact files_writeFile hfiles hdeposits hname
      (fun f hf ↦ hsame f hf _ (List.mem_singleton_self _)) hwrite

/-- What the engine does makes no difference to the files. -/
theorem Deposits.typeset (hfiles : host.KeepsFiles files)
    (hdeposits : st.Deposits files s deposited t₀) {request : Request}
    {answer : Except Error EngineOutput} {world : σ}
    (hanswer : host.typeset request st.world = (answer, world)) :
    (RenderState.mk st.renderer world).Deposits files s deposited t₀ := by
  have hworld := hfiles.typeset request st.world
  rw [hanswer] at hworld
  exact ⟨hworld ▸ hdeposits.files, hdeposits.ready⟩

/-- An artifact that is rendered is stored. -/
theorem files_renderNew_ok (hfiles : host.KeepsFiles files)
    (hdeposits : st.Deposits files s deposited t₀) {identifier input : String} {a : Artifact}
    (hslash : '/' ∉ identifier.toList)
    (hsame : ∀ f ∈ deposited, ∀ g ∈ s.filesOf identifier a, f.1 = g.1 → f.2 = g.2)
    (h : st.renderNew host s identifier input = (.ok a, st')) :
    st'.Deposits files s (deposited ++ s.filesOf identifier a) t₀ := by
  obtain ⟨answer, world, accepted, st₁, hanswer, rfl, hstore, rfl⟩ := renderNew_eq_ok h
  have hdata : a.data = accepted.data := by
    rcases store_eq_ok hstore with ⟨-, rfl, -⟩ | ⟨-, hwrite⟩
    · rfl
    · obtain ⟨-, -, -, -, rfl, -⟩ := writeFile_eq_ok hwrite
      rfl
  have hfilesOf : s.filesOf accepted.identifier a = s.filesOf accepted.identifier accepted := by
    rw [RenderSettings.filesOf, RenderSettings.filesOf, hdata]
  rw [hfilesOf] at hsame ⊢
  have hstored := files_store hfiles (hdeposits.typeset hfiles hanswer)
    (s.isName_fileName hslash) hsame hstore
  exact ⟨hstored.files, hstored.ready⟩

/-- An answer that fails changes no file. -/
theorem files_renderNew_failure (hfiles : host.KeepsFiles files)
    (hdeposits : st.Deposits files s deposited t₀) {identifier input : String} {e : Error}
    (houtcome : s.outcome identifier (host.typeset (s.request input) st.world).1 = .error e) :
    (st.renderNew host s identifier input).2.Deposits files s deposited t₀ := by
  rw [st.renderNew_of_failure host s houtcome]
  exact hdeposits.typeset hfiles rfl

/-- If its file could be written in the beginning, a rendering comes to what the answer of the
engine makes. -/
theorem renderNew_of_writable (hfiles : host.KeepsFiles files)
    (hdeposits : st.Deposits files s deposited t₀) {identifier input : String}
    (hslash : '/' ∉ identifier.toList)
    (hwritable : ∀ f ∈ s.filesFrom identifier (host.typeset (s.request input) st.world).1,
      s.Writable t₀ f) :
    (st.renderNew host s identifier input).1
      = s.outcome identifier (host.typeset (s.request input) st.world).1 := by
  rcases hanswer : host.typeset (s.request input) st.world with ⟨answer, world⟩
  rw [hanswer] at hwritable
  rcases st.renderNew_steps host s identifier input hanswer with
    ⟨e, houtcome, hrun⟩ | ⟨accepted, houtcome, rfl, hrun⟩ <;> rw [hrun, houtcome]
  have hstored : ∃ st₁, store host s accepted ⟨st.renderer, world⟩
      = (.ok (if s.embed then accepted else s.written accepted), st₁) := by
    rw [store]
    split
    · exact ⟨_, rfl⟩
    · next hembed =>
      have hfile : (s.fileName accepted.identifier, accepted.data)
          ∈ s.filesFrom accepted.identifier answer := by
        rw [RenderSettings.filesFrom_of_ok houtcome, RenderSettings.filesOf, if_neg hembed,
          if_neg hembed]
        exact List.mem_singleton_self _
      obtain ⟨t₁, t₂, hcreate, hwrite⟩ := hwritable _ hfile
      exact writeFile_ok hfiles (hdeposits.typeset hfiles hanswer) (s.isName_fileName hslash)
        hcreate hwrite
  obtain ⟨st₁, hstore⟩ := hstored
  rw [hstore]

/-! ### The renderer afterwards -/

theorem renderer_ensureDirectory_ok (h : st.ensureDirectory host s = (.ok (), st')) :
    st'.renderer = { st.renderer with directoryReady := true } := by
  rcases ensureDirectory_eq_ok h with ⟨hready, rfl⟩ | ⟨world, -, rfl⟩
  · rw [← hready]
  · rfl

theorem renderer_store_ok {a b : Artifact} (h : st.store host s a = (.ok b, st')) :
    st'.renderer = st.renderer.stored s := by
  rw [Renderer.stored]
  rcases store_eq_ok h with ⟨hembed, -, rfl⟩ | ⟨hembed, hwrite⟩
  · rw [if_pos hembed]
  · obtain ⟨st₁, world, hensure, -, -, rfl⟩ := writeFile_eq_ok hwrite
    rw [if_neg (Bool.eq_false_iff.mp hembed), renderer_ensureDirectory_ok hensure]

theorem renderer_renderNew_ok {identifier input : String} {a : Artifact}
    (h : st.renderNew host s identifier input = (.ok a, st')) :
    st'.renderer = (st.renderer.stored s).keep a := by
  obtain ⟨answer, world, accepted, st₁, -, -, hstore, rfl⟩ := renderNew_eq_ok h
  rw [renderer_store_ok hstore]

theorem renderer_renderNew_failure {identifier input : String} {e : Error}
    (houtcome : s.outcome identifier (host.typeset (s.request input) st.world).1 = .error e) :
    (st.renderNew host s identifier input).2.renderer = st.renderer := by
  rw [st.renderNew_of_failure host s houtcome]

end RenderState

end DocumentMath
