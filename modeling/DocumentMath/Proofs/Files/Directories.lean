import DocumentMath.Proofs.Fallible
import DocumentMath.Proofs.Files.Steps
import DocumentMath.Proofs.Path.Normal

/-!
# Creating directories

A tree that still has the directories of another one (`FileTree.KeepsDirectories`) leads wherever
that one leads (`KeepsDirectories.walk`). To create a directory with the directories it is in adds
directories at places where nothing was, and nothing else; afterwards the path leads to a directory
(`FileTree.createAll_eq_ok`). What has been added is on the way to that directory, if the path is in
normal form (`FileTree.prefix_of_createAll`). To create it again makes no difference
(`FileTree.createAll_of_opens`).
-/

namespace DocumentMath

namespace Path.IsNormal

variable {c : Component} {stack : List Component}

theorem tail (h : IsNormal (c :: stack)) : IsNormal stack := by
  generalize hstack : c :: stack = whole at h
  cases h with
  | root =>
    cases hstack
    exact .parents 0
  | parents n =>
    cases n with
    | zero => cases hstack
    | succ n =>
      cases hstack
      exact .parents n
  | name htext hrest =>
    cases hstack
    exact hrest

/-- On top of a name there are names only. -/
theorem exists_name {text : List Char} (h : IsNormal (c :: .name text :: stack)) :
    ∃ text', c = .name text' := by
  generalize hwhole : c :: .name text :: stack = whole at h
  cases h with
  | root => cases hwhole
  | parents n =>
    have hmem : Component.name text ∈ List.replicate n Component.parent := by
      rw [← hwhole]
      exact List.mem_cons_of_mem _ List.mem_cons_self
    cases List.eq_of_mem_replicate hmem
  | @name text' _ htext hrest =>
    cases hwhole
    exact ⟨text', rfl⟩

end Path.IsNormal

namespace FileTree

open DocumentMath.Path
open Fallible (bind_of_ok bind_eq_ok map_eq_ok)

/-! ### Places -/

theorem get?_set (t : FileTree) {p : Place} (hp : p ≠ []) (e : Entry) (q : Place) :
    (t.set p e).get? q = if q = p then some e else t.get? q := by
  rw [get?, get?, set]
  by_cases hq : q = []
  · rw [if_pos hq, if_neg (hq ▸ hp.symm), if_pos hq]
  · rw [if_neg hq, if_neg hq, List.find?_cons]
    by_cases heq : q = p
    · rw [if_pos heq, heq, beq_self_eq_true]
      rfl
    · have hother : (p == q) = false := beq_eq_false_iff_ne.mpr (Ne.symm heq)
      -- what is dropped for the new entry is not at the other place
      have hkept : (fun x : Place × Entry ↦ decide ((x.1 != p) = true ∧ (x.1 == q) = true))
          = fun x ↦ x.1 == q := by
        funext x
        by_cases hx : x.1 = q
        · simp [hx, heq]
        · simp [hx]
      rw [if_neg heq, hother, List.find?_filter, hkept]

theorem enter_eq_ok {p q : Place} {name : String} (h : enter p name = .ok q) :
    q = p ++ [name] := by
  rw [enter] at h
  split at h <;> cases h
  rfl

/-! ### Walking -/

/-- A tree still has the directories of another one. -/
structure KeepsDirectories (t t' : FileTree) : Prop where
  workingDirectory : t'.workingDirectory = t.workingDirectory
  directories : ∀ p e, t.get? p = some e → e.isDirectory = true → t'.get? p = some e

theorem walk_concat (t : FileTree) (steps : List Component) (c : Component) :
    t.walk (steps ++ [c]) = t.walk steps >>= fun p ↦ t.walkStep p c := by
  rw [walk, List.foldlM_append, walk]
  refine congrArg _ (funext fun p ↦ ?_)
  rw [List.foldlM_cons]
  simp

/-- A step by a name leads to a directory of that name. -/
theorem walkStep_name_eq_ok {t : FileTree} {p q : Place} {text : List Char} :
    t.walkStep p (.name text) = .ok q ↔
      enter p (String.ofList text) = .ok q ∧ ∃ e, t.get? q = some e ∧ e.isDirectory = true := by
  rw [walkStep]
  cases henter : enter p (String.ofList text) with
  | error e =>
    constructor
    · exact fun h ↦ nomatch h
    · exact fun h ↦ nomatch h.1
  | ok place =>
    simp only [bind, Except.bind]
    constructor
    · intro h
      split at h
      · next e he =>
        split at h <;> cases h
        exact ⟨rfl, e, he, ‹_›⟩
      · cases h
    · rintro ⟨hplace, e, he, hdirectory⟩
      cases hplace
      rw [he]
      simp only [hdirectory, if_true]

namespace KeepsDirectories

variable {t t' : FileTree}

theorem walkStep (h : t.KeepsDirectories t') {p q : Place} {c : Component}
    (hstep : t.walkStep p c = .ok q) : t'.walkStep p c = .ok q := by
  cases c with
  | root => exact hstep
  | current => exact hstep
  | parent => exact hstep
  | name text =>
    obtain ⟨henter, e, he, hdirectory⟩ := walkStep_name_eq_ok.mp hstep
    exact walkStep_name_eq_ok.mpr ⟨henter, e, h.directories q e he hdirectory, hdirectory⟩

/-- A tree that still has the directories of another one leads wherever that one leads. -/
theorem walk (h : t.KeepsDirectories t') {steps : List Component} {p : Place}
    (hwalk : t.walk steps = .ok p) : t'.walk steps = .ok p := by
  rw [FileTree.walk] at hwalk ⊢
  rw [h.workingDirectory]
  generalize t.workingDirectory = start at hwalk ⊢
  induction steps generalizing start with
  | nil => exact hwalk
  | cons c steps ih =>
    rw [List.foldlM_cons] at hwalk ⊢
    obtain ⟨q, hstep, hwalk⟩ := bind_eq_ok hwalk
    rw [bind_of_ok (h.walkStep hstep)]
    exact ih q hwalk

/-- A new entry where no directory stands. -/
theorem set (t : FileTree) {p : Place} (hp : p ≠ []) (e : Entry)
    (h : ∀ old, t.get? p = some old → old.isDirectory = false) :
    t.KeepsDirectories (t.set p e) where
  workingDirectory := rfl
  directories q old hold hdirectory := by
    rw [get?_set t hp, if_neg, hold]
    rintro rfl
    exact Bool.false_ne_true ((h old hold).symm.trans hdirectory)

/-- A new entry where nothing was. -/
theorem set_new (t : FileTree) {p : Place} (hp : p ≠ []) (e : Entry) (h : t.get? p = none) :
    t.KeepsDirectories (t.set p e) := by
  refine .set t hp e fun old hold ↦ ?_
  rw [h] at hold
  cases hold

end KeepsDirectories

/-! ### Looking up a directory -/

/-- A path leads to a directory at a place. The empty path, which cannot be looked up, stands for
the working directory. -/
structure Opens (t : FileTree) (path : Path) (p : Place) : Prop where
  checked : path.isEmpty = true ∨ checkText path = .ok ()
  walked : t.walk (stepsOf path) = .ok p

theorem KeepsDirectories.opens {t t' : FileTree} (h : t.KeepsDirectories t') {path : Path}
    {p : Place} (hopens : t.Opens path p) : t'.Opens path p :=
  ⟨hopens.checked, h.walk hopens.walked⟩

section Destination

variable {t : FileTree} {path : Path}

theorem destination_of_name (hchecked : checkText path = .ok ()) {init : List Component}
    {text : List Char} (hsteps : stepsOf path = init ++ [.name text]) :
    t.destination path = (t.walk init).map (.named · (String.ofList text)) := by
  rw [destination, hchecked, hsteps]
  simp only [List.getLast?_concat, List.dropLast_concat]
  cases t.walk init <;> rfl

theorem destination_of_not_name (hchecked : checkText path = .ok ())
    (hsteps : ∀ text, (stepsOf path).getLast? ≠ some (.name text)) :
    t.destination path = (t.walk (stepsOf path)).map .directory := by
  rw [destination, hchecked]
  cases hlast : (stepsOf path).getLast? with
  | none => cases t.walk (stepsOf path) <;> rfl
  | some c =>
    cases c with
    | name text => exact absurd hlast (hsteps text)
    | _ => cases t.walk (stepsOf path) <;> rfl

/-- The last step of a path is a name, or it is not. -/
theorem stepsOf_cases (path : Path) :
    (∃ init text, stepsOf path = init ++ [.name text]) ∨
      ∀ text, (stepsOf path).getLast? ≠ some (.name text) := by
  by_cases hname : ∃ text, (stepsOf path).getLast? = some (.name text)
  · obtain ⟨text, hlast⟩ := hname
    obtain ⟨init, hsteps⟩ := List.getLast?_eq_some_iff.mp hlast
    exact Or.inl ⟨init, text, hsteps⟩
  · exact Or.inr fun text hlast ↦ hname ⟨text, hlast⟩

/-- What a destination has come from. -/
theorem destination_eq_ok {x : Destination} (h : t.destination path = .ok x) :
    checkText path = .ok () ∧
      ((∃ init text d, stepsOf path = init ++ [.name text] ∧ t.walk init = .ok d ∧
          x = .named d (String.ofList text)) ∨
        ∃ p, (∀ text, (stepsOf path).getLast? ≠ some (.name text)) ∧
          t.walk (stepsOf path) = .ok p ∧ x = .directory p) := by
  have hchecked : checkText path = .ok () := by
    rw [destination] at h
    obtain ⟨_, hchecked, -⟩ := bind_eq_ok h
    exact hchecked
  refine ⟨hchecked, ?_⟩
  rcases stepsOf_cases path with ⟨init, text, hsteps⟩ | hsteps
  · rw [destination_of_name hchecked hsteps] at h
    obtain ⟨d, hwalk, rfl⟩ := map_eq_ok h
    exact Or.inl ⟨init, text, d, hsteps, hwalk, rfl⟩
  · rw [destination_of_not_name hchecked hsteps] at h
    obtain ⟨p, hwalk, rfl⟩ := map_eq_ok h
    exact Or.inr ⟨p, hsteps, hwalk, rfl⟩

/-- What stands at a name that a path ends with. -/
theorem find_of_named {d : Place} {name : String} (h : t.destination path = .ok (.named d name)) :
    t.find path = enter d name >>= fun place ↦
      match t.get? place with
      | none => .error .notFound
      | some e =>
        if hasTrailingSlash path && !e.isDirectory then .error .notADirectory
        else .ok (place, e) := by
  rw [find, h]
  rfl

theorem find_of_directory {p : Place} (h : t.destination path = .ok (.directory p)) :
    t.find path = .ok (p, .directory) := by
  rw [find, h]
  rfl

theorem find_of_entry {d p : Place} {name : String} {e : Entry}
    (h : t.destination path = .ok (.named d name)) (henter : enter d name = .ok p)
    (he : t.get? p = some e) (hslash : hasTrailingSlash path = true → e.isDirectory = true) :
    t.find path = .ok (p, e) := by
  rw [find_of_named h, henter]
  show (match t.get? p with
    | none => _
    | some e => _) = _
  rw [he]
  refine if_neg fun hboth ↦ ?_
  rw [Bool.and_eq_true, Bool.not_eq_true'] at hboth
  exact Bool.false_ne_true (hboth.2.symm.trans (hslash hboth.1))

/-- Where all steps of a path lead to, it is found to lead. -/
theorem find_of_walk {p : Place} (hchecked : checkText path = .ok ())
    (hwalk : t.walk (stepsOf path) = .ok p) :
    ∃ e, t.find path = .ok (p, e) ∧ e.isDirectory = true := by
  rcases stepsOf_cases path with ⟨init, text, hsteps⟩ | hsteps
  · rw [hsteps, walk_concat] at hwalk
    obtain ⟨d, hinit, hstep⟩ := bind_eq_ok hwalk
    obtain ⟨henter, e, he, hdirectory⟩ := walkStep_name_eq_ok.mp hstep
    have hdestination := destination_of_name (t := t) hchecked hsteps
    rw [hinit] at hdestination
    exact ⟨e, find_of_entry hdestination henter he fun _ ↦ hdirectory, hdirectory⟩
  · have hdestination := destination_of_not_name (t := t) hchecked hsteps
    rw [hwalk] at hdestination
    exact ⟨.directory, find_of_directory hdestination, rfl⟩

/-- Where a path is found to lead to a directory, all of its steps lead. -/
theorem walk_of_find {p : Place} {e : Entry} (h : t.find path = .ok (p, e))
    (hdirectory : e.isDirectory = true) :
    checkText path = .ok () ∧ t.walk (stepsOf path) = .ok p := by
  obtain ⟨x, hdestination, -⟩ : ∃ x, t.destination path = .ok x ∧ _ := bind_eq_ok h
  obtain ⟨hchecked, hx⟩ := destination_eq_ok hdestination
  refine ⟨hchecked, ?_⟩
  rcases hx with ⟨init, text, d, hsteps, hinit, rfl⟩ | ⟨q, -, hwalk, rfl⟩
  · rw [find_of_named hdestination] at h
    obtain ⟨q, henter, h⟩ := bind_eq_ok h
    have hplace : q = p ∧ t.get? q = some e := by
      split at h
      · cases h
      · next e' he' =>
        split at h <;> cases h
        exact ⟨rfl, he'⟩
    obtain ⟨rfl, he⟩ := hplace
    rw [hsteps, walk_concat, bind_of_ok hinit]
    exact walkStep_name_eq_ok.mpr ⟨henter, e, he, hdirectory⟩
  · rw [find_of_directory hdestination] at h
    cases h
    exact hwalk

/-- A path leads to a directory exactly if all of its steps do. -/
theorem isDirectory_iff :
    t.isDirectory path = true ↔ checkText path = .ok () ∧ ∃ p, t.walk (stepsOf path) = .ok p := by
  constructor
  · intro h
    rw [isDirectory, lookup] at h
    rcases hfind : t.find path with error | ⟨p, e⟩
    · rw [hfind] at h
      cases h
    · rw [hfind] at h
      obtain ⟨hchecked, hwalk⟩ := walk_of_find hfind h
      exact ⟨hchecked, p, hwalk⟩
  · rintro ⟨hchecked, p, hwalk⟩
    obtain ⟨e, hfind, hdirectory⟩ := find_of_walk hchecked hwalk
    rw [isDirectory, lookup, hfind]
    exact hdirectory

end Destination

/-! ### Creating one directory -/

section Create

variable {t t' : FileTree} {path : Path}

/-- A directory has been added at a place where nothing was, and the path now leads to it. -/
structure Adds (t t' : FileTree) (path : Path) (p : Place) : Prop where
  tree : t' = t.set p .directory
  ne_root : p ≠ []
  new : t.get? p = none
  named : ∃ text, (stepsOf path).getLast? = some (.name text)
  opens : t'.Opens path p

theorem Adds.keepsDirectories {p : Place} (h : t.Adds t' path p) : t.KeepsDirectories t' :=
  h.tree ▸ .set_new t h.ne_root .directory h.new

theorem createDirectory_eq_ok (h : t.createDirectory path = .ok t') : ∃ p, t.Adds t' path p := by
  rw [createDirectory] at h
  obtain ⟨x, hdestination, h⟩ := bind_eq_ok h
  obtain ⟨hchecked, hx⟩ := destination_eq_ok hdestination
  rcases hx with ⟨init, text, d, hsteps, hinit, rfl⟩ | ⟨q, -, -, rfl⟩
  · obtain ⟨p, henter, h⟩ := bind_eq_ok h
    split at h
    · next hnew =>
      obtain ⟨_, -, htree⟩ := bind_eq_ok h
      cases htree
      have hroot : p ≠ [] := by
        rw [enter_eq_ok henter]
        exact List.append_ne_nil_of_right_ne_nil _ (List.cons_ne_nil _ _)
      have hkeeps : t.KeepsDirectories (t.set p .directory) := .set_new t hroot .directory hnew
      refine ⟨p, rfl, hroot, hnew, ⟨text, by rw [hsteps, List.getLast?_concat]⟩,
        Or.inr hchecked, ?_⟩
      rw [hsteps, walk_concat, bind_of_ok (hkeeps.walk hinit)]
      refine walkStep_name_eq_ok.mpr ⟨henter, .directory, ?_, rfl⟩
      rw [get?_set t hroot, if_pos rfl]
    · cases h
  · cases h

/-- A directory that is there is as good as a new one. -/
theorem ensureDirectory_eq_ok (h : t.ensureDirectory path = .ok t') :
    (t' = t ∧ ∃ p, t.Opens path p) ∨ ∃ p, t.Adds t' path p := by
  rw [ensureDirectory] at h
  split at h
  · next created hcreated =>
    cases h
    exact Or.inr (createDirectory_eq_ok hcreated)
  · split at h <;> cases h
    next hdirectory =>
      obtain ⟨hchecked, p, hwalk⟩ := isDirectory_iff.mp hdirectory
      exact Or.inl ⟨rfl, p, Or.inr hchecked, hwalk⟩

/-- A directory that is there is left as it is. -/
theorem ensureDirectory_of_isDirectory (h : t.isDirectory path = true) :
    t.ensureDirectory path = .ok t := by
  rw [ensureDirectory]
  split
  · next created hcreated =>
    -- a name that leads to a directory is no place where nothing is
    obtain ⟨p, hadds⟩ := createDirectory_eq_ok hcreated
    obtain ⟨text, hlast⟩ := hadds.named
    obtain ⟨init, hsteps⟩ := List.getLast?_eq_some_iff.mp hlast
    obtain ⟨-, q, hwalk⟩ := isDirectory_iff.mp h
    have hplace : q = p :=
      Except.ok.inj ((hadds.keepsDirectories.walk hwalk).symm.trans hadds.opens.walked)
    rw [hsteps, walk_concat] at hwalk
    obtain ⟨d, -, hstep⟩ := bind_eq_ok hwalk
    obtain ⟨-, e, he, -⟩ := walkStep_name_eq_ok.mp hstep
    rw [hplace, hadds.new] at he
    cases he
  · exact if_pos h

end Create

/-! ### Creating a directory and those it is in -/

/-- Directories have been added at places where nothing was. -/
structure AddsDirectories (t t' : FileTree) : Prop where
  workingDirectory : t'.workingDirectory = t.workingDirectory
  added : ∀ q, t'.get? q = t.get? q ∨ (t.get? q = none ∧ t'.get? q = some .directory)

namespace AddsDirectories

variable {t t' t'' : FileTree}

theorem refl (t : FileTree) : t.AddsDirectories t := ⟨rfl, fun _ ↦ Or.inl rfl⟩

theorem trans (h : t.AddsDirectories t') (h' : t'.AddsDirectories t'') :
    t.AddsDirectories t'' where
  workingDirectory := h'.workingDirectory.trans h.workingDirectory
  added q := by
    rcases h.added q with heq | ⟨hnone, hadded⟩
    · rw [← heq]
      exact h'.added q
    · rcases h'.added q with heq' | ⟨hnone', -⟩
      · exact Or.inr ⟨hnone, heq'.trans hadded⟩
      · rw [hadded] at hnone'
        cases hnone'

theorem keepsDirectories (h : t.AddsDirectories t') : t.KeepsDirectories t' where
  workingDirectory := h.workingDirectory
  directories p e he _ := by
    rcases h.added p with heq | ⟨hnone, -⟩
    · rw [heq, he]
    · rw [he] at hnone
      cases hnone

end AddsDirectories

section CreateAll

variable {t t' : FileTree} {path : Path}

theorem Adds.addsDirectories {p : Place} (h : t.Adds t' path p) : t.AddsDirectories t' := by
  rw [h.tree]
  refine ⟨rfl, fun q ↦ ?_⟩
  rw [get?_set t h.ne_root]
  split
  · next heq => exact Or.inr ⟨heq ▸ h.new, rfl⟩
  · exact Or.inl rfl

theorem addsDirectories_of_ensureDirectory (h : t.ensureDirectory path = .ok t') :
    t.AddsDirectories t' ∧ ∃ p, t'.Opens path p := by
  rcases ensureDirectory_eq_ok h with ⟨rfl, hopens⟩ | ⟨p, hadds⟩
  · exact ⟨.refl t', hopens⟩
  · exact ⟨hadds.addsDirectories, p, hadds.opens⟩

/-- What is done for the last component of a path: the directory is created, if need be after those
it is in. -/
theorem createAllFrom_eq_ok {cs : List Component} (h : t.createAllFrom path cs = (.ok (), t')) :
    t.ensureDirectory path = .ok t' ∨
      ∃ c c' above t₁, cs = c :: c' :: above ∧
        t.createAllFrom (.ofComponents (c' :: above).reverse) (c' :: above) = (.ok (), t₁) ∧
        t₁.ensureDirectory path = .ok t' := by
  unfold createAllFrom at h
  split at h
  · next c c' above =>
    split at h
    · next hensure =>
      cases h
      exact Or.inl hensure
    · split at h
      · cases h
      · next t₁ habove =>
        split at h <;> cases h
        next hensure => exact Or.inr ⟨c, c', above, t₁, rfl, habove, hensure⟩
    · cases h
  · split at h <;> cases h
    next hensure => exact Or.inl hensure

theorem addsDirectories_of_createAllFrom {cs : List Component}
    (h : t.createAllFrom path cs = (.ok (), t')) :
    t.AddsDirectories t' ∧ ∃ p, t'.Opens path p := by
  induction cs generalizing path t' with
  | nil =>
    rcases createAllFrom_eq_ok h with hensure | ⟨c, c', above, t₁, hcs, -⟩
    · exact addsDirectories_of_ensureDirectory hensure
    · cases hcs
  | cons c cs ih =>
    rcases createAllFrom_eq_ok h with hensure | ⟨_, _, _, t₁, hcs, habove, hensure⟩
    · exact addsDirectories_of_ensureDirectory hensure
    · cases hcs
      obtain ⟨hadds, -⟩ := ih habove
      obtain ⟨hadds', hopens⟩ := addsDirectories_of_ensureDirectory hensure
      exact ⟨hadds.trans hadds', hopens⟩

/-- A directory is created by adding directories where nothing was, and then the path leads to a
directory. -/
theorem createAll_eq_ok (h : t.createAll path = (.ok (), t')) :
    t.AddsDirectories t' ∧ ∃ p, t'.Opens path p := by
  rw [createAll] at h
  split at h
  · next hempty =>
    cases h
    have hsteps : stepsOf path = [] := by
      rw [stepsOf_eq, String.isEmpty_iff.mp hempty]
      rfl
    exact ⟨.refl t, t.workingDirectory, Or.inl hempty, by rw [hsteps]; rfl⟩
  · exact addsDirectories_of_createAllFrom h

/-- A directory that is there is not created again. -/
theorem createAll_of_opens {p : Place} (h : t.Opens path p) : t.createAll path = (.ok (), t) := by
  rw [createAll]
  split
  · rfl
  · next hempty =>
    have hdirectory : t.isDirectory path = true :=
      isDirectory_iff.mpr ⟨h.checked.resolve_left hempty, p, h.walked⟩
    have hensure := ensureDirectory_of_isDirectory hdirectory
    unfold createAllFrom
    split <;> rw [hensure]

/-! ### Where directories are added -/

theorem Opens.unique {p q : Place} (h : t.Opens path p) (h' : t.Opens path q) : p = q :=
  Except.ok.inj (h.walked.symm.trans h'.walked)

/-- A single directory is added where the path leads, and the path ends with its name. -/
theorem place_of_ensureDirectory (h : t.ensureDirectory path = .ok t') {p q : Place}
    (hopens : t'.Opens path p) (hq : t'.get? q ≠ t.get? q) :
    q = p ∧ ∃ text, (stepsOf path).getLast? = some (.name text) := by
  rcases ensureDirectory_eq_ok h with ⟨rfl, -⟩ | ⟨p', hadds⟩
  · exact absurd rfl hq
  · have hplace : p' = p := hadds.opens.unique hopens
    rw [hadds.tree, get?_set t hadds.ne_root] at hq
    split at hq
    · next heq => exact ⟨heq.trans hplace, hadds.named⟩
    · exact absurd rfl hq

/-- What is added when a directory with a path in normal form is created is the directory and those
it is in. If the path does not end with a name, nothing is added. -/
theorem prefix_of_createAllFrom {stack : List Component} (hnormal : IsNormal stack)
    (hsteps : stepsOf path = stack.reverse) (h : t.createAllFrom path stack = (.ok (), t'))
    {p q : Place} (hopens : t'.Opens path p) (hq : t'.get? q ≠ t.get? q) :
    (∃ text, stack.head? = some (.name text)) ∧ q <+: p := by
  induction stack generalizing path t' p with
  | nil =>
    rcases createAllFrom_eq_ok h with hensure | ⟨c, c', above, t₁, hcs, -⟩
    · obtain ⟨rfl, hname⟩ := place_of_ensureDirectory hensure hopens hq
      rw [hsteps, List.getLast?_reverse] at hname
      exact ⟨hname, List.prefix_rfl⟩
    · cases hcs
  | cons c stack ih =>
    -- the directory itself comes last: a place is its own, or has been added before
    have hlast {t₁ : FileTree} (hensure : t₁.ensureDirectory path = .ok t')
        (hne : t'.get? q ≠ t₁.get? q) :
        (∃ text, (c :: stack).head? = some (.name text)) ∧ q <+: p := by
      obtain ⟨rfl, hname⟩ := place_of_ensureDirectory hensure hopens hne
      rw [hsteps, List.getLast?_reverse] at hname
      exact ⟨hname, List.prefix_rfl⟩
    rcases createAllFrom_eq_ok h with hensure | ⟨_, c', above, t₁, hcs, habove, hensure⟩
    · exact hlast hensure hq
    · cases hcs
      by_cases hne : t'.get? q = t₁.get? q
      · have hsteps₁ : stepsOf (.ofComponents (c' :: above).reverse) = (c' :: above).reverse :=
          stepsOf_ofComponents hnormal.tail.isWritten_reverse
        obtain ⟨-, p₁, hopens₁⟩ := addsDirectories_of_createAllFrom habove
        obtain ⟨⟨text, hhead⟩, hprefix⟩ :=
          ih hnormal.tail hsteps₁ habove hopens₁ (hne ▸ hq)
        cases hhead
        obtain ⟨text', rfl⟩ := hnormal.exists_name
        refine ⟨⟨text', rfl⟩, hprefix.trans ?_⟩
        have hkeeps := (addsDirectories_of_ensureDirectory hensure).1.keepsDirectories
        have hwalk := hopens.walked
        rw [hsteps, List.reverse_cons, walk_concat, ← hsteps₁,
          hkeeps.walk hopens₁.walked] at hwalk
        obtain ⟨henter, -⟩ := walkStep_name_eq_ok.mp hwalk
        rw [enter_eq_ok henter]
        exact List.prefix_append p₁ _
      · exact hlast hensure hne

/-- What is added when a directory with a path in normal form is created is the directory and those
it is in. -/
theorem prefix_of_createAll (hnormal : path.normalize = path)
    (h : t.createAll path = (.ok (), t')) {p q : Place} (hopens : t'.Opens path p)
    (hq : t'.get? q ≠ t.get? q) : q <+: p := by
  have hne : path.isEmpty = false := by
    have htext := text_normalize_ne_nil path
    rw [hnormal] at htext
    refine Bool.eq_false_iff.mpr fun hempty ↦ htext ?_
    rw [String.isEmpty_iff.mp hempty]
    rfl
  rw [createAll, if_neg (Bool.eq_false_iff.mp hne)] at h
  by_cases hstack : path.stack = []
  · -- the path that goes nowhere is a `.`
    have hcurrent : path = ⟨"."⟩ := hnormal.symm.trans (normalize_of_stack_eq_nil hstack)
    have hcomponents : path.components.reverse = [.current] := by
      rw [hcurrent]
      decide +kernel
    rw [hcomponents] at h
    rcases createAllFrom_eq_ok h with hensure | ⟨_, _, _, _, hcs, -⟩
    · obtain ⟨-, text, hlast⟩ := place_of_ensureDirectory hensure hopens hq
      have hsteps : stepsOf ⟨"."⟩ = [.current] := by decide +kernel
      rw [hcurrent, hsteps] at hlast
      cases hlast
    · cases hcs
  · have hcomponents : path.components.reverse = path.stack := by
      rw [← hnormal, components_normalize hstack, List.reverse_reverse, stack_normalize]
    have hsteps : stepsOf path = path.stack.reverse := by
      have hpath : path = .ofComponents path.stack.reverse :=
        hnormal.symm.trans (normalize_of_stack_ne_nil hstack)
      exact (congrArg stepsOf hpath).trans
        (stepsOf_ofComponents path.isNormal_stack.isWritten_reverse)
    rw [hcomponents] at h
    exact (prefix_of_createAllFrom path.isNormal_stack hsteps h hopens hq).2

end CreateAll

end FileTree

end DocumentMath
