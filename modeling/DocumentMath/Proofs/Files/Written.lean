import DocumentMath.Proofs.Files.Directories

/-!
# Writing files into a directory

A file that is written at a name in a directory stands at that one place, and everything else is as
it was (`FileTree.write_join_iff`). Only a device at the place takes the bytes and stays what it is
(`Entry.overwritten`).

What comes of several writes is the invariant `FileTree.Holds`: the files stand in the directory,
and elsewhere nothing has changed. It starts with no files, one more write adds one more file
(`Holds.write`), and what could be written in the beginning can still be (`Holds.canWrite_iff`).
-/

namespace DocumentMath

open Text (Bytes)

/-- What stands at a place after bytes have been written there. -/
def Entry.overwritten (content : Bytes) : Option Entry → Entry
  | some (.device d) => .device d
  | _ => .file content

/-- Whether what stands at a place takes bytes that are written there. -/
def Entry.taken (content : Bytes) : Option Entry → Except IoError Unit
  | some (.device d) => d.take content
  | _ => .ok ()

theorem Entry.taken_overwritten (content written : Bytes) (e? : Option Entry) :
    taken content (some (overwritten written e?)) = taken content e? := by
  cases e? with
  | none => rfl
  | some e => cases e <;> rfl

theorem Entry.isDirectory_overwritten (content : Bytes) (e? : Option Entry) :
    (overwritten content e?).isDirectory = false := by
  cases e? with
  | none => rfl
  | some e => cases e <;> rfl

theorem Entry.overwritten_overwritten (content : Bytes) (e? : Option Entry) :
    overwritten content (some (overwritten content e?)) = overwritten content e? := by
  cases e? with
  | none => rfl
  | some e => cases e <;> rfl

namespace FileTree

open DocumentMath.Path
open Fallible (bind_eq_ok map_eq_ok)

variable {t t' : FileTree} {directory : Path} {p : Place} {name : String} {content : Bytes}

/-- The tree after bytes have been written at a place. -/
def overwrite (t : FileTree) (p : Place) (content : Bytes) : FileTree :=
  match t.get? p with
  | some (.device _) => t
  | _ => t.set p (.file content)

theorem get?_overwrite (t : FileTree) {p : Place} (hp : p ≠ []) (content : Bytes) (q : Place) :
    (t.overwrite p content).get? q
      = if q = p then some (.overwritten content (t.get? p)) else t.get? q := by
  rw [overwrite]
  split
  · next d hd =>
    split
    · next heq =>
      rw [heq, hd]
      rfl
    · rfl
  · next hdevice =>
    have hfile : Entry.overwritten content (t.get? p) = .file content := by
      cases hget : t.get? p with
      | none => rfl
      | some e =>
        cases e with
        | device d => exact (hdevice d hget).elim
        | _ => rfl
    rw [get?_set t hp, hfile]

theorem workingDirectory_overwrite (t : FileTree) (p : Place) (content : Bytes) :
    (t.overwrite p content).workingDirectory = t.workingDirectory := by
  rw [overwrite]
  split <;> rfl

/-- Where the file at a name in a directory would be written. -/
theorem findFile_join (hopens : t.Opens directory p) (hname : IsName name.toList) :
    t.findFile (directory.join ⟨name⟩) =
      checkText (directory.join ⟨name⟩) >>= fun _ ↦ enter p name >>= fun place ↦
        match t.get? place with
        | none => t.checkNew p false >>= fun _ ↦ .ok (place, none)
        | some e => if e.isDirectory then .error .isADirectory else .ok (place, some e) := by
  rw [findFile]
  cases hchecked : checkText (directory.join ⟨name⟩) with
  | error e =>
    rw [destination, hchecked]
    rfl
  | ok u =>
    have hdestination := destination_of_name (t := t) hchecked (stepsOf_join directory hname)
    rw [hopens.walked, String.ofList_toList] at hdestination
    rw [hdestination]
    show (if hasTrailingSlash (directory.join ⟨name⟩) = true then _ else _) = _
    rw [hasTrailingSlash_join directory hname]
    rfl

/-- What it takes to write a file at a name in a directory: the name is one that can be entered, no
directory stands there, a new file can be created, and a device takes the bytes. -/
structure CanWrite (t : FileTree) (directory : Path) (p : Place) (name : String)
    (content : Bytes) : Prop where
  checked : checkText (directory.join ⟨name⟩) = .ok ()
  entered : enter p name = .ok (p ++ [name])
  file : ∀ e, t.get? (p ++ [name]) = some e → e.isDirectory = false
  new : t.get? (p ++ [name]) = none → t.checkNew p false = .ok ()
  taken : Entry.taken content (t.get? (p ++ [name])) = .ok ()

theorem findFile_of_canWrite (hopens : t.Opens directory p) (hname : IsName name.toList)
    (h : t.CanWrite directory p name content) :
    t.findFile (directory.join ⟨name⟩) = .ok (p ++ [name], t.get? (p ++ [name])) := by
  rw [findFile_join hopens hname, h.checked, h.entered]
  show (match t.get? (p ++ [name]) with
    | none => _
    | some e => _) = _
  cases hget : t.get? (p ++ [name]) with
  | none =>
    simp only [h.new hget]
    rfl
  | some e => simp only [h.file e hget, Bool.false_eq_true, if_false]

theorem findFile_join_eq_ok (hopens : t.Opens directory p) (hname : IsName name.toList)
    {place : Place} {e? : Option Entry}
    (h : t.findFile (directory.join ⟨name⟩) = .ok (place, e?)) :
    checkText (directory.join ⟨name⟩) = .ok () ∧ enter p name = .ok (p ++ [name]) ∧
      (∀ e, t.get? (p ++ [name]) = some e → e.isDirectory = false) ∧
      (t.get? (p ++ [name]) = none → t.checkNew p false = .ok ()) ∧
      place = p ++ [name] ∧ e? = t.get? (p ++ [name]) := by
  rw [findFile_join hopens hname] at h
  obtain ⟨_, hchecked, h⟩ := bind_eq_ok h
  obtain ⟨q, hentered, h⟩ := bind_eq_ok h
  obtain rfl := enter_eq_ok hentered
  refine ⟨hchecked, hentered, ?_⟩
  cases hget : t.get? (p ++ [name]) with
  | none =>
    rw [hget] at h
    obtain ⟨_, hnew, h⟩ := bind_eq_ok h
    cases h
    exact ⟨fun e he ↦ (nomatch he), fun _ ↦ hnew, rfl, rfl⟩
  | some e =>
    rw [hget] at h
    by_cases hdirectory : e.isDirectory = true
    · cases (if_pos hdirectory).symm.trans h
    · cases (if_neg hdirectory).symm.trans h
      refine ⟨fun e' he' ↦ ?_, fun hnone ↦ (nomatch hnone), rfl, rfl⟩
      cases he'
      exact Bool.eq_false_iff.mpr hdirectory

theorem write_of_findFile {path : Path} {q : Place} (h : t.findFile path = .ok (q, t.get? q)) :
    t.write path content
      = (Entry.taken content (t.get? q)).map fun _ ↦ t.overwrite q content := by
  rw [write, h, overwrite]
  cases t.get? q with
  | none => rfl
  | some e =>
    cases e with
    | device d =>
      show (d.take content >>= fun _ ↦ Except.ok t) = (d.take content).map fun _ ↦ t
      cases d.take content <;> rfl
    | _ => rfl

/-- What is written at a name in a directory, and what it takes. -/
theorem write_join_iff (hopens : t.Opens directory p) (hname : IsName name.toList) :
    t.write (directory.join ⟨name⟩) content = .ok t' ↔
      t.CanWrite directory p name content ∧ t' = t.overwrite (p ++ [name]) content := by
  constructor
  · intro h
    obtain ⟨⟨place, e?⟩, hfound, -⟩ :
        ∃ x, t.findFile (directory.join ⟨name⟩) = .ok x ∧ _ := bind_eq_ok h
    obtain ⟨hchecked, hentered, hfile, hnew, rfl, rfl⟩ := findFile_join_eq_ok hopens hname hfound
    rw [write_of_findFile hfound] at h
    obtain ⟨_, htaken, rfl⟩ := map_eq_ok h
    exact ⟨⟨hchecked, hentered, hfile, hnew, htaken⟩, rfl⟩
  · rintro ⟨hcan, rfl⟩
    rw [write_of_findFile (findFile_of_canWrite hopens hname hcan), hcan.taken]
    rfl

/-! ### Several files -/

/-- The tree `t` has come of `t₀` by writing files into a directory, and by nothing else. -/
structure Holds (directory : Path) (p : Place) (files : List (String × Bytes))
    (t₀ t : FileTree) : Prop where
  workingDirectory : t.workingDirectory = t₀.workingDirectory
  here : ∀ f ∈ files, t₀.CanWrite directory p f.1 f.2 ∧
    t.get? (p ++ [f.1]) = some (.overwritten f.2 (t₀.get? (p ++ [f.1])))
  elsewhere : ∀ q, (∀ f ∈ files, q ≠ p ++ [f.1]) → t.get? q = t₀.get? q

theorem holds_nil (directory : Path) (p : Place) (t : FileTree) : Holds directory p [] t t where
  workingDirectory := rfl
  here := List.forall_mem_nil _
  elsewhere _ _ := rfl

namespace Holds

variable {t₀ : FileTree} {files : List (String × Bytes)}

theorem ne_of_length {p q : Place} (name : String) (h : q.length ≤ p.length) :
    q ≠ p ++ [name] := by
  rintro rfl
  rw [List.length_append, List.length_singleton] at h
  omega

/-- At a name in the directory there is what was there in the beginning, or one of the files. -/
theorem get?_cases (h : Holds directory p files t₀ t) (name : String) :
    t.get? (p ++ [name]) = t₀.get? (p ++ [name]) ∨
      ∃ f ∈ files, f.1 = name ∧ t₀.CanWrite directory p f.1 f.2 ∧
        t.get? (p ++ [name]) = some (.overwritten f.2 (t₀.get? (p ++ [name]))) := by
  by_cases hmem : ∃ f ∈ files, f.1 = name
  · obtain ⟨f, hf, rfl⟩ := hmem
    exact Or.inr ⟨f, hf, rfl, h.here f hf⟩
  · refine Or.inl (h.elsewhere _ fun f hf heq ↦ hmem ⟨f, hf, ?_⟩)
    exact (List.singleton_inj.mp (List.append_cancel_left heq)).symm

theorem keepsDirectories (h : Holds directory p files t₀ t) : t₀.KeepsDirectories t where
  workingDirectory := h.workingDirectory
  directories q e he hdirectory := by
    rw [h.elsewhere q, he]
    rintro f hf rfl
    exact Bool.false_ne_true (((h.here f hf).1.file e he).symm.trans hdirectory)

/-- What could be written in the beginning can be written still, and nothing else can. -/
theorem canWrite_iff (h : Holds directory p files t₀ t) :
    t.CanWrite directory p name content ↔ t₀.CanWrite directory p name content := by
  have hdirectory : t.checkNew p false = t₀.checkNew p false := by
    rw [checkNew, checkNew, h.elsewhere p fun f _ ↦ ne_of_length f.1 (Nat.le_refl _)]
  rcases h.get?_cases name with heq | ⟨f, -, rfl, hcan, heq⟩
  · constructor
    · rintro ⟨hchecked, hentered, hfile, hnew, htaken⟩
      rw [heq] at hfile hnew htaken
      exact ⟨hchecked, hentered, hfile, hdirectory ▸ hnew, htaken⟩
    · rintro ⟨hchecked, hentered, hfile, hnew, htaken⟩
      rw [← heq] at hfile hnew htaken
      exact ⟨hchecked, hentered, hfile, hdirectory ▸ hnew, htaken⟩
  · have htaken : Entry.taken content (t.get? (p ++ [f.1]))
        = Entry.taken content (t₀.get? (p ++ [f.1])) := by
      rw [heq, Entry.taken_overwritten]
    constructor
    · rintro ⟨hchecked, hentered, -, -, htaken'⟩
      exact ⟨hchecked, hentered, hcan.file, hcan.new, htaken.symm.trans htaken'⟩
    · rintro ⟨hchecked, hentered, -, -, htaken'⟩
      refine ⟨hchecked, hentered, fun e he ↦ ?_, fun hnone ↦ ?_, htaken.trans htaken'⟩
      · rw [heq] at he
        cases he
        exact Entry.isDirectory_overwritten _ _
      · rw [heq] at hnone
        cases hnone

/-- One more write makes one more file. A file that is written again is the same. -/
theorem write (h : Holds directory p files t₀ t) (hopens : t₀.Opens directory p)
    (hname : IsName name.toList) (hsame : ∀ f ∈ files, f.1 = name → f.2 = content)
    (hwrite : t.write (directory.join ⟨name⟩) content = .ok t') :
    Holds directory p (files ++ [(name, content)]) t₀ t' := by
  obtain ⟨hcan, rfl⟩ :=
    (write_join_iff (h.keepsDirectories.opens hopens) hname).mp hwrite
  have hroot : p ++ [name] ≠ [] := List.append_ne_nil_of_right_ne_nil _ (List.cons_ne_nil _ _)
  have hcan₀ := h.canWrite_iff.mp hcan
  refine ⟨(workingDirectory_overwrite t _ _).trans h.workingDirectory, fun f hf ↦ ?_,
    fun q hq ↦ ?_⟩
  · rw [get?_overwrite t hroot]
    rcases List.mem_append.mp hf with hf | hf
    · refine ⟨(h.here f hf).1, ?_⟩
      split
      · next heq =>
        have hf' : f.1 = name := List.singleton_inj.mp (List.append_cancel_left heq)
        rw [← hsame f hf hf', ← heq, (h.here f hf).2, Entry.overwritten_overwritten]
      · exact (h.here f hf).2
    · cases List.mem_singleton.mp hf
      refine ⟨hcan₀, ?_⟩
      rw [if_pos rfl]
      rcases h.get?_cases name with heq | ⟨g, hg, rfl, -, heq⟩
      · rw [heq]
      · rw [heq, hsame g hg rfl, Entry.overwritten_overwritten]
  · rw [List.forall_mem_append] at hq
    rw [get?_overwrite t hroot, if_neg (hq.2 _ (List.mem_singleton_self _)), h.elsewhere q hq.1]

/-- A file that has been written is found in the directory. -/
theorem find_join (h : Holds directory p files t₀ t) (hopens : t₀.Opens directory p)
    {f : String × Bytes} (hf : f ∈ files) (hname : IsName f.1.toList) :
    t.find (directory.join ⟨f.1⟩)
      = .ok (p ++ [f.1], .overwritten f.2 (t₀.get? (p ++ [f.1]))) := by
  obtain ⟨hcan, hget⟩ := h.here f hf
  have hdestination := destination_of_name (t := t) hcan.checked (stepsOf_join directory hname)
  rw [(h.keepsDirectories.opens hopens).walked, String.ofList_toList] at hdestination
  refine find_of_entry hdestination hcan.entered hget fun hslash ↦ ?_
  rw [hasTrailingSlash_join directory hname] at hslash
  cases hslash

/-- Trees that have come of one tree by writing the same files are alike. -/
theorem get?_eq {files' : List (String × Bytes)} (h : Holds directory p files t₀ t)
    (h' : Holds directory p files' t₀ t') (hfiles : ∀ f, f ∈ files ↔ f ∈ files') (q : Place) :
    t.get? q = t'.get? q := by
  by_cases hq : ∃ f ∈ files, q = p ++ [f.1]
  · obtain ⟨f, hf, rfl⟩ := hq
    rw [(h.here f hf).2, (h'.here f ((hfiles f).mp hf)).2]
  · rw [h.elsewhere q fun f hf heq ↦ hq ⟨f, hf, heq⟩,
      h'.elsewhere q fun f hf heq ↦ hq ⟨f, (hfiles f).mpr hf, heq⟩]

end Holds

/-! ### A directory for files -/

/-- The tree `t` has come of `t₀` by creating a directory and writing files into it. -/
def Stocked (directory : Path) (files : List (String × Bytes)) (t₀ t : FileTree) : Prop :=
  ∃ t₁ p, t₀.createAll directory = (.ok (), t₁) ∧ t₁.Opens directory p ∧
    Holds directory p files t₁ t

/-- The tree `t` has come of `t₀` by writing files into a directory, which is created only if there
is a file for it. -/
def Deposited (directory : Path) (files : List (String × Bytes)) (t₀ t : FileTree) : Prop :=
  if files = [] then t = t₀ else Stocked directory files t₀ t

variable {t₀ : FileTree} {files : List (String × Bytes)}

theorem deposited_nil (directory : Path) (t : FileTree) : Deposited directory [] t t :=
  rfl

theorem Stocked.write (h : Stocked directory files t₀ t) (hname : IsName name.toList)
    (hsame : ∀ f ∈ files, f.1 = name → f.2 = content)
    (hwrite : t.write (directory.join ⟨name⟩) content = .ok t') :
    Deposited directory (files ++ [(name, content)]) t₀ t' := by
  obtain ⟨t₁, p, hcreate, hopens, hholds⟩ := h
  rw [Deposited, if_neg (List.append_ne_nil_of_right_ne_nil _ (List.cons_ne_nil _ _))]
  exact ⟨t₁, p, hcreate, hopens, hholds.write hopens hname hsame hwrite⟩

theorem Deposited.stocked (h : Deposited directory files t₀ t) (hne : files ≠ []) :
    Stocked directory files t₀ t := by
  rwa [Deposited, if_neg hne] at h

/-- To create the directory makes a difference only if there are no files in it. -/
theorem Deposited.createAll (h : Deposited directory files t₀ t)
    (hcreate : t.createAll directory = (.ok (), t')) : Stocked directory files t₀ t' := by
  by_cases hnil : files = []
  · rw [Deposited, if_pos hnil] at h
    subst h hnil
    obtain ⟨-, p, hopens⟩ := createAll_eq_ok hcreate
    exact ⟨t', p, hcreate, hopens, holds_nil directory p t'⟩
  · obtain ⟨t₁, p, hcreate₁, hopens, hholds⟩ := h.stocked hnil
    have hagain := createAll_of_opens (hholds.keepsDirectories.opens hopens)
    cases hcreate.symm.trans hagain
    exact ⟨t₁, p, hcreate₁, hopens, hholds⟩

/-- Trees that have come of one tree by writing the same files into a directory are alike. -/
theorem Deposited.get?_eq {files' : List (String × Bytes)} (h : Deposited directory files t₀ t)
    (h' : Deposited directory files' t₀ t') (hfiles : ∀ f, f ∈ files ↔ f ∈ files') (q : Place) :
    t.get? q = t'.get? q := by
  have hnil : files = [] ↔ files' = [] := by
    rw [List.eq_nil_iff_forall_not_mem, List.eq_nil_iff_forall_not_mem]
    exact forall_congr' fun f ↦ not_congr (hfiles f)
  by_cases hempty : files = []
  · rw [Deposited, if_pos hempty] at h
    rw [Deposited, if_pos (hnil.mp hempty)] at h'
    rw [h, h']
  · obtain ⟨t₁, p, hcreate, hopens, hholds⟩ := h.stocked hempty
    obtain ⟨t₂, p', hcreate', hopens', hholds'⟩ := h'.stocked (mt hnil.mpr hempty)
    cases hcreate.symm.trans hcreate'
    cases hopens.unique hopens'
    exact hholds.get?_eq hholds' hfiles q

/-- The directory, the files in it, and everything else: that is as it was, but for directories that
the directory is in and that were not there. -/
theorem Stocked.exists_place (hnormal : directory.normalize = directory)
    (hnames : ∀ f ∈ files, IsName f.1.toList) (h : Stocked directory files t₀ t) :
    ∃ place, (∃ e, t.find directory = .ok (place, e) ∧ e.isDirectory = true) ∧
      (∀ f ∈ files, t.find (directory.join ⟨f.1⟩)
        = .ok (place ++ [f.1], .overwritten f.2 (t₀.get? (place ++ [f.1])))) ∧
      ∀ q, (∀ f ∈ files, q ≠ place ++ [f.1]) → t.get? q = t₀.get? q ∨
        (t₀.get? q = none ∧ t.get? q = some .directory ∧ q <+: place) := by
  obtain ⟨t₁, place, hcreate, hopens, hholds⟩ := h
  have hadds := (createAll_eq_ok hcreate).1
  refine ⟨place, ?_, fun f hf ↦ ?_, fun q hq ↦ ?_⟩
  · have hne : directory.isEmpty ≠ true := fun hempty ↦
      text_normalize_ne_nil directory <| by
        rw [hnormal, String.isEmpty_iff.mp hempty]
        rfl
    exact find_of_walk (hopens.checked.resolve_left hne)
      (hholds.keepsDirectories.opens hopens).walked
  · rw [hholds.find_join hopens hf (hnames f hf)]
    -- a directory that has just been added would not let the file be written
    rcases hadds.added (place ++ [f.1]) with heq | ⟨-, hadded⟩
    · rw [heq]
    · exact absurd ((hholds.here f hf).1.file _ hadded) (by decide)
  · rw [hholds.elsewhere q hq]
    rcases hadds.added q with heq | ⟨hnone, hadded⟩
    · exact Or.inl heq
    · refine Or.inr ⟨hnone, hadded, prefix_of_createAll hnormal hcreate hopens ?_⟩
      rw [hnone, hadded]
      exact Option.some_ne_none _

/-- A directory that could be created in the beginning can still be created. -/
theorem Deposited.exists_createAll (h : Deposited directory files t₀ t) {t₁ : FileTree}
    (hcreate : t₀.createAll directory = (.ok (), t₁)) :
    ∃ t', t.createAll directory = (.ok (), t') := by
  by_cases hnil : files = []
  · rw [Deposited, if_pos hnil] at h
    exact ⟨t₁, h ▸ hcreate⟩
  · obtain ⟨t₂, p, -, hopens, hholds⟩ := h.stocked hnil
    exact ⟨t, createAll_of_opens (hholds.keepsDirectories.opens hopens)⟩

/-- A file that could be written into the directory in the beginning can still be written. -/
theorem Stocked.exists_write (h : Stocked directory files t₀ t) {t₁ t₂ : FileTree}
    (hname : IsName name.toList) (hcreate : t₀.createAll directory = (.ok (), t₁))
    (hwrite : t₁.write (directory.join ⟨name⟩) content = .ok t₂) :
    ∃ t', t.write (directory.join ⟨name⟩) content = .ok t' := by
  obtain ⟨t₁', p, hcreate', hopens, hholds⟩ := h
  cases hcreate.symm.trans hcreate'
  obtain ⟨hcan, -⟩ := (write_join_iff hopens hname).mp hwrite
  have hopens' := hholds.keepsDirectories.opens hopens
  exact ⟨_, (write_join_iff hopens' hname).mpr ⟨hholds.canWrite_iff.mpr hcan, rfl⟩⟩

end FileTree

end DocumentMath
