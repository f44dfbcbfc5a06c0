import DocumentMath.Pass.Options

/-!
# Reconciled options

Whatever the attributes of a document and the overrides say, the options that come of them do not
contradict one another (`Overrides.isReconciled_optionsFor`): the resolution can be used, raster
images are not embedded, and markup is. The three are set right one after the other, and what is
done later undoes nothing of what was done before.
-/

namespace DocumentMath

/-- No format is both a raster image and markup. -/
theorem Format.isMarkup_of_isRaster {f : Format} (h : f.isRaster = true) :
    f.isMarkup = false := by
  cases f <;> first | rfl | cases h

namespace Options

/-- The options do not contradict one another. -/
structure IsReconciled (o : Options) : Prop where
  usable : isUsable o.resolution = true
  raster : o.format.isRaster = true → o.embed = false
  markup : o.format.isMarkup = true → o.embed = true

theorem isUsable_iff {resolution : Float} :
    isUsable resolution = true ↔ resolution.isFinite = true ∧ 0.0 < resolution := by
  rw [isUsable, Bool.and_eq_true, decide_eq_true_iff]

theorem isUsable_defaultResolution : isUsable defaultResolution = true := by decide

theorem isUsable_vectorResolution : isUsable vectorResolution = true := by decide

section Steps

variable (o : Options)

theorem resolveResolution_spec :
    isUsable o.resolveResolution.resolution = true ∧ o.resolveResolution.format = o.format := by
  rw [resolveResolution]
  split
  · next husable => exact ⟨husable, rfl⟩
  · exact ⟨isUsable_defaultResolution, rfl⟩

theorem resolveRaster_spec :
    o.resolveRaster.resolution = o.resolution ∧ o.resolveRaster.format = o.format ∧
      (o.format.isRaster = true → o.resolveRaster.embed = false) := by
  rw [resolveRaster]
  split
  · exact ⟨rfl, rfl, fun _ ↦ rfl⟩
  · next hfine =>
    refine ⟨rfl, rfl, fun hraster ↦ ?_⟩
    rwa [hraster, Bool.and_true, Bool.not_eq_true] at hfine

theorem resolveMarkup_spec :
    o.resolveMarkup.resolution = o.resolution ∧ o.resolveMarkup.format = o.format ∧
      (o.format.isMarkup = true → o.resolveMarkup.embed = true) ∧
      (o.format.isMarkup = false → o.resolveMarkup.embed = o.embed) := by
  rw [resolveMarkup]
  split
  · next hmarkup =>
    rw [Bool.and_eq_true] at hmarkup
    exact ⟨rfl, rfl, fun _ ↦ rfl, fun hno ↦ absurd (hmarkup.2.symm.trans hno) (by decide)⟩
  · next hfine =>
    refine ⟨rfl, rfl, fun hmarkup ↦ ?_, fun _ ↦ rfl⟩
    rwa [hmarkup, Bool.and_true, Bool.not_eq_true, Bool.not_eq_false'] at hfine

end Steps

theorem isReconciled_resolve (o : Options) : o.resolve.IsReconciled := by
  obtain ⟨husable, -⟩ := o.resolveResolution_spec
  obtain ⟨hresolution, hformat, hraster⟩ := o.resolveResolution.resolveRaster_spec
  obtain ⟨hresolution', hformat', hmarkup, hother⟩ :=
    o.resolveResolution.resolveRaster.resolveMarkup_spec
  constructor
  · rw [resolve, hresolution', hresolution]
    exact husable
  · rw [resolve, hformat']
    intro h
    rw [hother (Format.isMarkup_of_isRaster h)]
    exact hraster (hformat ▸ h)
  · rw [resolve, hformat']
    exact hmarkup

theorem effectiveResolution_of_not_isRaster {o : Options} (h : o.format.isRaster = false) :
    o.effectiveResolution = vectorResolution :=
  if_neg (Bool.eq_false_iff.mp h)

/-- The resolution an engine is given can be used, if the options are reconciled. -/
theorem IsReconciled.isUsable_effectiveResolution {o : Options} (h : o.IsReconciled) :
    isUsable o.effectiveResolution = true := by
  rw [effectiveResolution]
  split
  · exact h.usable
  · exact isUsable_vectorResolution

end Options

/-- **Options never contradict one another**, whatever a document sets and whatever is set in its
place. -/
theorem Overrides.isReconciled_optionsFor (v : Overrides) (d : Document) :
    (v.optionsFor d).IsReconciled :=
  (v.apply (.ofAttributes d)).isReconciled_resolve

/-- A document sets a resolution that cannot be used, and raster images are to be embedded. -/
example :
    let o := Overrides.optionsFor { Overrides.none with format := some .png, embed := some true }
      ⟨.ofList [("mathematical-ppi", "inf"), ("mathematical-format", "mathml")], []⟩
    o.resolution = 300.0 ∧ o.embed = false ∧ o.warnings.length = 2 := by
  decide +kernel

end DocumentMath
