import DocumentMath.Proofs.Path.Components
import DocumentMath.Proofs.Render.Calls

/-!
# Names of files

A file is named by the identifier of its equation and by the format. A computed identifier is made
of hexadecimal digits behind a fixed lead, so that it has neither a colon nor a slash in it; one
that is given for an equation may have both. A name without a slash is a single component of a path
(`RenderSettings.components_fileName`).
-/

namespace DocumentMath

/-! ### Computed names -/

theorem Md5.exists_hexDigit_of_mem {input : String} {c : Char}
    (h : c ∈ (hexDigest input).toList) : ∃ n < 16, hexDigit n = c := by
  rw [hexDigest, String.toList_ofList, hex] at h
  obtain ⟨b, -, hb⟩ := List.mem_flatMap.mp h
  have hbyte := b.toNat_lt
  rcases List.mem_cons.mp hb with rfl | hb
  · exact ⟨b.toNat / 16, by omega, rfl⟩
  · exact ⟨b.toNat % 16, by omega, (List.mem_singleton.mp hb).symm⟩

/-- No character that is neither a hexadecimal digit nor in the lead is in a computed name. -/
theorem not_mem_contentIdentifier {c : Char} (hdigit : ∀ n < 16, Md5.hexDigit n ≠ c)
    (hlead : c ∉ identifierLead.toList) (input : String) :
    c ∉ (contentIdentifier input).toList := by
  rw [contentIdentifier, String.toList_append, List.mem_append, not_or]
  refine ⟨hlead, fun hmem ↦ ?_⟩
  obtain ⟨n, hn, hc⟩ := Md5.exists_hexDigit_of_mem hmem
  exact hdigit n hn hc

theorem RenderSettings.not_mem_fileName {c : Char} {identifier : String} (s : RenderSettings)
    (h : c ∉ identifier.toList) (hdot : c ≠ '.') (hextension : c ∉ s.format.fileExtension.toList) :
    c ∉ (s.fileName identifier).toList := by
  rw [fileName, String.toList_append, String.toList_append, List.mem_append, List.mem_append,
    not_or, not_or]
  exact ⟨⟨h, fun hmem ↦ hdot (List.mem_singleton.mp hmem)⟩, hextension⟩

/-- The file of an inline equation has no colon in its name. -/
theorem colon_not_mem_fileName (s : RenderSettings) (input : String) :
    ':' ∉ (s.fileName (identifierOf none input)).toList :=
  s.not_mem_fileName (not_mem_contentIdentifier (by decide) (by decide) input) (by decide)
    (by cases s.format <;> decide)

/-! ### Names without slashes -/

/-- An identifier has no slash in it, unless it has been given with one. -/
theorem NamedInput.slash_not_mem_identifier {e : NamedInput}
    (h : ∀ id ∈ e.explicit?, '/' ∉ id.toList) : '/' ∉ e.identifier.toList := by
  rw [identifier, identifierOf]
  cases hfilter : e.explicit?.filter (!·.isEmpty) with
  | none => exact not_mem_contentIdentifier (by decide) (by decide) e.input
  | some id => exact h id (Option.eq_some_of_filter_eq_some hfilter)

/-- A name without a slash is a single component. -/
theorem RenderSettings.components_fileName {identifier : String} (s : RenderSettings)
    (h : '/' ∉ identifier.toList) :
    (Path.mk (s.fileName identifier)).components = [.name (s.fileName identifier).toList] := by
  have hslash : '/' ∉ (s.fileName identifier).toList :=
    s.not_mem_fileName h (by decide) (by cases s.format <;> decide)
  have hlength : 2 < (s.fileName identifier).toList.length := by
    rw [fileName, String.toList_append, List.length_append]
    cases s.format <;> exact Nat.lt_add_left _ (by decide)
  exact Path.componentsOf_of_slash_not_mem hslash hlength

end DocumentMath
