/-!
# Attributes

The attributes of a document map names to values. They are kept in increasing order of the names,
each name once, so that two maps with the same values under the same names are equal and a map is
written in one way only.
-/

namespace DocumentMath

/-- Whether the names of the entries increase strictly. -/
def NamesIncrease (entries : List (String × String)) : Prop :=
  entries.Pairwise fun a b ↦ a.1 < b.1

/-- A map from names to values, in increasing order of the names. -/
structure Attributes where
  entries : List (String × String)
  increasing : NamesIncrease entries

namespace Attributes

/-- No attributes. -/
def empty : Attributes := ⟨[], List.Pairwise.nil⟩

instance : Inhabited Attributes := ⟨empty⟩

@[ext] theorem ext {a b : Attributes} (h : a.entries = b.entries) : a = b := by
  cases a; cases b; cases h; rfl

/-- The value of a name. -/
def get? (a : Attributes) (name : String) : Option String :=
  (a.entries.find? (·.1 == name)).map (·.2)

/-- Whether a name has a value. -/
def contains (a : Attributes) (name : String) : Bool :=
  (a.get? name).isSome

/-- Entries with one more, in front of the first entry with a greater name and in the place of one
with the same name. -/
def insertEntry (name value : String) : List (String × String) → List (String × String)
  | [] => [(name, value)]
  | e :: es =>
    if name < e.1 then (name, value) :: e :: es
    else if name = e.1 then (name, value) :: es
    else e :: insertEntry name value es

theorem mem_insertEntry {name value : String} {e : String × String}
    {es : List (String × String)} (h : e ∈ insertEntry name value es) :
    e = (name, value) ∨ e ∈ es := by
  induction es with
  | nil => simpa [insertEntry] using h
  | cons f es ih =>
    simp only [insertEntry] at h
    split at h
    · simpa using h
    · split at h
      · rcases List.mem_cons.mp h with h | h
        · exact .inl h
        · exact .inr (List.mem_cons_of_mem _ h)
      · rcases List.mem_cons.mp h with rfl | h
        · exact .inr List.mem_cons_self
        · rcases ih h with h | h
          · exact .inl h
          · exact .inr (List.mem_cons_of_mem _ h)

theorem namesIncrease_insertEntry (name value : String) {es : List (String × String)}
    (h : NamesIncrease es) : NamesIncrease (insertEntry name value es) := by
  induction es with
  | nil => simp [insertEntry, NamesIncrease]
  | cons e es ih =>
    obtain ⟨he, hes⟩ := List.pairwise_cons.mp h
    simp only [insertEntry]
    split
    · next hlt =>
      refine List.pairwise_cons.mpr ⟨fun f hf ↦ ?_, h⟩
      rcases List.mem_cons.mp hf with rfl | hf
      · exact hlt
      · exact String.lt_trans hlt (he f hf)
    · next hlt =>
      split
      · next heq => exact List.pairwise_cons.mpr ⟨fun f hf ↦ heq ▸ he f hf, hes⟩
      · next hne =>
        refine List.pairwise_cons.mpr ⟨fun f hf ↦ ?_, ih hes⟩
        rcases mem_insertEntry hf with rfl | hf
        · exact Decidable.byContradiction fun h ↦
            hne (String.le_antisymm (String.not_lt.mp h) (String.not_lt.mp hlt))
        · exact he f hf

/-- The map with `value` under `name`, in the place of any value it had. -/
def insert (a : Attributes) (name value : String) : Attributes :=
  ⟨insertEntry name value a.entries, namesIncrease_insertEntry name value a.increasing⟩

/-- The map with all values of `b`, in the place of the values the names of `b` had. -/
def extend (a b : Attributes) : Attributes :=
  b.entries.foldl (fun m e ↦ m.insert e.1 e.2) a

/-- The map that a list of names and values makes; of two values of a name the later counts. -/
def ofList (entries : List (String × String)) : Attributes :=
  entries.foldl (fun m e ↦ m.insert e.1 e.2) empty

end Attributes

end DocumentMath
