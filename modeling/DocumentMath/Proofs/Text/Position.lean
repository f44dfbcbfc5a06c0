import DocumentMath.Text.Utf8
import Mathlib.Data.String.Basic

/-!
# Positions in a text

A position in a text is the number of bytes in front of it, in the UTF-8 form of the text. Of two
beginnings of a text the longer one has more bytes (`utf8Length_lt_of_prefix`), so positions order
the places of a text, and the part of a text between two positions is what `slice` takes.
-/

namespace DocumentMath.Text

@[simp] theorem utf8Length_nil : utf8Length [] = 0 := rfl

@[simp] theorem utf8Length_cons (c : Char) (cs : List Char) :
    utf8Length (c :: cs) = c.utf8Size + utf8Length cs := rfl

theorem utf8Length_eq_utf8Len (cs : List Char) : utf8Length cs = String.utf8Len cs := by
  induction cs with
  | nil => rfl
  | cons c cs ih => rw [utf8Length_cons, String.utf8Len_cons, ih, Nat.add_comm]

@[simp] theorem utf8Length_append (cs ds : List Char) :
    utf8Length (cs ++ ds) = utf8Length cs + utf8Length ds := by
  simp only [utf8Length_eq_utf8Len, String.utf8Len_append]

theorem utf8ByteSize_ofList (cs : List Char) :
    (String.ofList cs).utf8ByteSize = utf8Length cs := by
  rw [String.utf8ByteSize_ofList, utf8Length_eq_utf8Len]

theorem utf8Length_pos {cs : List Char} (h : cs ≠ []) : 0 < utf8Length cs := by
  obtain ⟨c, cs, rfl⟩ := List.exists_cons_of_ne_nil h
  have := c.utf8Size_pos
  rw [utf8Length_cons]
  omega

/-- Of two beginnings of one text the longer one has more bytes. -/
theorem utf8Length_lt_of_prefix {as bs cs : List Char} (ha : as <+: cs) (hb : bs <+: cs)
    (h : as.length < bs.length) : utf8Length as < utf8Length bs := by
  obtain ⟨ds, rfl⟩ := List.prefix_of_prefix_length_le ha hb (Nat.le_of_lt h)
  have hne : ds ≠ [] := by
    rintro rfl
    simp at h
  have := utf8Length_pos hne
  rw [utf8Length_append]
  omega

/-- The part of a text between two positions. -/
def slice (text : String) (start stop : Nat) : String :=
  String.Pos.Raw.extract text ⟨start⟩ ⟨stop⟩

/-- The positions at the two ends of a part take that part. -/
theorem slice_eq {text : String} {as bs cs : List Char} (h : text.toList = as ++ bs ++ cs) :
    slice text (utf8Length as) (utf8Length (as ++ bs)) = String.ofList bs := by
  rw [slice, ← String.ofList_toList (s := text), h, utf8Length_append, utf8Length_eq_utf8Len,
    utf8Length_eq_utf8Len]
  exact String.extract_of_valid as bs cs

end DocumentMath.Text
