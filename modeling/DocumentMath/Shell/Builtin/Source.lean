/-!
# Texts as a script writes them

Commands that list what has been set write it so that a script can set it again.
-/

namespace DocumentMath.Shell

/-- A text in quotation marks: single ones, and double ones for single ones in the text. -/
def sourceOf (text : String) : String :=
  let isMark (c : Char) : Bool := c == '\''
  let runs := text.toList.splitBy fun a b ↦ isMark a == isMark b
  let quoted (run : List Char) : String :=
    let mark := if run.any isMark then "\"" else "'"
    mark ++ String.ofList run ++ mark
  (if text.toList.head?.all isMark then "''" else "") ++ String.join (runs.map quoted)

/-- A name and the text it has been given. -/
def definitionOf (name text : String) : String :=
  name ++ "=" ++ sourceOf text

end DocumentMath.Shell
