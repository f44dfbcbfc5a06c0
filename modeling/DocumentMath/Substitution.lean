import DocumentMath.Attributes
import DocumentMath.Text.Blank
import DocumentMath.Text.Search

/-!
# Substitutions

A substitution is one step in which a converter changes the text of a block or of an equation. There
are six, in a canonical order, and a text names some of them in a list. `SubstitutionSet.apply`
carries out three of them: special characters are escaped, attribute references are replaced by the
values of the attributes, and some groups of characters are replaced by typographic signs. The
other three are left to the converter and change nothing here.
-/

namespace DocumentMath

/-- One step of changing a text. -/
inductive Substitution where
  | specialCharacters
  | quotes
  | attributes
  | replacements
  | macros
  | postReplacements
  deriving DecidableEq, Repr

namespace Substitution

/-- All substitutions, in canonical order. -/
def all : List Substitution :=
  [specialCharacters, quotes, attributes, replacements, macros, postReplacements]

/-- The name under which a list mentions the substitution. -/
def name : Substitution → String
  | specialCharacters => "specialcharacters"
  | quotes => "quotes"
  | attributes => "attributes"
  | replacements => "replacements"
  | macros => "macros"
  | postReplacements => "post_replacements"

/-- The name of the substitution in a serialized document. -/
def tag : Substitution → String
  | specialCharacters => "special_characters"
  | quotes => "quotes"
  | attributes => "attributes"
  | replacements => "replacements"
  | macros => "macros"
  | postReplacements => "post_replacements"

/-- The substitution with a long or a short name. -/
def ofName? : String → Option Substitution
  | "specialcharacters" | "specialchars" | "c" => some specialCharacters
  | "quotes" | "q" => some quotes
  | "attributes" | "a" => some attributes
  | "replacements" | "r" => some replacements
  | "macros" | "m" => some macros
  | "post_replacements" | "p" => some postReplacements
  | _ => none

/-- The substitution with this name in a serialized document. -/
def ofTag? (tag : String) : Option Substitution :=
  all.find? (·.tag == tag)

/-! ### Special characters -/

/-- What a character of markup is written as. -/
def escapeChar : Char → List Char
  | '&' => "&amp;".toList
  | '<' => "&lt;".toList
  | '>' => "&gt;".toList
  | c => [c]

/-- The text with the special characters of markup escaped. -/
def escape (text : List Char) : List Char :=
  text.flatMap escapeChar

/-! ### Attribute references -/

/-- Whether a character may stand in an attribute reference. -/
def isNameChar (c : Char) : Bool :=
  ('a' ≤ c && c ≤ 'z') || ('A' ≤ c && c ≤ 'Z') || ('0' ≤ c && c ≤ '9') || c == '_' || c == '-'

/-- The name and the value of the reference whose opening brace stands in front of the text. A
reference is a name in braces, and the name has to have a value. -/
def reference? (attributes : Attributes) (cs : List Char) : Option (List Char × String) :=
  match cs.takeWhile isNameChar, cs.dropWhile isNameChar with
  | c :: name, '\x7d' :: _ =>
    (attributes.get? (String.ofList (c :: name))).map (c :: name, ·)
  | _, _ => none

/-- Replaces attribute references, once `skip` more characters have been passed over. -/
def expandFrom (attributes : Attributes) : (skip : Nat) → List Char → List Char
  | _, [] => []
  | skip + 1, _ :: cs => expandFrom attributes skip cs
  | 0, c :: cs =>
    if c = '\x7b' then
      match reference? attributes cs with
      | some (name, value) => value.toList ++ expandFrom attributes (name.length + 1) cs
      | none => c :: expandFrom attributes 0 cs
    else c :: expandFrom attributes 0 cs

/-- The text with each attribute reference replaced by the value of its attribute. Values are not
looked through for further references. -/
def expand (attributes : Attributes) (text : List Char) : List Char :=
  expandFrom attributes 0 text

/-! ### Typographic replacements -/

/-- What is replaced, in this order, and by what. Arrows are recognized before and after their
special character has been escaped. -/
def replacementTable : List (String × String) :=
  [("(C)", "&#169;"), ("(R)", "&#174;"), ("(TM)", "&#8482;"), ("...", "&#8230;&#8203;"),
   ("-&gt;", "&#8594;"), ("=&gt;", "&#8658;"), ("&lt;-", "&#8592;"), ("&lt;=", "&#8656;"),
   ("->", "&#8594;"), ("=>", "&#8658;"), ("<-", "&#8592;"), ("<=", "&#8656;")]

/-- The text with all typographic replacements made, one kind after the other. -/
def typeset (text : List Char) : List Char :=
  replacementTable.foldl (fun t r ↦ Text.replaceAll r.1.toList r.2.toList t) text

/-- Carries out one substitution. Without attributes there is nothing to refer to. -/
def apply (attributes? : Option Attributes) (text : List Char) : Substitution → List Char
  | specialCharacters => escape text
  | attributes =>
    match attributes? with
    | some values => expand values text
    | none => text
  | replacements => typeset text
  | quotes | macros | postReplacements => text

end Substitution

/-- Substitutions in the order in which they are carried out. -/
structure SubstitutionSet where
  members : List Substitution
  deriving DecidableEq, Repr

namespace SubstitutionSet

/-- The set of the given substitutions, each once and in canonical order. -/
def ofList (subs : List Substitution) : SubstitutionSet :=
  ⟨Substitution.all.filter (· ∈ subs)⟩

/-- No substitutions. -/
def none : SubstitutionSet := ⟨[]⟩

/-- All substitutions, as for a paragraph. -/
def normal : SubstitutionSet := ⟨Substitution.all⟩

/-- Special characters only, as for a literal block. -/
def verbatim : SubstitutionSet := ⟨[.specialCharacters]⟩

/-- Whether a substitution belongs to the set. -/
def contains (s : SubstitutionSet) (sub : Substitution) : Bool :=
  s.members.contains sub

/-- Whether the set has no members. -/
def isEmpty (s : SubstitutionSet) : Bool :=
  s.members.isEmpty

/-! ### Lists of names -/

/-- What one name of a list stands for: the members of a group, a single substitution, or nothing
for a name that is not known. -/
def membersOf? : String → Option (List Substitution)
  | "none" => some []
  | "normal" | "n" => some Substitution.all
  | "verbatim" | "v" => some [.specialCharacters]
  | name => (Substitution.ofName? name).map ([·])

/-- The names in a list, which stand between commas; blank ones do not count. -/
def namesIn (list : String) : List String :=
  ((Text.partsBetween ',' list.toList).map fun n ↦ String.ofList (Text.trim n)).filter
    (!·.isEmpty)

/-- The set a list of names describes; unknown names count for nothing. -/
def resolve (list : String) : SubstitutionSet :=
  ofList ((namesIn list).flatMap fun n ↦ (membersOf? n).getD [])

/-- The warnings about a list of names: one for each unknown name. -/
def warnings (list : String) : List String :=
  ((namesIn list).filter fun n ↦ (membersOf? n).isNone).map fun n ↦
    "Ignoring unknown substitution '" ++ n ++ "'"

/-! ### Applying a set -/

/-- The text after all substitutions of the set, one after the other. -/
def apply (s : SubstitutionSet) (attributes? : Option Attributes) (text : String) : String :=
  String.ofList (s.members.foldl (Substitution.apply attributes?) text.toList)

end SubstitutionSet

end DocumentMath
