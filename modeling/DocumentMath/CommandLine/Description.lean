/-!
# Descriptions of commands

A command takes options, and perhaps an operand. Its description says which texts are values of
them; it decides how arguments are understood, and it is what help is made of.
-/

namespace DocumentMath

/-- What may stand as a value. -/
structure ValueDescription where
  /-- What a value is called. -/
  label : String
  /-- Whether a text is a value. -/
  accepts : String → Bool
  /-- The only values there are, with what they mean, where they can be listed. -/
  choices : List (String × String)
  /-- Whether a value that is an argument of its own may start with a hyphen. -/
  allowsHyphen : Bool

namespace ValueDescription

/-- Any text as a value. -/
def any (label : String) : ValueDescription :=
  ⟨label, fun _ ↦ true, [], false⟩

/-- Texts that are not empty. -/
def nonempty (label : String) : ValueDescription :=
  ⟨label, (!·.isEmpty), [], false⟩

/-- One of several names. -/
def oneOf (label : String) (choices : List (String × String)) : ValueDescription :=
  ⟨label, (choices.map (·.1)).contains, choices, false⟩

end ValueDescription

/-- An option of a command. -/
structure OptionDescription where
  name : String
  letter? : Option Char
  about : String
  /-- The value it takes, if it takes one. -/
  value? : Option ValueDescription
  /-- Whether it may be given more than once. -/
  repeatable : Bool
  /-- Where a value comes from that is not given. -/
  fallback? : Option String

namespace OptionDescription

/-- An option that takes no value. -/
def flag (name about : String) : OptionDescription :=
  ⟨name, none, about, none, false, none⟩

/-- An option that takes a value. -/
def valued (name about : String) (value : ValueDescription) : OptionDescription :=
  ⟨name, none, about, some value, false, none⟩

end OptionDescription

/-- What a command takes that is no option. -/
structure OperandDescription where
  /-- How it is shown. -/
  shown : String
  about : String
  value : ValueDescription

/-- A command. -/
structure CommandDescription where
  name : String
  about : String
  operand? : Option OperandDescription
  options : List OptionDescription

namespace CommandDescription

/-- The option with a name. -/
def option? (c : CommandDescription) (name : String) : Option OptionDescription :=
  c.options.find? (·.name == name)

/-- The option with a letter. -/
def lettered? (c : CommandDescription) (letter : Char) : Option OptionDescription :=
  c.options.find? (·.letter? == some letter)

/-- Whether some option has values that can be listed. -/
def hasChoices (c : CommandDescription) : Bool :=
  c.options.any fun o ↦ o.value?.any (!·.choices.isEmpty)

end CommandDescription

end DocumentMath
