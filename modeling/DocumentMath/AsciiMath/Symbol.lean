/-!
# The symbols of AsciiMath

A symbol is a piece of AsciiMath that stands for something other than its own characters. The table
gives for each symbol the part it plays in an expression and the LaTeX it stands for. At a place in
a text the longest symbol found there counts (`lookup?`); no two symbols are written alike, so there
is only one.
-/

namespace DocumentMath.AsciiMath

/-- A command with one argument. -/
inductive UnaryCommand where
  /-- A control word in front of the argument. -/
  | command (latex : List Char)
  /-- Delimiters on both sides of the argument. -/
  | delimited (opening closing : List Char)
  deriving DecidableEq, Repr

/-- A command with two arguments. -/
inductive BinaryCommand where
  /-- A control word in front of both arguments. -/
  | command (latex : List Char)
  /-- A root with its index. -/
  | root
  /-- A color and what is set in it. -/
  | color
  deriving DecidableEq, Repr

/-- The part a symbol plays in an expression. -/
inductive Role where
  | constant (latex : List Char)
  | leftBracket (latex : List Char)
  | rightBracket (latex : List Char)
  | unary (command : UnaryCommand)
  | textual (latex : List Char)
  | binary (command : BinaryCommand)
  | sub
  | sup
  | divide
  deriving DecidableEq, Repr

/-- A symbol: how it is written and the part it plays. -/
structure Symbol where
  input : List Char
  role : Role
  deriving DecidableEq, Repr

/-! ### The table -/

/-- Greek letters. -/
def greek : List (String × String) :=
  [("alpha", "\\alpha"), ("beta", "\\beta"), ("gamma", "\\gamma"), ("Gamma", "\\Gamma"),
   ("delta", "\\delta"), ("Delta", "\\Delta"), ("epsilon", "\\epsilon"),
   ("varepsilon", "\\varepsilon"), ("zeta", "\\zeta"), ("eta", "\\eta"), ("theta", "\\theta"),
   ("Theta", "\\Theta"), ("vartheta", "\\vartheta"), ("iota", "\\iota"), ("kappa", "\\kappa"),
   ("lambda", "\\lambda"), ("Lambda", "\\Lambda"), ("mu", "\\mu"), ("nu", "\\nu"), ("xi", "\\xi"),
   ("Xi", "\\Xi"), ("pi", "\\pi"), ("Pi", "\\Pi"), ("rho", "\\rho"), ("sigma", "\\sigma"),
   ("Sigma", "\\Sigma"), ("tau", "\\tau"), ("upsilon", "\\upsilon"), ("phi", "\\phi"),
   ("Phi", "\\Phi"), ("varphi", "\\varphi"), ("chi", "\\chi"), ("psi", "\\psi"), ("Psi", "\\Psi"),
   ("omega", "\\omega"), ("Omega", "\\Omega")]

/-- Operators, large ones among them. -/
def operators : List (String × String) :=
  [("+", "+"), ("-", "-"), ("*", "\\cdot"), ("**", "\\ast"), ("***", "\\star"), ("//", "/"),
   ("\\\\", "\\backslash"), ("\\", "\\backslash"), ("\\ ", "\\ "), ("setminus", "\\setminus"),
   ("xx", "\\times"), ("|><", "\\ltimes"), ("><|", "\\rtimes"), ("|><|", "\\bowtie"),
   ("-:", "\\div"), ("divide", "\\div"), ("@", "\\circ"), ("o+", "\\oplus"), ("ox", "\\otimes"),
   ("o.", "\\odot"), ("sum", "\\sum"), ("prod", "\\prod"), ("^^", "\\wedge"),
   ("^^^", "\\bigwedge"), ("vv", "\\vee"), ("vvv", "\\bigvee"), ("nn", "\\cap"),
   ("nnn", "\\bigcap"), ("uu", "\\cup"), ("uuu", "\\bigcup")]

/-- Relations. -/
def relations : List (String × String) :=
  [("=", "="), ("!=", "\\ne"), (":=", ":="), ("<", "<"), ("lt", "<"), (">", ">"), ("gt", ">"),
   ("<=", "\\le"), ("le", "\\le"), (">=", "\\ge"), ("ge", "\\ge"), ("mlt", "\\ll"),
   ("mgt", "\\gg"), ("-<", "\\prec"), ("-<=", "\\preceq"), (">-", "\\succ"), (">-=", "\\succeq"),
   ("in", "\\in"), ("!in", "\\notin"), ("sub", "\\subset"), ("sup", "\\supset"),
   ("sube", "\\subseteq"), ("supe", "\\supseteq"), ("-=", "\\equiv"), ("~=", "\\cong"),
   ("~~", "\\approx"), ("~", "\\sim"), ("prop", "\\propto")]

/-- Connectives, quantifiers and signs of logic. -/
def connectives : List (String × String) :=
  [("and", "\\text\x7b and \x7d"), ("or", "\\text\x7b or \x7d"), ("not", "\\neg"),
   ("=>", "\\Rightarrow"), ("if", "\\text\x7b if \x7d"), ("<=>", "\\Leftrightarrow"),
   ("AA", "\\forall"), ("EE", "\\exists"), ("_|_", "\\bot"), ("TT", "\\top"), ("|--", "\\vdash"),
   ("|==", "\\models")]

/-- Signs of other kinds, and the characters that LaTeX reserves. -/
def signs : List (String × String) :=
  [("int", "\\int"), ("oint", "\\oint"), ("del", "\\partial"), ("grad", "\\nabla"),
   ("+-", "\\pm"), ("-+", "\\mp"), ("O/", "\\emptyset"), ("oo", "\\infty"), ("aleph", "\\aleph"),
   ("...", "\\ldots"), (":.", "\\therefore"), (":'", "\\because"), ("/_", "\\angle"),
   ("/_\\", "\\triangle"), ("'", "'"), ("quad", "\\quad"), ("qquad", "\\qquad"),
   ("cdots", "\\cdots"), ("vdots", "\\vdots"), ("ddots", "\\ddots"), ("diamond", "\\diamond"),
   ("square", "\\square"), ("|__", "\\lfloor"), ("__|", "\\rfloor"), ("|~", "\\lceil"),
   ("~|", "\\rceil"), ("CC", "\\mathbb\x7bC\x7d"), ("NN", "\\mathbb\x7bN\x7d"),
   ("QQ", "\\mathbb\x7bQ\x7d"), ("RR", "\\mathbb\x7bR\x7d"), ("ZZ", "\\mathbb\x7bZ\x7d"),
   ("%", "\\%"), ("#", "\\#"), ("&", "\\&"), ("$", "\\$")]

/-- Names of functions. -/
def functions : List (String × String) :=
  [("sin", "\\sin"), ("cos", "\\cos"), ("tan", "\\tan"), ("sec", "\\sec"), ("csc", "\\csc"),
   ("cot", "\\cot"), ("arcsin", "\\arcsin"), ("arccos", "\\arccos"), ("arctan", "\\arctan"),
   ("sinh", "\\sinh"), ("cosh", "\\cosh"), ("tanh", "\\tanh"),
   ("sech", "\\operatorname\x7bsech\x7d"), ("csch", "\\operatorname\x7bcsch\x7d"),
   ("coth", "\\coth"), ("exp", "\\exp"), ("log", "\\log"), ("ln", "\\ln"), ("det", "\\det"),
   ("dim", "\\dim"), ("mod", "\\operatorname\x7bmod\x7d"), ("gcd", "\\gcd"),
   ("lcm", "\\operatorname\x7blcm\x7d"), ("lub", "\\operatorname\x7blub\x7d"),
   ("glb", "\\operatorname\x7bglb\x7d"), ("min", "\\min"), ("max", "\\max"), ("lim", "\\lim"),
   ("Lim", "\\operatorname\x7bLim\x7d")]

/-- Arrows. -/
def arrows : List (String × String) :=
  [("uarr", "\\uparrow"), ("darr", "\\downarrow"), ("rarr", "\\rightarrow"), ("->", "\\to"),
   (">->", "\\rightarrowtail"), ("->>", "\\twoheadrightarrow"),
   (">->>", "\\twoheadrightarrowtail"), ("|->", "\\mapsto"), ("larr", "\\leftarrow"),
   ("harr", "\\leftrightarrow"), ("rArr", "\\Rightarrow"), ("lArr", "\\Leftarrow"),
   ("hArr", "\\Leftrightarrow")]

/-- Opening brackets; the last is invisible. -/
def leftBrackets : List (String × String) :=
  [("(", "("), ("[", "["), ("\x7b", "\\\x7b"), ("(:", "\\langle"), ("<<", "\\langle"),
   ("\x7b:", "")]

/-- Closing brackets; the last is invisible. -/
def rightBrackets : List (String × String) :=
  [(")", ")"), ("]", "]"), ("\x7d", "\\\x7d"), (":)", "\\rangle"), (">>", "\\rangle"),
   (":\x7d", "")]

/-- Commands that LaTeX writes as a control word in front of the argument. -/
def unaryCommands : List (String × String) :=
  [("sqrt", "\\sqrt"), ("hat", "\\hat"), ("bar", "\\overline"), ("overline", "\\overline"),
   ("ul", "\\underline"), ("underline", "\\underline"), ("vec", "\\vec"), ("dot", "\\dot"),
   ("ddot", "\\ddot"), ("tilde", "\\tilde"), ("ubrace", "\\underbrace"),
   ("obrace", "\\overbrace"), ("cancel", "\\cancel"), ("bb", "\\mathbf"), ("bbb", "\\mathbb"),
   ("cc", "\\mathcal"), ("tt", "\\mathtt"), ("fr", "\\mathfrak"), ("sf", "\\mathsf")]

/-- Commands that LaTeX writes as a pair of delimiters around the argument. -/
def delimiterCommands : List (String × String × String) :=
  [("abs", "|", "|"), ("norm", "\\|", "\\|"), ("floor", "\\lfloor", "\\rfloor"),
   ("ceil", "\\lceil", "\\rceil")]

/-- Commands whose argument is text. -/
def textCommands : List (String × String) :=
  [("text", "\\text"), ("mbox", "\\text")]

/-- Commands with two arguments in braces. -/
def binaryCommands : List (String × String) :=
  [("frac", "\\frac"), ("stackrel", "\\stackrel"), ("overset", "\\overset"),
   ("underset", "\\underset")]

/-- All symbols. -/
def symbols : List Symbol :=
  (greek ++ operators ++ relations ++ connectives ++ signs ++ functions ++ arrows).map
      (fun s ↦ ⟨s.1.toList, .constant s.2.toList⟩)
    ++ leftBrackets.map (fun s ↦ ⟨s.1.toList, .leftBracket s.2.toList⟩)
    ++ rightBrackets.map (fun s ↦ ⟨s.1.toList, .rightBracket s.2.toList⟩)
    ++ unaryCommands.map (fun s ↦ ⟨s.1.toList, .unary (.command s.2.toList)⟩)
    ++ delimiterCommands.map
      (fun s ↦ ⟨s.1.toList, .unary (.delimited s.2.1.toList s.2.2.toList)⟩)
    ++ textCommands.map (fun s ↦ ⟨s.1.toList, .textual s.2.toList⟩)
    ++ binaryCommands.map (fun s ↦ ⟨s.1.toList, .binary (.command s.2.toList)⟩)
    ++ [⟨"root".toList, .binary .root⟩, ⟨"color".toList, .binary .color⟩,
      ⟨['_'], .sub⟩, ⟨['^'], .sup⟩, ⟨['/'], .divide⟩]

/-! ### Looking a symbol up -/

/-- The longer of two symbols; the second if they are equally long. -/
def longer (best? : Option Symbol) (s : Symbol) : Option Symbol :=
  match best? with
  | some best => if best.input.length ≤ s.input.length then some s else some best
  | none => some s

/-- The longest symbol the text starts with. -/
def lookup? (text : List Char) : Option Symbol :=
  (symbols.filter fun s ↦ s.input.isPrefixOf text).foldl longer none

end DocumentMath.AsciiMath
