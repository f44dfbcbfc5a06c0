import DocumentMath.Proofs.Inline.Escaping
import DocumentMath.Proofs.Pass.Form

/-!
# Where embedded markup ends

Embedded markup is put in brackets, with a wrapper around it that has none. As in an inline
equation, a closing bracket ends what is in brackets unless a backslash stands in front of it. So
embedded markup ends where its wrapper ends exactly if all of its own closing brackets stand behind
backslashes (`Artifact.closesAtEnd_embedded_iff`), and only then it is read whole
(`Artifact.payloadAt?_wrapped_iff`).

Markup is embedded as it comes from the engine. What the engine gets has no backslashes in front of
brackets any more, since they have been taken off the payload, and so an equation with brackets in
it is cut off if the engine shows them. `Pass.embedded_ends_iff` says for all that a pass embeds
when it is not.
-/

namespace DocumentMath

open Inline

/-! ### Texts in brackets -/

/-- The closing bracket at the end of a text is the only one without a backslash directly in front
of it. -/
def Inline.ClosesAtEnd (cs : List Char) : Prop :=
  ∀ pre post, cs = pre ++ ']' :: post → (pre.getLast? ≠ some '\\' ↔ post = [])

theorem Inline.closesAtEnd_concat_iff {cs : List Char} (hlast : cs.getLast? ≠ some '\\') :
    ClosesAtEnd (cs ++ [']']) ↔ EscapesBrackets cs := by
  constructor
  · rintro h pre post rfl
    by_contra hnot
    have hpost := (h pre (post ++ [']']) (by simp)).mp hnot
    exact List.append_ne_nil_of_right_ne_nil _ (List.cons_ne_nil _ _) hpost
  · intro h pre post heq
    rcases List.eq_nil_or_concat post with rfl | ⟨post, c, rfl⟩
    · obtain ⟨rfl, -⟩ := List.append_inj' heq rfl
      exact iff_of_true hlast rfl
    · -- the bracket is one of those in front of the last one
      rw [List.concat_eq_append, ← List.cons_append, ← List.append_assoc] at heq
      have hescaped := h pre post (List.append_inj' heq rfl).1
      exact iff_of_false (fun hnot ↦ hnot hescaped) (by simp)

/-! ### Artifacts -/

namespace Artifact

/-- The markup in its wrapper. -/
def wrapped (a : Artifact) : String :=
  "<span class=\"steminline\">" ++ a.markup ++ "</span>"

variable (a : Artifact)

theorem embedded_eq : a.embedded = "pass:[" ++ a.wrapped ++ "]" := by
  have hlead : "pass:[<span class=\"steminline\">" = "pass:[" ++ "<span class=\"steminline\">" := by
    simp
  have htail : "</span>]" = "</span>" ++ "]" := by simp
  show "pass:[<span class=\"steminline\">" ++ a.markup ++ "</span>]"
    = "pass:[" ++ ("<span class=\"steminline\">" ++ a.markup ++ "</span>") ++ "]"
  rw [hlead, htail]
  simp only [String.append_assoc]

theorem toList_wrapped : a.wrapped.toList
    = "<span class=\"steminline\">".toList ++ (a.markup.toList ++ "</span>".toList) := by
  show ("<span class=\"steminline\">" ++ a.markup ++ "</span>").toList = _
  rw [String.toList_append, String.toList_append, List.append_assoc]

/-- The wrapper has no brackets. -/
theorem escapesBrackets_wrapped_iff :
    EscapesBrackets a.wrapped.toList ↔ EscapesBrackets a.markup.toList := by
  have hbracket : ']' ∉ "<span class=\"steminline\">".toList := by simp
  have hbackslash : '\\' ∉ "<span class=\"steminline\">".toList := by simp
  have htail : ']' ∉ "</span>".toList := by simp
  rw [toList_wrapped, escapesBrackets_append_left_iff hbracket hbackslash,
    escapesBrackets_append_right_iff htail]

theorem getLast?_wrapped : a.wrapped.toList.getLast? = some '>' := by
  have htail : "</span>".toList.getLast? = some '>' := by simp
  rw [toList_wrapped, List.getLast?_append, List.getLast?_append, htail]
  rfl

theorem head?_wrapped : a.wrapped.toList.head? = some '<' := by
  have hlead : "<span class=\"steminline\">".toList.head? = some '<' := by simp
  rw [toList_wrapped, List.head?_append, hlead]
  rfl

/-- The brackets of embedded markup are those of the markup, and the one at the end. -/
theorem closesAtEnd_embedded_iff :
    ClosesAtEnd a.embedded.toList ↔ EscapesBrackets a.markup.toList := by
  have hembedded : a.embedded.toList = "pass:[".toList ++ a.wrapped.toList ++ [']'] := by
    rw [embedded_eq, String.toList_append, String.toList_append]
    rfl
  have hlast : ("pass:[".toList ++ a.wrapped.toList).getLast? ≠ some '\\' := by
    rw [List.getLast?_append, getLast?_wrapped, Option.some_or]
    decide
  have hbracket : ']' ∉ "pass:[".toList := by simp
  have hbackslash : '\\' ∉ "pass:[".toList := by simp
  rw [hembedded, closesAtEnd_concat_iff hlast, escapesBrackets_append_left_iff hbracket hbackslash,
    escapesBrackets_wrapped_iff]

theorem payloadAt?_wrapped_iff (rest : List Char) :
    payloadAt? (a.wrapped.toList ++ ']' :: rest) = some a.wrapped.toList
      ↔ EscapesBrackets a.markup.toList := by
  have hpayload : IsPayload a.wrapped.toList := ⟨'>', a.getLast?_wrapped, by decide⟩
  have hhead : a.wrapped.toList.head? ≠ some ']' := by
    rw [head?_wrapped]
    decide
  rw [payloadAt?_eq_self_iff hpayload hhead, escapesBrackets_wrapped_iff]

end Artifact

/-! ### Embedding passes -/

namespace Pass

variable {σ : Type}

/-- The text embeds what an answer makes of an inline equation. It has no closing bracket but the
last one without a backslash, and is read whole as far as that, exactly if no closing bracket of the
markup is without a backslash. -/
def EmbedsEquation (p : Pass σ) (attributes : Attributes) (o : Occurrence) (new : String) : Prop :=
  ∃ answer a, p.settings.outcome (identifierOf none (p.equationOf attributes o).input) answer
      = .ok a ∧
    new = a.embedded ∧
    (ClosesAtEnd a.embedded.toList ↔ EscapesBrackets a.markup.toList) ∧
    ∀ rest, payloadAt? (a.wrapped.toList ++ ']' :: rest) = some a.wrapped.toList
      ↔ EscapesBrackets a.markup.toList

theorem ShowsEquation.embedsEquation {p : Pass σ} (hembed : p.options.embed = true)
    {attributes : Attributes} {o : Occurrence} {new : String}
    (h : p.ShowsEquation attributes o new) : p.EmbedsEquation attributes o new := by
  obtain ⟨answer, a, ha, rfl⟩ := h
  exact ⟨answer, a, ha, if_pos hembed, a.closesAtEnd_embedded_iff, a.payloadAt?_wrapped_iff⟩

/-- **Embedded markup ends where it should if its brackets are escaped.** A pass that embeds
artifacts leaves a text as it is, or puts texts in the places of some of its inline equations. Each
of these is the markup that an answer of the engine makes of the equation, with what is put around
it, and ends where that ends exactly if no closing bracket of the markup is without a backslash. -/
theorem embedded_ends_iff (p : Pass σ) (hembed : p.options.embed = true) (d : Document) (world : σ)
    (s : Site) (hs : s ∈ d.sites) (text : String) (htext : s.textIn? d = some text) :
    ∃ new, s.textIn? (p.run d world).document = some new ∧ (new = text ∨
      ∃ answers, new = (answered p.options.dialect text answers).text ∧
        List.Forall₂ (fun o answer? ↦ ∀ new ∈ answer?, p.EmbedsEquation s.attributes o new)
          (asked p.options.dialect text) answers) := by
  obtain ⟨new?, hnew, rfl | ⟨done, later, st, g, hreaches, hwork⟩⟩ := p.left_text world hs htext
  · exact ⟨_, hnew, .inl rfl⟩
  · refine ⟨_, hnew, ?_⟩
    have hfilled := (outcomeRule_text _ text _ _ _ hreaches.keepsOutcomes hwork).2
    cases new? with
    | none => exact .inl rfl
    | some new =>
      obtain ⟨answers, hanswers, hnew⟩ := hfilled new rfl
      exact .inr ⟨answers, hnew, hanswers.imp fun o answer? hshows new hmem ↦
        (hshows new hmem).embedsEquation hembed⟩

/-- A pass that embeds the answers of an engine, which show what it has been asked for. -/
def passEmbedding : Pass Nat :=
  { passWithRoom with
    options := { Options.initial with dialect := .latex, format := .svg, embed := true } }

/-- A paragraph with an equation that has brackets in it. -/
def paragraphWithBrackets : Document :=
  ⟨.empty, [.prose ⟨none, none, "paragraph", ["a stem:[x[1\\]] b"], .normal⟩]⟩

/-- The place of its text. -/
def siteOfBrackets : Site :=
  ⟨[], ⟨[.block 0], .prose⟩, .empty⟩

theorem mem_sites_brackets : siteOfBrackets ∈ paragraphWithBrackets.sites := by
  rw [Document.sites, Document.sitesWithin_eq]
  exact List.mem_singleton_self siteOfBrackets

theorem textIn?_brackets :
    siteOfBrackets.textIn? (passEmbedding.run paragraphWithBrackets 0).document
      = some "a pass:[<span class=\"steminline\"><svg>$x[1]$</svg></span>] b" :=
  passEmbedding.look_document_of_traversal (by decide +kernel)

/-- The equation with brackets is embedded. -/
theorem embedded_ends_iff_of_brackets :
    passEmbedding.options.embed = true ∧ siteOfBrackets ∈ paragraphWithBrackets.sites ∧
      siteOfBrackets.textIn? paragraphWithBrackets = some "a stem:[x[1\\]] b" ∧
      ∃ answers, "a pass:[<span class=\"steminline\"><svg>$x[1]$</svg></span>] b"
          = (answered .latex "a stem:[x[1\\]] b" answers).text ∧
        List.Forall₂ (fun o answer? ↦ ∀ new ∈ answer?, passEmbedding.EmbedsEquation .empty o new)
          (asked .latex "a stem:[x[1\\]] b") answers := by
  have htext : siteOfBrackets.textIn? paragraphWithBrackets = some "a stem:[x[1\\]] b" := by
    decide +kernel
  refine ⟨rfl, mem_sites_brackets, htext, ?_⟩
  obtain ⟨new, hnew, hcases⟩ :=
    embedded_ends_iff passEmbedding rfl paragraphWithBrackets 0 _ mem_sites_brackets _ htext
  cases hnew.symm.trans textIn?_brackets
  exact hcases.resolve_left (by decide)

/-- Embedded markup need not end where it should: here the bracket of the equation ends it, in the
middle of the markup. -/
theorem ends_early_of_brackets :
    siteOfBrackets.textIn? (passEmbedding.run paragraphWithBrackets 0).document
        = some "a pass:[<span class=\"steminline\"><svg>$x[1]$</svg></span>] b" ∧
      ¬ClosesAtEnd "pass:[<span class=\"steminline\"><svg>$x[1]$</svg></span>]".toList ∧
      payloadAt? "<span class=\"steminline\"><svg>$x[1]$</svg></span>] b".toList
        = some "<span class=\"steminline\"><svg>$x[1".toList := by
  refine ⟨textIn?_brackets, fun h ↦ ?_, by decide +kernel⟩
  have hsplit : "pass:[<span class=\"steminline\"><svg>$x[1]$</svg></span>]".toList
      = "pass:[<span class=\"steminline\"><svg>$x[1".toList ++ ']' :: "$</svg></span>]".toList := by
    decide +kernel
  have hend := (h _ _ hsplit).mp (by decide +kernel)
  exact absurd hend (by decide +kernel)

end Pass

end DocumentMath
