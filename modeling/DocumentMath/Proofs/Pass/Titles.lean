import DocumentMath.Proofs.Document.InPlace
import DocumentMath.Proofs.Document.Read
import DocumentMath.Proofs.Pass.Left
import Mathlib.Logic.Relation

/-!
# Converted titles

A section remembers its converted title once it has been asked for it. What it remembers is always
that of the title it has (`Section.IsCurrent`), although a title is changed from two sides:
directly, and where a pass has replaced an equation in it. For every step that a section can take
(`Section.Step`) leaves its title and what it remembers as they are, or makes it forget, or fills in
what belongs to the title: `Section.Step.isCurrent`. A section that is new or has been read
remembers nothing, and so whatever happens to it, what it says of its title is right
(`Section.convertedTitle_of_history`).
-/

namespace DocumentMath

/-! ### What editing does to a title -/

/-- The title is as it was, and so is what is known of its converted form, or nothing is known. -/
def Section.KeepsOrForgets (s s' : Section) : Prop :=
  s'.title = s.title ∧ s'.converted = s.converted ∨ s'.converted = none

namespace Subtree

/-- If the tree is a section, then so is the other one, and it keeps or forgets its title. -/
def KeepsTitle (t t' : Subtree) : Prop :=
  ∀ s, t = node (.block (.sect s)) → ∃ s', t' = node (.block (.sect s')) ∧ s.KeepsOrForgets s'

theorem KeepsTitle.refl (t : Subtree) : t.KeepsTitle t :=
  fun s hs ↦ ⟨s, hs, .inl ⟨rfl, rfl⟩⟩

/-- To exchange a child leaves the title alone. -/
theorem keepsTitle_of_setChild? {t t' c c' : Subtree} {x : Move} (h : IsChild t x c)
    (hset : t.setChild? x c' = some t') : t.KeepsTitle t' := by
  rintro s rfl
  cases h with
  | blockOfSection =>
    obtain ⟨d⟩ | ⟨b | i | c⟩ := c' <;> cases hset
    exact ⟨_, rfl, .inl ⟨rfl, rfl⟩⟩

theorem keepsTitle_of_setText? {kind : CandidateKind} {text : String} {n n' : Node}
    (h : kind.setText? text n = some n') : (node n).KeepsTitle (node n') := by
  rintro s ⟨⟩
  cases kind with
  | sectionTitle =>
    cases h
    exact ⟨_, rfl, .inr rfl⟩
  | _ => cases h

end Subtree

namespace Document

variable {d d' : Document} {within : List NodePath} {path : NodePath} {s : Section}

/-- A section whose subtree keeps or forgets its title is still there. -/
theorem exists_sect_of_rel
    (hrel : Option.Rel Subtree.KeepsTitle
      ((Subtree.document d).descend? (Move.toNode within path))
      ((Subtree.document d').descend? (Move.toNode within path)))
    (hs : d.nodeIn? within path = some (.block (.sect s))) :
    ∃ s', d'.nodeIn? within path = some (.block (.sect s')) ∧ s.KeepsOrForgets s' := by
  rw [descend?_of_nodeIn? hs] at hrel
  rw [nodeIn?_eq]
  generalize (Subtree.document d').descend? (Move.toNode within path) = t? at hrel ⊢
  cases hrel with
  | some hkeeps =>
    obtain ⟨s', rfl, hs'⟩ := hkeeps s rfl
    exact ⟨s', rfl, hs'⟩

/-- To set a text leaves every section in its place. -/
theorem exists_sect_of_setText (c : Candidate) (text : String)
    (hs : d.nodeIn? within path = some (.block (.sect s))) :
    ∃ s', (d.setText c text).2.nodeIn? within path = some (.block (.sect s')) ∧
      s.KeepsOrForgets s' := by
  cases htext : d.textOf? c with
  | none => exact ⟨s, by rw [setText_of_none htext, hs], .inl ⟨rfl, rfl⟩⟩
  | some old =>
    obtain ⟨n, n', d', hn, hchanged, -, hrun⟩ :=
      exists_setText (Option.isSome_of_eq_some htext) text
    rw [hrun]
    refine exists_sect_of_rel ?_ hs
    exact Subtree.Changed.rel_descend? Subtree.KeepsTitle.refl hchanged
      (Node.replaces_of_setText? hn).below (fun _ ↦ Subtree.keepsTitle_of_setText? hn)
      fun _ _ _ _ _ _ _ _ hchild hset ↦ Subtree.keepsTitle_of_setChild? hchild hset

end Document

/-- A pass leaves every section in its place, also if it fails. -/
theorem Pass.exists_sect_of_run {σ : Type} (p : Pass σ) (world : σ) {d : Document}
    {within : List NodePath} {path : NodePath} {s : Section}
    (hs : d.nodeIn? within path = some (.block (.sect s))) :
    ∃ s', (p.run d world).document.nodeIn? within path = some (.block (.sect s')) ∧
      s.KeepsOrForgets s' := by
  obtain ⟨done, later, st, hreaches, hdocument⟩ := p.exists_reaches d world
  have hedited := hreaches.editedTo.node within path
  rw [hdocument]
  rw [hs] at hedited
  generalize st.document.nodeIn? within path = n? at hedited ⊢
  cases hedited with
  | some h =>
    obtain ⟨title, blocks, converted, rfl, htitle⟩ := h
    exact ⟨_, rfl, htitle⟩

namespace Section

/-! ### Sections in use -/

/-- The section has just been made or read. -/
inductive IsNew : Section → Prop
  | titled (title : String) (level : UInt8) : IsNew (titled title level)
  | read {text : String} {d : Document} (hread : Document.ofJsonText text = .ok d)
    {within : List NodePath} {path : NodePath} {s : Section}
    (hs : d.nodeIn? within path = some (.block (.sect s))) : IsNew s

/-- What may become of a section. -/
inductive Step : Section → Section → Prop
  /-- It is given a title. -/
  | setTitle (title : String) (s : Section) : Step s (s.setTitle title)
  /-- It is asked for its converted title. -/
  | askTitle (s : Section) : Step s s.withConvertedTitle
  | addBlock (b : Block) (s : Section) : Step s (s.addBlock b)
  /-- The blocks in it are edited in any way. -/
  | editBlocks (blocks : List Block) (s : Section) : Step s { s with blocks }
  /-- A text of a document that contains it is set, be it its own title. -/
  | setText {d : Document} (c : Candidate) (text : String) {within : List NodePath}
    {path : NodePath} {s s' : Section} (before : d.nodeIn? within path = some (.block (.sect s)))
    (after : (d.setText c text).2.nodeIn? within path = some (.block (.sect s'))) : Step s s'
  /-- A document that contains it goes through a pass, which may fail. -/
  | pass {σ : Type} (p : Pass σ) (world : σ) {d : Document} {within : List NodePath}
    {path : NodePath} {s s' : Section} (before : d.nodeIn? within path = some (.block (.sect s)))
    (after : (p.run d world).document.nodeIn? within path = some (.block (.sect s'))) : Step s s'

/-- A converted title that is known is that of the title. -/
def IsCurrent (s : Section) : Prop :=
  ∀ converted ∈ s.converted, converted = convert s.title

variable {s s' : Section}

theorem isCurrent_of_converted_eq_none (h : s.converted = none) : s.IsCurrent :=
  fun converted hconverted ↦ absurd (h ▸ hconverted) (Option.not_mem_none converted)

theorem IsCurrent.convertedTitle_eq (h : s.IsCurrent) : s.convertedTitle = convert s.title := by
  rw [convertedTitle]
  cases hconverted : s.converted with
  | none => rfl
  | some converted => exact h converted hconverted

theorem IsCurrent.of_keepsOrForgets (h : s.IsCurrent) (hs' : s.KeepsOrForgets s') :
    s'.IsCurrent := by
  rcases hs' with ⟨htitle, hconverted⟩ | hnone
  · rw [IsCurrent, htitle, hconverted]
    exact h
  · exact isCurrent_of_converted_eq_none hnone

theorem IsNew.isCurrent (h : s.IsNew) : s.IsCurrent := by
  cases h with
  | titled title level => exact isCurrent_of_converted_eq_none rfl
  | read hread hs =>
    exact isCurrent_of_converted_eq_none
      ((Document.isFresh_of_ofJsonText hread).converted_eq_none hs)

/-- No step of a section makes what it knows of its title wrong. -/
theorem Step.isCurrent (h : Step s s') (hs : s.IsCurrent) : s'.IsCurrent := by
  cases h with
  | setTitle title => exact isCurrent_of_converted_eq_none rfl
  | askTitle =>
    rintro converted ⟨⟩
    exact hs.convertedTitle_eq
  | addBlock b => exact hs
  | editBlocks blocks => exact hs
  | setText c text before after =>
    obtain ⟨s₁, hs₁, hkeeps⟩ := Document.exists_sect_of_setText c text before
    cases hs₁.symm.trans after
    exact hs.of_keepsOrForgets hkeeps
  | pass p world before after =>
    obtain ⟨s₁, hs₁, hkeeps⟩ := p.exists_sect_of_run world before
    cases hs₁.symm.trans after
    exact hs.of_keepsOrForgets hkeeps

theorem isCurrent_of_history {s₀ : Section} (hnew : s₀.IsNew)
    (hsteps : Relation.ReflTransGen Step s₀ s) : s.IsCurrent := by
  induction hsteps with
  | refl => exact hnew.isCurrent
  | tail _ hstep ih => exact hstep.isCurrent ih

/-! ### Main result -/

/-- **A converted title is never out of date.** After any history of a section that was new or has
been read, however often it has been asked for its title, given others, and been in documents that
passes have gone over, a converted title that it knows is the title with its special characters
escaped, and so is the answer to the next question. -/
theorem convertedTitle_of_history {s₀ : Section} (hnew : s₀.IsNew)
    (hsteps : Relation.ReflTransGen Step s₀ s) :
    (∀ converted ∈ s.converted,
        converted = String.ofList (Substitution.escape s.title.toList)) ∧
      s.convertedTitle = String.ofList (Substitution.escape s.title.toList) :=
  have hcurrent := isCurrent_of_history hnew hsteps
  ⟨hcurrent, hcurrent.convertedTitle_eq⟩

/-- A section with an equation in its title. -/
def withEquation : Section :=
  titled "a < stem:[x]" 1

/-- A document of one section. -/
def inDocument (s : Section) : Document :=
  ⟨.empty, [.sect s]⟩

/-- A section is asked for its title before and after a pass replaces the equation in it. -/
theorem convertedTitle_of_history_asked_twice :
    withEquation.IsNew ∧ ∃ s, Relation.ReflTransGen Step withEquation s ∧
      s.title = "a < image:stem-332cc365a4987aacce0ead01b8bdcc0b.svg[]" ∧
      (∀ converted ∈ s.converted,
        converted = String.ofList (Substitution.escape s.title.toList)) ∧
      s.convertedTitle = "a &lt; image:stem-332cc365a4987aacce0ead01b8bdcc0b.svg[]" := by
  let p := Pass.passWithRoom
  let d := withEquation.withConvertedTitle.inDocument
  have hbefore : d.nodeIn? [] [.block 0] = some (.block (.sect withEquation.withConvertedTitle)) :=
    rfl
  obtain ⟨s, hafter, -⟩ := p.exists_sect_of_run 1 hbefore
  have htitle : s.title = "a < image:stem-332cc365a4987aacce0ead01b8bdcc0b.svg[]" := by
    have htraversal : (p.traversal d 1).1.toOption.bind (·.textOf? ⟨[.block 0], .sectionTitle⟩)
        = some "a < image:stem-332cc365a4987aacce0ead01b8bdcc0b.svg[]" := by decide +kernel
    have hnew := p.look_document_of_traversal htraversal
    have hnode : (p.run d 1).document.node? [.block 0] = some (.block (.sect s)) := hafter
    rw [Document.textOf?, hnode] at hnew
    exact Option.some.inj hnew
  have hsteps : Relation.ReflTransGen Step withEquation s.withConvertedTitle :=
    ((Relation.ReflTransGen.single (.askTitle _)).tail (.pass p 1 hbefore hafter)).tail
      (.askTitle s)
  obtain ⟨hknown, hanswer⟩ := convertedTitle_of_history (.titled _ _) hsteps
  refine ⟨.titled _ _, s.withConvertedTitle, hsteps, htitle, hknown, hanswer.trans ?_⟩
  have hsame : s.withConvertedTitle.title = s.title := rfl
  rw [hsame, htitle]
  decide +kernel

end Section

end DocumentMath
