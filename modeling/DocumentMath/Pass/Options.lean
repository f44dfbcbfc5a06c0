import DocumentMath.Decimal.Reading
import DocumentMath.Decimal.Shortest
import DocumentMath.Dialect
import DocumentMath.Document.Basic
import DocumentMath.Image.Format
import DocumentMath.Path.Location

/-!
# Options of a pass

The options of a pass come from the attributes of the document, and single settings may be
overridden. Both are read as they are first and reconciled once at the end (`resolve`): the
resolution has to be positive, raster images cannot be embedded, and markup cannot be anything else.
A value that is not understood, and a setting that is changed, leave a warning.
-/

namespace DocumentMath

/-- The resolution of raster images unless another is set. -/
def defaultResolution : Float := 300.0

/-- The resolution of what is not a raster image. -/
def vectorResolution : Float := 72.0

/-- The options of a pass. -/
structure Options where
  /-- The notation of equations with the generic name or style. -/
  dialect : Dialect
  format : Format
  /-- The resolution of raster images, in pixels per inch. -/
  resolution : Float
  /-- Whether artifacts are embedded in the document. -/
  embed : Bool
  imagesDir : Option Path
  imagesOutDir : Option Path
  outDir : Option Path
  docDir : Option Path
  /-- Whether the document is converted to HTML. -/
  html : Bool
  /-- What had to be changed or ignored, in order. -/
  warnings : List String

namespace Options

/-- The options of a document that sets nothing. -/
def initial : Options where
  dialect := .asciiMath
  format := .png
  resolution := defaultResolution
  embed := false
  imagesDir := none
  imagesOutDir := none
  outDir := none
  docDir := none
  html := true
  warnings := []

/-- The options with one more warning. -/
def warn (message : String) (o : Options) : Options :=
  { o with warnings := o.warnings ++ [message] }

/-! ### Attributes -/

/-- The directory an attribute names, unless it is blank. -/
def directory? (d : Document) (name : String) : Option Path :=
  ((d.attribute? name).map Text.trimmed).bind fun value ↦
    if value.isEmpty then none else some ⟨value⟩

/-- Sets the format an attribute value names. -/
def readFormat (value : String) (o : Options) : Options :=
  match Format.ofName? value with
  | some format => { o with format }
  | none =>
    o.warn ("Unknown mathematical-format '" ++ value ++ "', using " ++ Format.png.name)

/-- Sets the resolution an attribute value gives. -/
def readResolution (value : String) (o : Options) : Options :=
  match Decimal.readFloat? (Text.trimmed value) with
  | some resolution => { o with resolution }
  | none =>
    o.warn
      ("Invalid mathematical-ppi '" ++ value ++ "', using " ++ floatText defaultResolution)

/-- What an attribute sets, if it is there. -/
def readAttribute (d : Document) (name : String) (read : String → Options → Options)
    (o : Options) : Options :=
  match d.attribute? name with
  | some value => read value o
  | none => o

/-- The options the attributes of a document set, before they are reconciled. -/
def ofAttributes (d : Document) : Options :=
  let o : Options := { initial with
    dialect := .ofStemAttribute (d.attribute? "stem")
    html := d.isHtml
    imagesDir := directory? d "imagesdir"
    imagesOutDir := directory? d "imagesoutdir"
    outDir := directory? d "outdir"
    docDir := directory? d "docdir"
    embed := ((d.attribute? "mathematical-inline").map (Text.trimmed · != "false")).getD false }
  readAttribute d "mathematical-ppi" readResolution
    (readAttribute d "mathematical-format" readFormat o)

/-! ### Reconciling -/

/-- Whether a resolution can be used. -/
def isUsable (resolution : Float) : Bool :=
  resolution.isFinite && 0.0 < resolution

/-- A resolution that cannot be used is set back. -/
def resolveResolution (o : Options) : Options :=
  if isUsable o.resolution then o
  else
    let o := o.warn ("Resolution " ++ floatText o.resolution ++ " is not positive, using " ++
      floatText defaultResolution)
    { o with resolution := defaultResolution }

/-- Raster images are not embedded. -/
def resolveRaster (o : Options) : Options :=
  if o.embed && o.format.isRaster then
    let o := o.warn ("Inline mode is not supported with " ++ o.format.name ++
      ", referencing image files instead")
    { o with embed := false }
  else o

/-- Markup is always embedded. -/
def resolveMarkup (o : Options) : Options :=
  if !o.embed && o.format.isMarkup then
    let o := o.warn ("Format " ++ o.format.name ++
      " can only be embedded, enabling inline mode")
    { o with embed := true }
  else o

/-- The options with conflicting settings reconciled. -/
def resolve (o : Options) : Options :=
  o.resolveResolution.resolveRaster.resolveMarkup

/-- The options the attributes of a document set. -/
def ofDocument (d : Document) : Options :=
  (ofAttributes d).resolve

/-! ### What follows from the options -/

/-- The resolution an engine is given; only raster images have one of their own. -/
def effectiveResolution (o : Options) : Float :=
  if o.format.isRaster then o.resolution else vectorResolution

/-- The substitutions for inline equations that list none. -/
def defaultSubs (o : Options) : SubstitutionSet :=
  if o.html then .verbatim else .none

/-- The directory that relative directories start from: the output directory, or else the directory
of the document, or else the working directory. -/
def root (workingDirectory : Path) (o : Options) : Path :=
  match o.outDir.or o.docDir with
  | some dir => if dir.isAbsolute then dir else workingDirectory.join dir
  | none => workingDirectory

/-- Where artifacts go. -/
def location (workingDirectory : Path) (o : Options) : OutputLocation :=
  .resolve o.imagesOutDir o.imagesDir (o.root workingDirectory)

end Options

/-! ### Overrides -/

/-- Settings that take the place of those of a document. -/
structure Overrides where
  dialect : Option Dialect
  format : Option Format
  resolution : Option Float
  embed : Option Bool
  imagesDir : Option Path
  imagesOutDir : Option Path
  outDir : Option Path

namespace Overrides

/-- No settings. -/
def none : Overrides := ⟨.none, .none, .none, .none, .none, .none, .none⟩

/-- The options with the settings in their place. -/
def apply (v : Overrides) (o : Options) : Options :=
  { o with
    dialect := v.dialect.getD o.dialect
    format := v.format.getD o.format
    resolution := v.resolution.getD o.resolution
    embed := v.embed.getD o.embed
    imagesDir := v.imagesDir.or o.imagesDir
    imagesOutDir := v.imagesOutDir.or o.imagesOutDir
    outDir := v.outDir.or o.outDir }

/-- The options for a document: its attributes, then the settings, reconciled once. -/
def optionsFor (v : Overrides) (d : Document) : Options :=
  (v.apply (.ofAttributes d)).resolve

end Overrides

end DocumentMath
