import DocumentMath.Command.Options
import DocumentMath.Command.QuotedName

/-!
# Exchanging bytes

`tr` exchanges bytes of one set for those of another, leaves out the bytes of a set, or lets a
member of a set that is repeated stand only once. A set is written as a list of bytes, ranges,
classes and repeated bytes.
-/

namespace DocumentMath.Translate

open Text (Bytes)

/-! ### Bytes of a set -/

/-- A byte as it is written, and whether a backslash stands in front of it. -/
structure WrittenByte where
  byte : UInt8
  isEscaped : Bool
  deriving DecidableEq, Repr

/-- The byte that a letter behind a backslash stands for. -/
def escapedByte (b : UInt8) : UInt8 :=
  ([(97, 7), (98, 8), (102, 12), (110, 10), (114, 13), (116, 9), (118, 11)].lookup b).getD b

/-- The value of the octal digits in front, at most three and not more than a byte, and how many
there are. -/
def octalAt (bs : Bytes) : Nat × Nat :=
  let digits := (bs.take 3).takeWhile fun b ↦ 48 ≤ b && b ≤ 55
  let value (digits : Bytes) : Nat := digits.foldl (fun n b ↦ 8 * n + (b.toNat - 48)) 0
  if value digits < 256 then (value digits, digits.length) else (value (digits.take 2), 2)

/-- The bytes that a text writes, once `skip` more have been passed over. A backslash at the end
stands for itself. -/
def writtenBytes : (skip : Nat) → Bytes → List WrittenByte
  | _, [] => []
  | skip + 1, _ :: bs => writtenBytes skip bs
  | 0, b :: bs =>
    match if b = 92 then bs.head? else none with
    | none => ⟨b, false⟩ :: writtenBytes 0 bs
    | some c =>
      let (value, length) := octalAt bs
      if length = 0 then ⟨escapedByte c, true⟩ :: writtenBytes 1 bs
      else ⟨UInt8.ofNat value, true⟩ :: writtenBytes length bs

/-! ### Parts of a set -/

/-- The case of the letters of a class. -/
inductive LetterCase where
  | upper
  | lower
  deriving DecidableEq, Repr

/-- A part of a set. -/
inductive SetPart where
  | bytes (bs : Bytes)
  /-- A class, and the case of its letters if it has one. -/
  | ofClass (bs : Bytes) (case? : Option LetterCase)
  | equivalent (b : UInt8)
  /-- A byte so many times, or as often as there is room. -/
  | repeated (b : UInt8) (count? : Option Nat)
  deriving DecidableEq, Repr

/-- The bytes from one to another. -/
def byteRange (first last : UInt8) : Bytes :=
  (List.range (last.toNat + 1 - first.toNat)).map fun i ↦ UInt8.ofNat (first.toNat + i)

/-- The bytes of which something is true. -/
def bytesWith (p : Char → Bool) : Bytes :=
  (byteRange 0 127).filter fun b ↦ p (Char.ofNat b.toNat)

/-- The classes of bytes. -/
def classes : List (String × Bytes) :=
  [("alnum", bytesWith Char.isAlphanum), ("alpha", bytesWith Char.isAlpha), ("blank", [9, 32]),
    ("cntrl", bytesWith fun c ↦ c < ' ' || c == '\x7f'), ("digit", bytesWith Char.isDigit),
    ("graph", byteRange 33 126), ("lower", bytesWith Char.isLower), ("print", byteRange 32 126),
    ("punct", (byteRange 33 126).filter fun b ↦ !(Char.ofNat b.toNat).isAlphanum),
    ("space", byteRange 9 13 ++ [32]), ("upper", bytesWith Char.isUpper),
    ("xdigit", bytesWith fun c ↦ c.isDigit || ('a' ≤ c.toLower && c.toLower ≤ 'f'))]

/-- The part for a class with a name. -/
def classPart? (name : String) : Option SetPart :=
  (classes.lookup name).map fun bs ↦
    .ofClass bs ([("upper", LetterCase.upper), ("lower", .lower)].lookup name)

/-- A byte in a message. -/
def byteText (b : UInt8) : String :=
  if 32 ≤ b ∧ b < 127 then if b = 92 then "\\\\" else String.singleton (Char.ofNat b.toNat)
  else
    match [(7, "\\a"), (8, "\\b"), (9, "\\t"), (10, "\\n"), (11, "\\v"), (12, "\\f"),
        (13, "\\r")].lookup b with
    | some text => text
    | none => "\\" ++ String.ofList ((Nat.toDigits 8 b.toNat).leftpad 3 '0')

/-- The name between two marks behind a bracket, and how many bytes it takes. -/
def nameAt? (mark : UInt8) (ws : List WrittenByte) : Option (Bytes × Nat) :=
  let isEnd (i : Nat) : Bool :=
    ws[i]? == some ⟨mark, false⟩ && ws[i + 1]? == some ⟨93, false⟩
  ((List.range ws.length).find? isEnd).map fun i ↦ ((ws.take i).map (·.byte), i)

/-- The repeated byte behind a bracket, and how many bytes that takes; or a complaint. -/
def repeatedAt? (ws : List WrittenByte) : Except String (Option (SetPart × Nat)) :=
  match ws with
  | w :: ⟨42, false⟩ :: rest =>
    let digits := rest.takeWhile (· != ⟨93, false⟩)
    if digits.length = rest.length then .ok none
    else
      let text := digits.map (·.byte)
      let base := if text.head? = some 48 then 8 else 10
      let isDigit (b : UInt8) : Bool := 48 ≤ b && b.toNat < 48 + base
      if text.all isDigit then
        let count := text.foldl (fun n b ↦ base * n + (b.toNat - 48)) 0
        .ok (some (.repeated w.byte (if count = 0 then none else some count), digits.length + 3))
      else
        .error ("invalid repeat count " ++ QuotedName.shown true (Text.octets text) ++
          " in [c*n] construct")
  | _ => .ok none

/-- Whether what looks like a name is a repeated mark. -/
def looksRepeated (ws : List WrittenByte) : Bool :=
  match ws with
  | ⟨42, false⟩ :: rest =>
    let digits := rest.takeWhile fun w ↦ 48 ≤ w.byte && w.byte ≤ 57
    rest[digits.length]? == some ⟨93, false⟩
  | _ => false

/-- The part in brackets, of which the first one stands in front of the bytes, and how many bytes it
takes; or a complaint. -/
def bracketAt? (ws : List WrittenByte) : Except String (Option (SetPart × Nat)) :=
  match ws with
  | ⟨58, false⟩ :: rest =>
    match nameAt? 58 rest with
    | some ([], _) => .error "missing character class name '[::]'"
    | some (name, length) =>
      match classPart? (Text.octets name) with
      | some p => .ok (some (p, length + 3))
      | none =>
        if looksRepeated rest then repeatedAt? ws
        else
          .error ("invalid character class " ++
            QuotedName.shown true (String.join (name.map byteText)))
    | none => repeatedAt? ws
  | ⟨61, false⟩ :: rest =>
    match nameAt? 61 rest with
    | some ([], _) => .error "missing equivalence class character '[==]'"
    | some ([b], _) => .ok (some (.equivalent b, 4))
    | some (name, _) =>
      if looksRepeated rest then repeatedAt? ws
      else
        .error (String.join (name.map byteText) ++
          ": equivalence class operand must be a single character")
    | none => repeatedAt? ws
  | _ => repeatedAt? ws

/-- The parts of a set, once `skip` more bytes have been passed over; or a complaint. -/
def partsFrom : (skip : Nat) → List WrittenByte → Except String (List SetPart)
  | _, [] => .ok []
  | skip + 1, _ :: ws => partsFrom skip ws
  | 0, w :: ws => do
    let bracket? ← if w = ⟨91, false⟩ ∧ ws.length ≥ 2 then bracketAt? ws else .ok none
    match bracket?, ws with
    | some (p, length), _ => return p :: (← partsFrom length ws)
    | none, ⟨45, false⟩ :: last :: _ =>
      if last.byte < w.byte then
        throw ("range-endpoints of '" ++ byteText w.byte ++ "-" ++ byteText last.byte ++
          "' are in reverse collating sequence order")
      else return .bytes (byteRange w.byte last.byte) :: (← partsFrom 2 ws)
    | none, _ => return .bytes [w.byte] :: (← partsFrom 0 ws)

/-- The parts of the set that a text writes. -/
def partsOf (text : String) : Except String (List SetPart) :=
  partsFrom 0 (writtenBytes 0 (Text.ofOctets text))

/-! ### Sets -/

namespace SetPart

/-- The bytes of a part, where there is room for so many. -/
def members (room : Nat) : SetPart → Bytes
  | bytes bs => bs
  | ofClass bs _ => bs
  | equivalent b => [b]
  | repeated b count? => List.replicate (count?.getD room) b

/-- Whether a part is repeated as often as there is room. -/
def isElastic : SetPart → Bool
  | repeated _ none => true
  | _ => false

/-- Whether a part is a class. -/
def isClass : SetPart → Bool
  | ofClass _ _ => true
  | _ => false

/-- The case of the letters of a part. -/
def case? : SetPart → Option LetterCase
  | ofClass _ case? => case?
  | _ => none

end SetPart

/-- The bytes of a set, where there is room for so many. -/
def membersOf (room : Nat) (ps : List SetPart) : Bytes :=
  ps.flatMap (·.members room)

/-- All bytes that are not in a set. -/
def otherBytes (set : Bytes) : Bytes :=
  (byteRange 0 255).filter (!set.contains ·)

/-! ### Requests -/

/-- What is to be done. -/
structure Request where
  /-- Whether the first set is all bytes that are not written. -/
  complements : Bool
  deletes : Bool
  squeezes : Bool
  /-- Whether the first set is cut to the length of the second one. -/
  truncates : Bool
  first : List SetPart
  second? : Option (List SetPart)

namespace Request

/-- The bytes of the first set. -/
def source (r : Request) : Bytes :=
  let set := membersOf 0 r.first
  if r.complements then otherBytes set else set

/-- Whether bytes are exchanged. -/
def exchanges (r : Request) : Bool :=
  r.second?.isSome && !r.deletes

/-- The bytes of the second set as far as they are written. -/
def target (r : Request) : Bytes :=
  let ps := r.second?.getD []
  membersOf (r.source.length - (membersOf 0 ps).length) ps

/-- The bytes of the second set, which goes on with its last byte. -/
def longTarget (r : Request) : Bytes :=
  let missing := r.source.length - r.target.length
  if r.truncates then r.target
  else r.target ++ List.replicate missing (r.target.getLast?.getD 0)

/-- The letters whose case is exchanged: the places of classes in the first set have to be those of
classes in the second one. -/
def casePairs (r : Request) : Except String (List (SetPart × SetPart)) :=
  go (r.first.flatMap single) ((r.second?.getD []).flatMap single)
where
  /-- A part as parts of one byte each, unless it is a class with a case. -/
  single (p : SetPart) : List SetPart :=
    if p.case?.isSome then [p] else (p.members 0).map (.bytes [·])
  /-- Goes through the parts of both sets. -/
  go : List SetPart → List SetPart → Except String (List (SetPart × SetPart))
    | p :: ps, q :: qs =>
      if q.case?.isSome && p.case?.isNone then
        .error "misaligned [:upper:] and/or [:lower:] construct"
      else (go ps qs).map ((p, q) :: ·)
    | _, _ => .ok []

/-- Why the sets cannot be exchanged, if they cannot. -/
def exchangeMistake? (r : Request) (second : List SetPart) : Option String :=
  let isEquivalent : SetPart → Bool
    | .equivalent _ => true
    | _ => false
  if second.any isEquivalent then
    some "[=c=] expressions may not appear in string2 when translating"
  else if second.any fun p ↦ p.isClass && p.case?.isNone then
    some ("when translating, the only character classes that may appear in\n" ++
      "string2 are 'upper' and 'lower'")
  else
    let misaligned? : Option String :=
      if r.complements then none
      else
        match r.casePairs with
        | .error mistake => some mistake
        | .ok _ => none
    let isShort := !r.truncates && r.target.length < r.source.length
    let isManifold := !(r.target.all fun b ↦ r.target.head? == some b)
    misaligned?.or
      (if isShort && r.target.isEmpty then
        some "when not truncating set1, string2 must be non-empty"
      else if isShort && (second.getLast?.any (·.isClass)) then
        some ("when translating with string1 longer than string2,\n" ++
          "the latter string must not end with a character class")
      else if r.complements && r.first.any (·.isClass) && isManifold then
        some ("when translating with complemented character classes,\n" ++
          "string2 must map all characters in the domain to one")
      else none)

/-- Why nothing can be done, if that is so. -/
def mistake? (r : Request) : Option String :=
  if r.first.any (·.isElastic) then
    some "the [c*] repeat construct may not appear in string1"
  else
    match r.second? with
    | none => none
    | some second =>
      if 1 < second.countP (·.isElastic) then
        some "only one [c*] repeat construct may appear in string2"
      else if r.exchanges then r.exchangeMistake? second
      else if second.any (·.isElastic) then
        some "the [c*] construct may appear in string2 only when translating"
      else none

/-! ### What becomes of bytes -/

/-- The pairs of bytes that are exchanged. Of several with the same first byte, the last one
counts. -/
def pairs (r : Request) : List (UInt8 × UInt8) :=
  match r.complements, r.casePairs with
  | false, .ok ps =>
    if ps.any fun (_, q) ↦ q.case?.isSome then ps.flatMap fun (p, q) ↦
      if p.case? == q.case? then (p.members 0).map fun b ↦ (b, b)
      else (p.members 0).zip (q.members 0)
    else r.source.zip r.longTarget
  | _, _ => r.source.zip r.longTarget

/-- The byte for which one is exchanged. -/
def exchange (pairs : List (UInt8 × UInt8)) (b : UInt8) : UInt8 :=
  (pairs.reverse.lookup b).getD b

/-- Bytes in which a member of a set that is repeated stands only once. -/
def squeeze (set : Bytes) : Bytes → Bytes
  | a :: b :: bs =>
    if a == b && set.contains a then squeeze set (b :: bs) else a :: squeeze set (b :: bs)
  | bs => bs

/-- What becomes of bytes. -/
def apply (r : Request) (bs : Bytes) : Bytes :=
  let kept := if r.deletes then bs.filter (!r.source.contains ·) else bs
  let table := (byteRange 0 255).map (exchange r.pairs)
  let exchanged := if r.exchanges then kept.map fun b ↦ table[b.toNat]?.getD b else kept
  if !r.squeezes then exchanged
  else
    squeeze
      (match r.second? with
      | none => r.source
      | some second => if r.deletes then membersOf 0 second else r.longTarget) exchanged

end Request

/-! ### The program -/

/-- The options of `tr`. -/
def options : OptionTable where
  plain := "cCdst".toList
  valued := []
  words := [("complement", 'c'), ("delete", 'd'), ("squeeze-repeats", 's'),
    ("truncate-set1", 't')]
  anywhere := false

/-- Why there are not as many sets as there have to be, if that is so. -/
def countMistake? (r : ReadOptions) : Option String :=
  let deletes := r.has 'd'
  let squeezes := r.has 's'
  let least := if deletes == squeezes then 2 else 1
  let most := if deletes && !squeezes then 1 else 2
  let last := QuotedName.shown true (r.names.getLast?.getD "")
  if r.names.isEmpty then some "missing operand"
  else if r.names.length < least then
    some ("missing operand after " ++ last ++ "\n" ++
      if squeezes then "Two strings must be given when both deleting and squeezing repeats."
      else "Two strings must be given when translating.")
  else if most < r.names.length then
    some ("extra operand " ++ QuotedName.shown true (r.names[most]?.getD "") ++
      if r.names.length = 2 then
        "\nOnly one string may be given when deleting without squeezing repeats."
      else "")
  else none

/-- The request that options make. -/
def requestOf (r : ReadOptions) : Except String Request := do
  let sets ← r.names.mapM partsOf
  return ⟨r.has 'c' || r.has 'C', r.has 'd', r.has 's', r.has 't', sets.head?.getD [], sets[1]?⟩

/-- Copies what can be read, with bytes exchanged, left out or squeezed. -/
def tr : Program :=
  Program.checked <| Program.withOptions options fun o c ↦
    match countMistake? o, requestOf o with
    | some mistake, _ => c.misuse mistake
    | none, .error mistake => c.refuse mistake
    | none, .ok r =>
      match r.mistake?, c.readAll with
      | some mistake, _ => c.refuse mistake
      | none, (.error e, _) => c.refuse ("read error: " ++ e.reason)
      | none, (.ok bs, c) => c.finish 0 [.output (r.apply bs)]

end DocumentMath.Translate
