import DocumentMath.Image.Detect
import Mathlib.Data.List.Basic
import Mathlib.Data.Nat.Digits.Defs

/-!
# The header of a raster image

Data declare a size if they start with a header: the signature, four bytes for the length of what
follows, the name of the header, and the width and the height as numbers of four bytes each, most
significant first (`Image.DeclaresSize`). `Image.size?_reads_header` says that a size is read exactly
off such data, and which error there is for all others.

Each part of the header is at a fixed position. `Image.readSize?` is the same reading with slices that
have to lie inside the data: it has no answer as soon as a byte is asked for that is not there. That
it always has one, and the same (`Image.readSize?_eq`), is due to the length that is tested first.
-/

namespace DocumentMath.Image

open Text (Bytes)

/-! ### Numbers of four bytes -/

/-- That bytes write a number: they are its four digits to the base 256, the most significant one
first. -/
structure IsBigEndian (bytes : Bytes) (n : UInt32) : Prop where
  length : bytes.length = 4
  value : Nat.ofDigits 256 (bytes.reverse.map UInt8.toNat) = n.toNat

theorem mul_two_pow_or {k x : Nat} (a : Nat) (h : x < 2 ^ k) :
    a * 2 ^ k ||| x = a * 2 ^ k + x := by
  rw [Nat.mul_comm, Nat.two_pow_add_eq_or_of_lt h]

section Numbers

variable (b₀ b₁ b₂ b₃ : UInt8)

/-- The shifted bytes do not overlap, so that they add up. -/
theorem toNat_bigEndian :
    (bigEndian b₀ b₁ b₂ b₃).toNat
      = b₀.toNat * 2 ^ 24 + (b₁.toNat * 2 ^ 16 + (b₂.toNat * 2 ^ 8 + b₃.toNat)) := by
  have h₀ := b₀.toNat_lt
  have h₁ := b₁.toNat_lt
  have h₂ := b₂.toNat_lt
  have h₃ := b₃.toNat_lt
  simp only [bigEndian, UInt32.toNat_or, UInt32.toNat_shiftLeft, UInt8.toNat_toUInt32, Nat.or_assoc,
    UInt32.reduceToNat, Nat.reduceMod, Nat.shiftLeft_eq]
  -- no byte is shifted out of the word
  rw [Nat.mod_eq_of_lt (by omega), Nat.mod_eq_of_lt (by omega), Nat.mod_eq_of_lt (by omega)]
  rw [mul_two_pow_or b₂.toNat h₃, mul_two_pow_or b₁.toNat (by omega),
    mul_two_pow_or b₀.toNat (by omega)]

theorem isBigEndian_bigEndian : IsBigEndian [b₀, b₁, b₂, b₃] (bigEndian b₀ b₁ b₂ b₃) where
  length := rfl
  value := by
    rw [toNat_bigEndian]
    simp only [List.reverse_cons, List.reverse_nil, List.nil_append, List.cons_append, List.map_cons,
      List.map_nil, Nat.ofDigits_cons, Nat.ofDigits_nil]
    omega

end Numbers

/-- Four bytes write a number, and only one. -/
theorem isBigEndian_iff {bytes : Bytes} {n : UInt32} :
    IsBigEndian bytes n ↔
      ∃ b₀ b₁ b₂ b₃, bytes = [b₀, b₁, b₂, b₃] ∧ n = bigEndian b₀ b₁ b₂ b₃ := by
  constructor
  · intro h
    obtain ⟨b₀, b₁, b₂, b₃, rfl⟩ := List.length_eq_four.mp h.length
    refine ⟨b₀, b₁, b₂, b₃, rfl, UInt32.toNat_inj.mp ?_⟩
    rw [← h.value, (isBigEndian_bigEndian b₀ b₁ b₂ b₃).value]
  · rintro ⟨b₀, b₁, b₂, b₃, rfl, rfl⟩
    exact isBigEndian_bigEndian b₀ b₁ b₂ b₃

theorem exists_isBigEndian {bytes : Bytes} (h : bytes.length = 4) : ∃ n, IsBigEndian bytes n := by
  obtain ⟨b₀, b₁, b₂, b₃, rfl⟩ := List.length_eq_four.mp h
  exact ⟨_, isBigEndian_bigEndian b₀ b₁ b₂ b₃⟩

/-! ### Headers -/

/-- That data start with the header of a raster image of this width and height. -/
def DeclaresSize (data : Bytes) (w h : UInt32) : Prop :=
  ∃ between width height rest : Bytes, between.length = 4 ∧ IsBigEndian width w ∧
    IsBigEndian height h ∧ data = signature ++ between ++ headerName ++ width ++ height ++ rest

/-- That data are long enough for a header and start with the signature. -/
def IsSigned (data : Bytes) : Prop :=
  headerLength ≤ data.length ∧ signature <+: data

section Size

variable {data : Bytes} {w h : UInt32}

theorem unsigned_iff :
    (data.length < headerLength || !signature.isPrefixOf data) = true ↔ ¬IsSigned data := by
  simp only [IsSigned, Bool.or_eq_true, decide_eq_true_eq, Bool.not_eq_true',
    ← Bool.not_eq_true, List.isPrefixOf_iff_prefix, not_and_or, not_le]

theorem DeclaresSize.isSigned (hdata : DeclaresSize data w h) : IsSigned data := by
  obtain ⟨between, width, height, rest, hbetween, hwidth, hheight, rfl⟩ := hdata
  constructor
  · simp only [headerLength, signature, headerName, List.length_append, List.length_cons,
      List.length_nil, hbetween, hwidth.length, hheight.length]
    omega
  · simp only [List.append_assoc]
    exact List.prefix_append _ _

/-- Signed data with the name in its place are a header, whatever the numbers in it. -/
theorem exists_declaresSize (hdata : IsSigned data) (hname : (data.drop 12).take 4 = headerName) :
    ∃ w h, DeclaresSize data w h := by
  obtain ⟨hlength, rest, rfl⟩ := hdata
  have hrest : 16 ≤ rest.length := by
    simp only [headerLength, signature, List.length_append, List.length_cons, List.length_nil]
      at hlength
    omega
  have hfour (n : Nat) (hn : n + 4 ≤ rest.length) : ((rest.drop n).take 4).length = 4 := by
    rw [List.length_take, List.length_drop]
    omega
  obtain ⟨w, hw⟩ := exists_isBigEndian (hfour 8 (by omega))
  obtain ⟨h, hh⟩ := exists_isBigEndian (hfour 12 (by omega))
  refine ⟨w, h, rest.take 4, _, _, rest.drop 16, List.length_take_of_le (by omega), hw, hh, ?_⟩
  have hcut (n : Nat) : (rest.drop n).take 4 ++ rest.drop (n + 4) = rest.drop n := by
    rw [← List.drop_drop, List.take_append_drop]
  have hname' : (rest.drop 4).take 4 = headerName := hname
  simp only [← hname', List.append_assoc]
  rw [hcut 12, hcut 8, hcut 4, List.take_append_drop]

/-- The numbers of a header are found at their positions. -/
theorem DeclaresSize.width_and_height (hdata : DeclaresSize data w h) :
    IsBigEndian ((data.drop 16).take 4) w ∧ IsBigEndian ((data.drop 20).take 4) h := by
  obtain ⟨between, width, height, rest, hbetween, hwidth, hheight, rfl⟩ := hdata
  obtain ⟨l₀, l₁, l₂, l₃, rfl⟩ := List.length_eq_four.mp hbetween
  obtain ⟨w₀, w₁, w₂, w₃, rfl⟩ := List.length_eq_four.mp hwidth.length
  obtain ⟨h₀, h₁, h₂, h₃, rfl⟩ := List.length_eq_four.mp hheight.length
  exact ⟨hwidth, hheight⟩

theorem size?_of_not_isSigned (hdata : ¬IsSigned data) :
    size? data = .error (unrecognized data) := by
  rw [size?, if_pos (unsigned_iff.mpr hdata)]

theorem size?_of_name_ne (hdata : IsSigned data) (hname : (data.drop 12).take 4 ≠ headerName) :
    size? data = .error .noHeader := by
  rw [size?, if_neg (mt unsigned_iff.mp (not_not.mpr hdata)), if_pos hname]

theorem size?_of_declaresSize (hdata : DeclaresSize data w h) : size? data = .ok (w, h) := by
  rw [size?, if_neg (mt unsigned_iff.mp (not_not.mpr hdata.isSigned))]
  obtain ⟨between, width, height, rest, hbetween, hwidth, hheight, rfl⟩ := hdata
  obtain ⟨l₀, l₁, l₂, l₃, rfl⟩ := List.length_eq_four.mp hbetween
  obtain ⟨w₀, w₁, w₂, w₃, rfl, rfl⟩ := isBigEndian_iff.mp hwidth
  obtain ⟨h₀, h₁, h₂, h₃, rfl, rfl⟩ := isBigEndian_iff.mp hheight
  exact if_neg (not_not.mpr rfl)

/-- There is a size only where there is a header. -/
theorem declaresSize_of_size? (hsize : size? data = .ok (w, h)) : DeclaresSize data w h := by
  by_cases hdata : IsSigned data
  · by_cases hname : (data.drop 12).take 4 = headerName
    · obtain ⟨w', h', hheader⟩ := exists_declaresSize hdata hname
      rw [size?_of_declaresSize hheader] at hsize
      cases hsize
      exact hheader
    · rw [size?_of_name_ne hdata hname] at hsize
      cases hsize
  · rw [size?_of_not_isSigned hdata] at hsize
    cases hsize

theorem detect_of_isSigned (hdata : IsSigned data) : detect data = .ok .png := by
  rw [detect, if_pos (List.isPrefixOf_iff_prefix.mpr hdata.2)]

end Size

/-! ### Reading inside the data -/

/-- The bytes from one position up to another, if the data have all of them. -/
def slice? (data : Bytes) (start stop : Nat) : Option Bytes :=
  if start ≤ stop ∧ stop ≤ data.length then some ((data.drop start).take (stop - start)) else none

/-- The number that the first four bytes write, if there are four. -/
def number? (bytes : Bytes) : Option UInt32 := do
  let b₀ ← bytes[0]?
  let b₁ ← bytes[1]?
  let b₂ ← bytes[2]?
  let b₃ ← bytes[3]?
  some (bigEndian b₀ b₁ b₂ b₃)

/-- The error for bytes that are not recognized, with the first of them taken as a slice. -/
def readUnrecognized? (data : Bytes) : Option FormatError := do
  let start ← slice? data 0 (min data.length 16)
  some (.unrecognized data.length
    ((Text.decode start).map fun c ↦ if isControl c then '.' else c))

/-- The size of a raster image, with each part of the header taken as a slice. There is no answer if
a slice does not lie inside the data. -/
def readSize? (data : Bytes) : Option (Except FormatError (UInt32 × UInt32)) :=
  if data.length < headerLength || !signature.isPrefixOf data then
    (readUnrecognized? data).map .error
  else do
    let name ← slice? data 12 16
    if name ≠ headerName then some (.error .noHeader)
    else
      let width ← slice? data 16 20
      let height ← slice? data 20 24
      let w ← number? width
      let h ← number? height
      some (.ok (w, h))

theorem slice?_eq {data : Bytes} {start stop : Nat} (hle : start ≤ stop)
    (hstop : stop ≤ data.length) :
    slice? data start stop = some ((data.drop start).take (stop - start)) :=
  if_pos ⟨hle, hstop⟩

theorem number?_of_isBigEndian {bytes : Bytes} {n : UInt32} (h : IsBigEndian bytes n) :
    number? bytes = some n := by
  obtain ⟨b₀, b₁, b₂, b₃, rfl, rfl⟩ := isBigEndian_iff.mp h
  rfl

theorem readUnrecognized?_eq (data : Bytes) :
    readUnrecognized? data = some (unrecognized data) := by
  have hstart : data.take (min data.length 16) = data.take 16 :=
    List.take_eq_take_iff.mpr (by omega)
  rw [readUnrecognized?, slice?_eq (Nat.zero_le _) (Nat.min_le_left _ _), List.drop_zero,
    Nat.sub_zero, hstart]
  rfl

/-- No byte is read that is not there. -/
theorem readSize?_eq (data : Bytes) : readSize? data = some (size? data) := by
  by_cases hdata : IsSigned data
  · -- the length that has been tested is where the last slice ends
    have hlength : 24 ≤ data.length := hdata.1
    rw [readSize?, if_neg (mt unsigned_iff.mp (not_not.mpr hdata)),
      slice?_eq (by omega) (by omega)]
    by_cases hname : (data.drop 12).take 4 = headerName
    · obtain ⟨w, h, hsize⟩ := exists_declaresSize hdata hname
      rw [slice?_eq (by omega) (by omega), slice?_eq (by omega) (by omega),
        size?_of_declaresSize hsize]
      obtain ⟨hwidth, hheight⟩ := hsize.width_and_height
      simp only [Option.bind_eq_bind, Option.bind_some, Nat.reduceSub, hname, ne_eq,
        not_true_eq_false, if_false, number?_of_isBigEndian hwidth, number?_of_isBigEndian hheight]
    · rw [size?_of_name_ne hdata hname]
      exact if_pos hname
  · rw [readSize?, if_pos (unsigned_iff.mpr hdata), readUnrecognized?_eq,
      size?_of_not_isSigned hdata, Option.map_some]

/-! ### Main results -/

/-- **A size is read exactly off a header.** For data without one the error is that the header is
missing, if they are long enough for it and start with the signature, and else that they are not
recognized. All bytes that are read are there, and data with a size are a raster image. -/
theorem size?_reads_header (data : Bytes) :
    (∀ w h, size? data = .ok (w, h) ↔ DeclaresSize data w h) ∧
    ((∀ w h, ¬DeclaresSize data w h) →
      size? data = .error
        (if headerLength ≤ data.length ∧ signature <+: data then .noHeader
          else unrecognized data)) ∧
    readSize? data = some (size? data) ∧
    ∀ w h, size? data = .ok (w, h) → detect data = .ok .png := by
  refine ⟨fun w h ↦ ⟨declaresSize_of_size?, size?_of_declaresSize⟩, fun hnone ↦ ?_,
    readSize?_eq data, fun w h hsize ↦ detect_of_isSigned (declaresSize_of_size? hsize).isSigned⟩
  split
  · next hsigned =>
    refine size?_of_name_ne hsigned fun hname ↦ ?_
    obtain ⟨w, h, hdata⟩ := exists_declaresSize hsigned hname
    exact hnone w h hdata
  · next hunsigned => exact size?_of_not_isSigned hunsigned

/-- The header of an image of 600 by 150 pixels, with what follows it. -/
def sampleHeader : Bytes :=
  signature ++ [0, 0, 0, 13] ++ headerName ++ [0, 0, 2, 88] ++ [0, 0, 0, 150] ++ [8, 6, 0, 0, 0]

/-- The size is read from the sample, but not from a part of it that ends in the height. -/
theorem size?_reads_header_of_sample :
    DeclaresSize sampleHeader 600 150 ∧ size? sampleHeader = .ok (600, 150) ∧
      detect sampleHeader = .ok .png ∧
      size? (sampleHeader.take 23) = .error (unrecognized (sampleHeader.take 23)) := by
  obtain ⟨hread, -, -, hdetect⟩ := size?_reads_header sampleHeader
  obtain ⟨-, herror, -⟩ := size?_reads_header (sampleHeader.take 23)
  have hsample : DeclaresSize sampleHeader 600 150 :=
    ⟨[0, 0, 0, 13], [0, 0, 2, 88], [0, 0, 0, 150], [8, 6, 0, 0, 0], rfl, ⟨rfl, rfl⟩, ⟨rfl, rfl⟩, rfl⟩
  have hcut (w h : UInt32) : ¬DeclaresSize (sampleHeader.take 23) w h :=
    fun hdata ↦ absurd hdata.isSigned.1 (by decide)
  exact ⟨hsample, (hread 600 150).mpr hsample, hdetect 600 150 ((hread 600 150).mpr hsample),
    herror hcut⟩

end DocumentMath.Image
