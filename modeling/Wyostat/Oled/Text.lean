import Wyostat.Oled.Pixels
import Mathlib.Tactic.Ring

/-! Text: the glyphs of a font are drawn byte by byte, each over two pages of the buffer. -/
namespace Wyostat.Oled
open Raster

/-- The bytes of a font table, and what lies around it, by index. -/
abbrev Font := ℤ → UInt8

namespace Font

def height (font : Font) : UInt8 := font 1
def firstChar (font : Font) : UInt8 := font 2
def charNum (font : Font) : UInt8 := font 3

/-- One of the four bytes of an entry in the jump table; characters before the first one have
entries before the table. -/
def entry (font : Font) (code : UInt8) (byte : ℕ) : UInt8 :=
  font (4 + (code.toNat - font.firstChar.toNat : ℤ) * 4 + byte)

end Font

/-- One byte of a glyph. The offset of its first pixel in a page is never negative, and the branch
for negative ones is left out. -/
def drawInternalByte (color : Color) (xMove yMove : Int16) (rasterHeight i : ℕ)
    (currentByte : UInt8) (buffer : Frame) : Frame :=
  let yOffset := (yMove.toInt % 8).toNat
  let xPos := Int16.ofInt (xMove.toInt + (i / rasterHeight : ℕ))
  let yPos := Int16.ofInt ((yMove.toInt / 8 + (i % rasterHeight : ℕ)) * displayWidth)
  let dataPos := Int16.ofInt (xPos.toInt + yPos.toInt)
  if (0 ≤ dataPos ∧ dataPos.toInt < displayBufferSize) ∧ 0 ≤ xPos ∧ xPos.toInt < displayWidth then
    let dataPos := dataPos.toInt.toNat
    let buffer := Function.update buffer dataPos
      (color.put (UInt8.ofNat (currentByte.toNat <<< yOffset)) (buffer dataPos))
    if dataPos < displayBufferSize - displayWidth then
      Function.update buffer (dataPos + displayWidth)
        (color.put (UInt8.ofNat (currentByte.toNat >>> (8 - yOffset)))
          (buffer (dataPos + displayWidth)))
    else buffer
  else buffer

def drawInternalBytes (color : Color) (xMove yMove : Int16) (rasterHeight : ℕ) (data : ℕ → UInt8) :
    ℕ → ℕ → Frame → Frame
  | 0, _, buffer => buffer
  | n + 1, i, buffer =>
    drawInternalBytes color xMove yMove rasterHeight data n (i + 1)
      (drawInternalByte color xMove yMove rasterHeight i (data i) buffer)

def rasterHeight (height : Int16) : ℕ := (UInt8.ofInt (1 + (height.toInt - 1) / 8)).toNat

/-- The bytes of a glyph; a size of 0 stands for as many as the width and the height take. -/
def glyphBytes (width height : Int16) (bytesInData : UInt16) : ℕ :=
  (if bytesInData = 0 then UInt16.ofInt (width.toInt * rasterHeight height) else bytesInData).toNat

def drawInternal (color : Color) (buffer : Frame) (xMove yMove width height : Int16)
    (data : ℕ → UInt8) (bytesInData : UInt16) : Frame :=
  if width < 0 ∨ height < 0 then buffer
  else if yMove.toInt + height.toInt < 0 ∨ displayHeight < yMove.toInt then buffer
  else if xMove.toInt + width.toInt < 0 ∨ displayWidth < xMove.toInt then buffer
  else
    drawInternalBytes color xMove yMove (rasterHeight height) data
      (glyphBytes width height bytesInData) 0 buffer

section Glyphs
variable (color : Color)

theorem stamps_painted (f : Frame) {x p offset : ℕ} (hx : x < displayWidth) (hp : p < 8)
    (hoffset : offset < 8) (byte : UInt8) :
    Painted color f
      (let g := color.brush.stamp f (x + p * displayWidth) (UInt8.ofNat (byte.toNat <<< offset))
      if x + p * displayWidth < displayBufferSize - displayWidth then
        color.brush.stamp g (x + p * displayWidth + displayWidth)
          (UInt8.ofNat (byte.toNat >>> (8 - offset)))
      else g)
      fun a b => a = x ∧ ∃ k, bit byte k = true ∧ b = 8 * p + offset + k := by
  have hfirst := stamp_painted color f hx hp (UInt8.ofNat (byte.toNat <<< offset))
  have hspan (b k : ℕ) (hbit : bit byte k = true) (hb : b = 8 * p + offset + k) :
      b / 8 = p ∧ offset ≤ b % 8 ∧ b % 8 - offset = k ∨
        b / 8 = p + 1 ∧ 8 - offset + b % 8 = k := by
    have hk : k < 8 := by
      by_contra hk
      rw [bit_of_le byte (by omega)] at hbit
      cases hbit
    omega
  unfold displayWidth at hx
  dsimp only
  split
  next hbelow =>
    have hp' : p + 1 < 8 := by
      unfold displayBufferSize displayWidth at hbelow
      omega
    rw [show x + p * displayWidth + displayWidth = x + (p + 1) * displayWidth by ring]
    have hsecond := stamp_painted color
      (color.brush.stamp f (x + p * displayWidth) (UInt8.ofNat (byte.toNat <<< offset))) hx hp'
      (UInt8.ofNat (byte.toNat >>> (8 - offset)))
    apply (hfirst.trans hsecond fun a b ha hb => by omega).congr
    intro a b _ _
    rw [bit_shiftLeft _ _ (Nat.mod_lt _ (by decide)), bit_shiftRight _ _ (Nat.mod_lt _ (by decide)),
      Bool.and_eq_true, decide_eq_true_eq]
    constructor
    · rintro (⟨ha, hb, hle, hbit⟩ | ⟨ha, hb, hbit⟩)
      · exact ⟨ha, _, hbit, by omega⟩
      · exact ⟨ha, _, hbit, by omega⟩
    · rintro ⟨ha, k, hbit, hb⟩
      rcases hspan b k hbit hb with ⟨hpage, hle, hk⟩ | ⟨hpage, hk⟩
      · exact Or.inl ⟨ha, hpage, hle, by rw [hk]; exact hbit⟩
      · exact Or.inr ⟨ha, hpage, by rw [hk]; exact hbit⟩
  next hlast =>
    apply hfirst.congr
    intro a b _ hb
    have hp' : p = 7 := by
      unfold displayBufferSize displayWidth at hlast
      omega
    unfold displayHeight at hb
    rw [bit_shiftLeft _ _ (Nat.mod_lt _ (by decide)), Bool.and_eq_true, decide_eq_true_eq]
    constructor
    · rintro ⟨ha, hpage, hle, hbit⟩
      exact ⟨ha, _, hbit, by omega⟩
    · rintro ⟨ha, k, hbit, hb'⟩
      rcases hspan b k hbit hb' with ⟨hpage, hle, hk⟩ | ⟨hpage, hk⟩
      · exact ⟨ha, hpage, hle, by rw [hk]; exact hbit⟩
      · omega

theorem drawInternalByte_painted (f : Frame) (xMove yMove : Int16) (r i : ℕ) (byte : UInt8)
    (hx : xMove.toInt + (i / r : ℕ) ≤ 65534) (hy : -256 ≤ yMove.toInt ∧ yMove.toInt ≤ 64)
    (hr : i % r ≤ 32) :
    Painted color f (drawInternalByte color xMove yMove r i byte f) fun a b =>
      0 ≤ yMove.toInt / 8 + (i % r : ℕ) ∧ (a : ℤ) = xMove.toInt + (i / r : ℕ) ∧
        ∃ k, bit byte k = true ∧ (b : ℤ) = yMove.toInt + 8 * (i % r : ℕ) + k := by
  unfold drawInternalByte
  generalize i / r = column, i % r = row at *
  have hleft := xMove.le_toInt
  have hx' (a : ℕ) (ha : a < 128) :
      (a : ℤ) = (Int16.ofInt (xMove.toInt + column)).toInt ↔ (a : ℤ) = xMove.toInt + column :=
    ofInt_on_screen ⟨by omega, hx⟩ ha
  generalize Int16.ofInt (xMove.toInt + column) = xPos at *
  have hyPos : (Int16.ofInt ((yMove.toInt / 8 + row) * (displayWidth : ℕ))).toInt =
      (yMove.toInt / 8 + row) * 128 :=
    Int16.toInt_ofInt_of_le (by unfold displayWidth; omega) (by unfold displayWidth; omega)
  simp only [hyPos, Int16.le_iff_toInt_le, Int16.toInt_zero]
  by_cases hon : 0 ≤ xPos.toInt ∧ xPos.toInt < 128
  · have hdataPos : (Int16.ofInt (xPos.toInt + (yMove.toInt / 8 + row) * 128)).toInt =
        xPos.toInt + (yMove.toInt / 8 + row) * 128 :=
      Int16.toInt_ofInt_of_le (by omega) (by omega)
    rw [hdataPos]
    split
    next hpage =>
      unfold displayBufferSize at hpage
      have hptr : (xPos.toInt + (yMove.toInt / 8 + row) * 128).toNat =
          xPos.toInt.toNat + (yMove.toInt / 8 + row).toNat * displayWidth := by
        unfold displayWidth
        omega
      rw [hptr]
      have hstamps := stamps_painted color f (show xPos.toInt.toNat < displayWidth by
        unfold displayWidth; omega) (show (yMove.toInt / 8 + row).toNat < 8 by omega)
        (show (yMove.toInt % 8).toNat < 8 by omega) byte
      apply hstamps.congr
      intro a b ha _
      rw [← hx' a ha]
      constructor
      · rintro ⟨ha, k, hbit, hb⟩
        exact ⟨by omega, by omega, k, hbit, by omega⟩
      · rintro ⟨hrow, ha, k, hbit, hb⟩
        exact ⟨by omega, k, hbit, by omega⟩
    next hpage =>
      apply (Paints.refl color.brush displayHeight f).congr
      rintro a b _ hb
      refine ⟨False.elim, fun ⟨hrow, _, k, _, hb'⟩ => hpage ?_⟩
      unfold displayHeight at hb
      unfold displayBufferSize displayWidth
      omega
  · rw [if_neg fun h => hon (by unfold displayWidth at h; exact h.2)]
    apply (Paints.refl color.brush displayHeight f).congr
    rintro a b ha _
    refine ⟨False.elim, fun ⟨_, ha', _⟩ => hon ?_⟩
    have ha'' := (hx' a ha).mpr ha'
    unfold displayWidth at ha
    omega

theorem lt_of_bit {byte : UInt8} {k : ℕ} (h : bit byte k = true) : k < 8 := by
  by_contra hk
  rw [bit_of_le byte (by omega)] at h
  cases h

theorem drawInternalBytes_painted (xMove yMove : Int16) {r count : ℕ} (data : ℕ → UInt8)
    (hr : 0 < r ∧ r ≤ 32) (hy : -256 ≤ yMove.toInt ∧ yMove.toInt ≤ 64)
    (hx : ∀ i < count, xMove.toInt + (i / r : ℕ) ≤ 65534) (n i : ℕ) (hi : i + n = count)
    (f : Frame) :
    Painted color f (drawInternalBytes color xMove yMove r data n i f) fun a b =>
      ∃ j, (i ≤ j ∧ j < count) ∧ 0 ≤ yMove.toInt / 8 + (j % r : ℕ) ∧
        (a : ℤ) = xMove.toInt + (j / r : ℕ) ∧
        ∃ k, bit (data j) k = true ∧ (b : ℤ) = yMove.toInt + 8 * (j % r : ℕ) + k := by
  induction n generalizing i f with
  | zero =>
    apply (Paints.refl color.brush displayHeight f).congr
    intro a b _ _
    exact ⟨False.elim, fun ⟨j, hj, _⟩ => by omega⟩
  | succ n ih =>
    have hmod := Nat.mod_lt i hr.1
    have hbyte := drawInternalByte_painted color f xMove yMove r i (data i) (hx i (by omega)) hy
      (by omega)
    have hrest := ih (i + 1) (by omega) (drawInternalByte color xMove yMove r i (data i) f)
    apply (hbyte.trans hrest ?_).congr
    · intro a b _ _
      constructor
      · rintro (h | ⟨j, hj, h⟩)
        · exact ⟨i, by omega, h⟩
        · exact ⟨j, by omega, h⟩
      · rintro ⟨j, hj, h⟩
        rcases Nat.eq_or_lt_of_le hj.1 with rfl | hlt
        · exact Or.inl h
        · exact Or.inr ⟨j, by omega, h⟩
    -- different bytes of one column are different parts of it
    · rintro a b ⟨_, ha, k, hbit, hb⟩ ⟨j, hj, _, ha', k', hbit', hb'⟩
      have hk := lt_of_bit hbit
      have hk' := lt_of_bit hbit'
      have hdiv : i / r = j / r := by omega
      have hmod' : i % r = j % r := by omega
      have hij : i = j := by rw [← Nat.div_add_mod i r, ← Nat.div_add_mod j r, hdiv, hmod']
      omega

/-- A pixel of a glyph, whose bytes go down one column after the other. -/
def glyphBit (data : ℕ → UInt8) (r column row : ℕ) : Bool :=
  bit (data (column * r + row / 8)) (row % 8)

theorem rasterHeight_eq {height : Int16} (h : 1 ≤ height.toInt ∧ height.toInt ≤ 255) :
    (rasterHeight height : ℤ) = (height.toInt + 7) / 8 := by
  show (((UInt8.ofNat ((1 + (height.toInt - 1) / 8) % 2 ^ 8).toNat).toNat : ℕ) : ℤ) = _
  rw [UInt8.toNat_ofNat']
  omega

/-- Drawing a glyph paints its set bits that are on the screen, each once, and nothing else. Only
what reaches over the top of the screen may be missing: a byte that begins above it is lost. -/
theorem drawInternal_painted (f : Frame) (xMove yMove width height : Int16) (data : ℕ → UInt8)
    (bytesInData : UInt16) (hheight : 1 ≤ height.toInt ∧ height.toInt ≤ 255)
    (hbytes : (glyphBytes width height bytesInData : ℤ) ≤ width.toInt * rasterHeight height) :
    Painted color f (drawInternal color f xMove yMove width height data bytesInData) fun a b =>
      ∃ column row, row < 8 * rasterHeight height ∧
        column * rasterHeight height + row / 8 < glyphBytes width height bytesInData ∧
        glyphBit data (rasterHeight height) column row = true ∧
        (a : ℤ) = xMove.toInt + column ∧ (b : ℤ) = yMove.toInt + row ∧
        0 ≤ yMove.toInt / 8 + (row / 8 : ℕ) := by
  have hr := rasterHeight_eq hheight
  unfold drawInternal
  generalize rasterHeight height = r, glyphBytes width height bytesInData = count at *
  have hwidth (i : ℕ) (hi : i < count) : ((i / r : ℕ) : ℤ) < width.toInt := by
    have hlt : (i : ℤ) < width.toInt * r := by omega
    rw [Int.natCast_div]
    exact Int.ediv_lt_of_lt_mul (by omega) hlt
  have hleave (h : yMove.toInt + height.toInt < 0 ∨ 64 < yMove.toInt ∨
        xMove.toInt + width.toInt < 0 ∨ 128 < xMove.toInt) :
      Painted color f f fun a b =>
        ∃ column row, row < 8 * r ∧ column * r + row / 8 < count ∧
          glyphBit data r column row = true ∧
          (a : ℤ) = xMove.toInt + column ∧ (b : ℤ) = yMove.toInt + row ∧
          0 ≤ yMove.toInt / 8 + (row / 8 : ℕ) := by
    apply (Paints.refl color.brush displayHeight f).congr
    rintro a b ha hb
    refine ⟨False.elim, fun ⟨column, row, hrow, hcount, _, ha', hb', hpage⟩ => ?_⟩
    have hcolumn := hwidth _ hcount
    rw [Nat.mul_comm, Nat.mul_add_div (by omega), Nat.div_eq_of_lt (show row / 8 < r by omega)]
      at hcolumn
    unfold displayWidth at ha
    unfold displayHeight at hb
    omega
  simp only [Int16.lt_iff_toInt_lt, Int16.toInt_zero]
  show Painted color f (if width.toInt < 0 ∨ height.toInt < 0 then f
    else if yMove.toInt + height.toInt < 0 ∨ 64 < yMove.toInt then f
    else if xMove.toInt + width.toInt < 0 ∨ 128 < xMove.toInt then f else _) _
  split_ifs with hneg hrows hcolumns
  · have hneg' : width.toInt * r < 0 := Int.mul_neg_of_neg_of_pos (by omega) (by omega)
    omega
  · exact hleave (by omega)
  · exact hleave (by omega)
  · have hx (i : ℕ) (hi : i < count) : xMove.toInt + (i / r : ℕ) ≤ 65534 := by
      have hcolumn := hwidth i hi
      have hlt := width.toInt_lt
      omega
    have hdraw := drawInternalBytes_painted color xMove yMove data (by omega) (by omega) hx
      count 0 (Nat.zero_add _) f
    apply hdraw.congr
    intro a b _ _
    constructor
    · rintro ⟨j, hj, hpage, ha, k, hbit, hb⟩
      have hk := lt_of_bit hbit
      have hmod := Nat.mod_lt j (show 0 < r by omega)
      have hrow : (8 * (j % r) + k) / 8 = j % r := by omega
      have hindex : j / r * r + (8 * (j % r) + k) / 8 = j := by rw [hrow, Nat.div_add_mod']
      refine ⟨j / r, 8 * (j % r) + k, by omega, by omega, ?_, ha, by omega, by omega⟩
      unfold glyphBit
      rw [hindex, show (8 * (j % r) + k) % 8 = k by omega]
      exact hbit
    · rintro ⟨column, row, hrow, hcount, hbit, ha, hb, hpage⟩
      have hdiv : (column * r + row / 8) / r = column := by
        rw [Nat.mul_comm, Nat.mul_add_div (by omega), Nat.div_eq_of_lt (show row / 8 < r by omega)]
        rfl
      have hmod : (column * r + row / 8) % r = row / 8 := by
        rw [Nat.mul_comm, Nat.mul_add_mod, Nat.mod_eq_of_lt (by omega)]
      refine ⟨column * r + row / 8, ⟨Nat.zero_le _, hcount⟩, ?_, ?_, row % 8, hbit, ?_⟩
      · rw [hmod]
        exact hpage
      · rw [hdiv]
        exact ha
      · rw [hmod]
        omega

/-- A column of twelve pixels that begins five rows below the top of a page. -/
theorem drawInternal_painted_column :
    pixel displayWidth (drawInternal .white (fun _ => 0) 95 5 1 12 (fun _ => 0xFF) 2)
      95 13 = true :=
  (drawInternal_painted .white (fun _ => 0) 95 5 1 12 (fun _ => 0xFF) 2
    (by decide) (by decide)).inside
    95 13 (by decide) (by decide)
    ⟨0, 8, by decide, by decide, by decide, by decide, by decide, by decide⟩

end Glyphs

end Wyostat.Oled
