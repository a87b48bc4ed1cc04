import Wyostat.Oled.Drawing
import Mathlib.Tactic.Ring

/-! The drawing functions pixel by pixel: which pixels they paint, and that they paint no others. -/
namespace Wyostat.Oled
open Raster

section Colors

def Color.ink : Color → Bool → Bool
  | .white, _ => true
  | .black, _ => false
  | .inverse, b => !b

/-- A color as a way to change pixels. -/
def Color.brush (color : Color) : Brush where
  ink := color.ink
  byte := color.put
  bit_byte := by
    intro mask b k hk
    cases color
    · simp only [Color.put, Color.ink, bit_or]
      cases bit mask k <;> simp
    · simp only [Color.put, Color.ink, bit_and, bit_not _ hk]
      cases bit mask k <;> simp
    · simp only [Color.put, Color.ink, bit_xor]
      cases bit mask k <;> simp

theorem bit_all {k : ℕ} (h : k < 8) : bit 0xFF k = true := by
  have hall : ∀ k : Fin 8, bit 0xFF k = true := by decide
  exact hall ⟨k, h⟩

/-- Whole bytes are filled as eight pixels are. -/
theorem fill_eq_put (color : Color) (b : UInt8) : color.fill b = color.put 0xFF b := by
  apply bit_ext
  intro k hk
  have hput : bit (color.put 0xFF b) k = color.ink (bit b k) := by
    show bit (color.brush.byte 0xFF b) k = color.brush.ink (bit b k)
    rw [color.brush.bit_byte _ _ _ hk, if_pos (bit_all hk)]
  rw [hput]
  cases color
  · exact bit_all hk
  · simp [Color.fill, Color.ink, bit]
  · exact bit_not b hk

theorem bit_one {j k : ℕ} (hj : j < 8) (hk : k < 8) :
    bit (1 <<< UInt8.ofNat j) k = decide (k = j) := by
  have hall : ∀ j k : Fin 8, bit (1 <<< UInt8.ofNat j) k = decide (k = j) := by decide
  simpa [Fin.ext_iff] using hall ⟨j, hj⟩ ⟨k, hk⟩

theorem bit_rest {n k : ℕ} (hn : n < 8) (hk : k < 8) :
    bit (1 <<< UInt8.ofNat n - 1) k = decide (k < n) := by
  have hall : ∀ n k : Fin 8, bit (1 <<< UInt8.ofNat n - 1) k = decide (k.val < n.val) := by decide
  exact hall ⟨n, hn⟩ ⟨k, hk⟩

theorem bit_firstBits {offset length k : ℕ} (hpos : 0 < offset) (hoffset : offset < 8)
    (hk : k < 8) :
    bit (firstBits offset length) k = decide (offset ≤ k ∧ k < offset + length) := by
  have hlong : ∀ offset k : Fin 8, 0 < offset.val →
      bit (~~~(0xFF >>> UInt8.ofNat (8 - offset))) k = decide (offset.val ≤ k.val) := by decide
  have hshort : ∀ offset length k : Fin 8, 0 < offset.val → length.val < 8 - offset.val →
      bit (~~~(0xFF >>> UInt8.ofNat (8 - offset)) &&&
        (0xFF >>> UInt8.ofNat (8 - offset - length))) k =
      decide (offset.val ≤ k.val ∧ k.val < offset.val + length.val) := by decide
  unfold firstBits
  by_cases hlength : length < 8 - offset
  · rw [if_pos hlength]
    exact hshort ⟨offset, hoffset⟩ ⟨length, by omega⟩ ⟨k, hk⟩ hpos hlength
  · rw [if_neg hlength]
    have hbit := hlong ⟨offset, hoffset⟩ ⟨k, hk⟩ hpos
    rw [hbit]
    simp only [decide_eq_decide]
    omega

end Colors

/-- The second frame is the first one with the pixels of a region painted. -/
abbrev Painted (color : Color) (f g : Frame) (region : ℕ → ℕ → Prop) : Prop :=
  Paints displayWidth color.brush displayHeight f g region

variable (color : Color)

section Runs

theorem stamp_painted (f : Frame) {c p : ℕ} (hc : c < displayWidth) (hp : p < 8) (mask : UInt8) :
    Painted color f (color.brush.stamp f (c + p * displayWidth) mask) fun x y =>
      x = c ∧ y / 8 = p ∧ bit mask (y % 8) = true :=
  paints_stamp color.brush f hc hp mask

theorem drawRow_painted (drawBit : UInt8) {p : ℕ} (hp : p < 8) (n : ℕ) (f : Frame) (c : ℕ)
    (hfit : c + n ≤ displayWidth) :
    Painted color f (drawRow color drawBit n f (p * displayWidth + c)) fun x y =>
      (c ≤ x ∧ x < c + n) ∧ y / 8 = p ∧ bit drawBit (y % 8) = true := by
  induction n generalizing f c with
  | zero =>
    apply (Paints.refl color.brush displayHeight f).congr
    rintro x y _ _
    exact ⟨False.elim, fun ⟨hx, _⟩ => by omega⟩
  | succ n ih =>
    have hstamp := stamp_painted color f
      (show c < displayWidth by omega) hp drawBit
    have hrest := ih (color.brush.stamp f (c + p * displayWidth) drawBit) (c + 1) (by omega)
    rw [← Nat.add_assoc, Nat.add_comm _ c] at hrest
    rw [Nat.add_comm (p * displayWidth) c]
    apply (hstamp.trans hrest fun x y hx hy => by omega).congr
    intro x y _ _
    constructor
    · rintro (⟨hx, hy, hbit⟩ | ⟨hx, hy, hbit⟩)
      · exact ⟨by omega, hy, hbit⟩
      · exact ⟨by omega, hy, hbit⟩
    · rintro ⟨hx, hy, hbit⟩
      rcases Nat.eq_or_lt_of_le hx.1 with h | h
      · exact Or.inl ⟨h.symm, hy, hbit⟩
      · exact Or.inr ⟨by omega, hy, hbit⟩

theorem drawPages_painted {c : ℕ} (hc : c < displayWidth) (n : ℕ) (f : Frame) (p : ℕ)
    (hfit : p + n ≤ 8) :
    Painted color f (drawPages color n f (p * displayWidth + c)) fun x y =>
      x = c ∧ p ≤ y / 8 ∧ y / 8 < p + n := by
  induction n generalizing f p with
  | zero =>
    apply (Paints.refl color.brush displayHeight f).congr
    rintro x y _ _
    exact ⟨False.elim, fun ⟨_, hy⟩ => by omega⟩
  | succ n ih =>
    have hstamp := stamp_painted color f hc
      (show p < 8 by omega) 0xFF
    have hrest := ih (color.brush.stamp f (c + p * displayWidth) 0xFF) (p + 1) (by omega)
    have hnext : (p + 1) * displayWidth + c = p * displayWidth + c + displayWidth := by ring
    rw [hnext] at hrest
    have hdraw : drawPages color (n + 1) f (p * displayWidth + c) =
        drawPages color n (color.brush.stamp f (c + p * displayWidth) 0xFF)
          (p * displayWidth + c + displayWidth) := by
      rw [drawPages, fill_eq_put, Nat.add_comm c]
      rfl
    rw [hdraw]
    apply (hstamp.trans hrest fun x y hx hy => by omega).congr
    intro x y _ _
    have hbit := bit_all (Nat.mod_lt y (show 0 < 8 by decide))
    simp only [hbit, and_true]
    omega

theorem drawPagesAndRest_painted {c : ℕ} (hc : c < displayWidth) (f : Frame) (p length : ℕ)
    (hfit : p * 8 + length ≤ displayHeight) :
    Painted color f (drawPagesAndRest color f (p * displayWidth + c) length) fun x y =>
      x = c ∧ p * 8 ≤ y ∧ y < p * 8 + length := by
  unfold displayHeight at hfit
  have hpages := drawPages_painted color hc (length / 8) f p (by omega)
  have hptr : p * displayWidth + c + length / 8 * displayWidth =
      c + (p + length / 8) * displayWidth := by ring
  unfold drawPagesAndRest
  simp only [hptr]
  by_cases hrest : 0 < length % 8
  · rw [if_pos hrest]
    have hstamp := stamp_painted color
      (drawPages color (length / 8) f (p * displayWidth + c)) hc
      (show p + length / 8 < 8 by omega)
      (1 <<< UInt8.ofNat (length % 8) - 1)
    apply (hpages.trans hstamp fun x y hx hy => by omega).congr
    intro x y _ _
    rw [bit_rest (Nat.mod_lt _ (by decide)) (Nat.mod_lt _ (by decide))]
    simp only [decide_eq_true_eq]
    omega
  · rw [if_neg hrest]
    apply hpages.congr
    intro x y _ _
    omega

theorem drawColumn_painted {x : ℕ} (hx : x < displayWidth) (f : Frame) (y length : ℕ)
    (hfit : y + length ≤ displayHeight) :
    Painted color f (drawColumn color f x y length) fun a b => a = x ∧ y ≤ b ∧ b < y + length := by
  have hptr : y / 8 * displayWidth + x + displayWidth = (y / 8 + 1) * displayWidth + x := by ring
  unfold drawColumn
  unfold displayHeight at hfit
  simp only [hptr]
  by_cases hoffset : y % 8 ≠ 0
  · rw [if_pos hoffset]
    have hstamp := stamp_painted color f hx (show y / 8 < 8 by omega) (firstBits (y % 8) length)
    have hfirst : Painted color f
        (color.brush.stamp f (x + y / 8 * displayWidth) (firstBits (y % 8) length))
        fun a b => a = x ∧ b / 8 = y / 8 ∧ y ≤ b ∧ b < y + length := by
      apply hstamp.congr
      intro a b _ _
      rw [bit_firstBits (by omega) (Nat.mod_lt _ (by decide)) (Nat.mod_lt _ (by decide))]
      simp only [decide_eq_true_eq]
      omega
    rw [Nat.add_comm _ x]
    by_cases hshort : length < 8 - y % 8
    · rw [if_pos hshort]
      apply hfirst.congr
      intro a b _ _
      omega
    · rw [if_neg hshort]
      have hrest := drawPagesAndRest_painted color hx
        (color.brush.stamp f (x + y / 8 * displayWidth) (firstBits (y % 8) length)) (y / 8 + 1)
        (length - (8 - y % 8)) (by unfold displayHeight; omega)
      apply (hfirst.trans hrest fun a b ha hb => by omega).congr
      intro a b _ _
      omega
  · rw [if_neg hoffset]
    apply (drawPagesAndRest_painted color hx f (y / 8) length
      (by unfold displayHeight; omega)).congr
    intro a b _ _
    omega

end Runs

section Lines

/-- A clipped line does not leave the screen, even where its length has wrapped around. -/
theorem clip_on_screen (size : ℤ) (hsize : 0 ≤ size ∧ size ≤ 128) (start length : Int16) :
    0 ≤ (clip size start length).2.toInt ∧
      (clip size start length).2.toInt + (clip size start length).1.toInt ≤ size := by
  have hstart := start.toInt_lt
  unfold clip
  by_cases hneg : start < 0
  · have hsize' : (Int16.ofInt (size - 0)).toInt = size - 0 :=
      Int16.toInt_ofInt_of_le (by omega) (by omega)
    simp only [if_pos hneg]
    split
    · simp only [hsize', Int16.toInt_zero]
      omega
    · simp only [Int16.toInt_zero] at *
      omega
  · have hneg' : ¬ start.toInt < 0 := fun h => hneg (Int16.lt_iff_toInt_lt.mpr h)
    have hsize' : (Int16.ofInt (size - start.toInt)).toInt = size - start.toInt :=
      Int16.toInt_ofInt_of_le (by omega) (by omega)
    simp only [if_neg hneg]
    split
    · simp only [hsize']
      omega
    · dsimp only
      omega

theorem clip_spec (size : ℤ) (hsize : 0 ≤ size ∧ size ≤ 128) (start length : Int16)
    (hfit : -32768 ≤ start.toInt + length.toInt) {b : ℤ} (hb : 0 ≤ b ∧ b < size) :
    ((clip size start length).2.toInt ≤ b ∧
        b < (clip size start length).2.toInt + (clip size start length).1.toInt) ↔
      start.toInt ≤ b ∧ b < start.toInt + length.toInt := by
  have hstart := start.toInt_lt
  have hlength := length.toInt_lt
  unfold clip
  by_cases hneg : start < 0
  · have hneg' : start.toInt < 0 := Int16.lt_iff_toInt_lt.mp hneg
    have hcut : (Int16.ofInt (length.toInt + start.toInt)).toInt = length.toInt + start.toInt :=
      Int16.toInt_ofInt_of_le (by omega) (by omega)
    have hsize' : (Int16.ofInt (size - 0)).toInt = size - 0 :=
      Int16.toInt_ofInt_of_le (by omega) (by omega)
    simp only [if_pos hneg, hcut, Int16.toInt_zero]
    split
    · simp only [hsize', Int16.toInt_zero]
      omega
    · simp only [hcut, Int16.toInt_zero]
      omega
  · have hneg' : ¬ start.toInt < 0 := fun h => hneg (Int16.lt_iff_toInt_lt.mpr h)
    have hsize' : (Int16.ofInt (size - start.toInt)).toInt = size - start.toInt :=
      Int16.toInt_ofInt_of_le (by omega) (by omega)
    simp only [if_neg hneg]
    split
    · simp only [hsize']
      omega
    · exact Iff.rfl

theorem setPixel_painted (f : Frame) (x y : Int16) :
    Painted color f (setPixel color f x y) fun a b => (a : ℤ) = x.toInt ∧ (b : ℤ) = y.toInt := by
  unfold setPixel
  simp only [Int16.le_iff_toInt_le, Int16.lt_iff_toInt_lt]
  show Painted color f (if 0 ≤ x.toInt ∧ x.toInt < 128 ∧ 0 ≤ y.toInt ∧ y.toInt < 64 then _ else f) _
  split
  next hon =>
    have hstamp := stamp_painted color f (show x.toInt.toNat < displayWidth by
      show x.toInt.toNat < 128; omega) (show y.toInt.toNat / 8 < 8 by omega)
      (1 <<< UInt8.ofNat (y.toInt.toNat % 8))
    apply hstamp.congr
    intro a b _ _
    rw [bit_one (Nat.mod_lt _ (by decide)) (Nat.mod_lt _ (by decide))]
    simp only [decide_eq_true_eq]
    omega
  next hoff =>
    apply (Paints.refl color.brush displayHeight f).congr
    intro a b ha hb
    refine ⟨False.elim, fun ⟨hx, hy⟩ => hoff ?_⟩
    unfold displayWidth at ha
    unfold displayHeight at hb
    omega

theorem drawHorizontalLine_clipped (f : Frame) (x y length : Int16) :
    Painted color f (drawHorizontalLine color f x y length) fun a b =>
      ((clip 128 x length).2.toInt ≤ a ∧
          a < (clip 128 x length).2.toInt + (clip 128 x length).1.toInt) ∧ (b : ℤ) = y.toInt := by
  obtain ⟨hleft, hright⟩ := clip_on_screen 128 (by decide) x length
  unfold drawHorizontalLine
  simp only [Int16.le_iff_toInt_le, Int16.lt_iff_toInt_lt]
  show Painted color f (if y.toInt < 0 ∨ 64 ≤ y.toInt then f else
    if (clip 128 x length).1.toInt ≤ 0 then f else _) _
  split
  next hoff =>
    apply (Paints.refl color.brush displayHeight f).congr
    intro a b ha hb
    unfold displayHeight at hb
    exact ⟨False.elim, fun ⟨_, hy⟩ => by omega⟩
  next hon =>
    split
    next hempty =>
      apply (Paints.refl color.brush displayHeight f).congr
      intro a b _ _
      exact ⟨False.elim, fun ⟨hx, _⟩ => by omega⟩
    next hsome =>
      have hrow := drawRow_painted color (1 <<< UInt8.ofNat (y.toInt.toNat % 8))
        (show y.toInt.toNat / 8 < 8 by omega) (clip 128 x length).1.toInt.toNat f
        (clip 128 x length).2.toInt.toNat (by unfold displayWidth; omega)
      apply hrow.congr
      intro a b _ _
      rw [bit_one (Nat.mod_lt _ (by decide)) (Nat.mod_lt _ (by decide))]
      simp only [decide_eq_true_eq]
      omega

theorem drawVerticalLine_clipped (f : Frame) (x y length : Int16) :
    Painted color f (drawVerticalLine color f x y length) fun a b =>
      (a : ℤ) = x.toInt ∧ (clip 64 y length).2.toInt ≤ b ∧
        b < (clip 64 y length).2.toInt + (clip 64 y length).1.toInt := by
  obtain ⟨htop, hbottom⟩ := clip_on_screen 64 (by decide) y length
  unfold drawVerticalLine
  simp only [Int16.le_iff_toInt_le, Int16.lt_iff_toInt_lt]
  show Painted color f (if x.toInt < 0 ∨ 128 ≤ x.toInt then f else
    if (clip 64 y length).1.toInt ≤ 0 then f else _) _
  split
  next hoff =>
    apply (Paints.refl color.brush displayHeight f).congr
    intro a b ha hb
    unfold displayWidth at ha
    exact ⟨False.elim, fun ⟨hx, _⟩ => by omega⟩
  next hon =>
    split
    next hempty =>
      apply (Paints.refl color.brush displayHeight f).congr
      intro a b _ _
      exact ⟨False.elim, fun ⟨_, hy⟩ => by omega⟩
    next hsome =>
      have hcolumn := drawColumn_painted color (show x.toInt.toNat < displayWidth by
        unfold displayWidth; omega) f (clip 64 y length).2.toInt.toNat
        (clip 64 y length).1.toInt.toNat (by unfold displayHeight; omega)
      apply hcolumn.congr
      intro a b _ _
      omega

theorem drawVerticalLine_painted (f : Frame) (x y length : Int16)
    (hfit : -32768 ≤ y.toInt + length.toInt) :
    Painted color f (drawVerticalLine color f x y length) fun a b =>
      (a : ℤ) = x.toInt ∧ y.toInt ≤ b ∧ (b : ℤ) < y.toInt + length.toInt := by
  apply (drawVerticalLine_clipped color f x y length).congr
  intro a b _ hb
  unfold displayHeight at hb
  rw [clip_spec 64 (by decide) y length hfit (by omega)]

end Lines

section Areas

theorem fillColumns_painted (y height : Int16) (hfit : -32768 ≤ y.toInt + height.toInt) (n : ℕ)
    (f : Frame) (x : ℤ) (hx : -32768 ≤ x) (hend : x + n ≤ 32767) :
    Painted color f (fillColumns color y height n f x) fun a b =>
      (x ≤ a ∧ (a : ℤ) < x + n) ∧ y.toInt ≤ b ∧ (b : ℤ) < y.toInt + height.toInt := by
  induction n generalizing f x with
  | zero =>
    apply (Paints.refl color.brush displayHeight f).congr
    intro a b _ _
    exact ⟨False.elim, fun ⟨ha, _⟩ => by omega⟩
  | succ n ih =>
    have hline := drawVerticalLine_painted color f (Int16.ofInt x) y height hfit
    have hrest := ih (drawVerticalLine color f (Int16.ofInt x) y height) (x + 1)
      (by omega) (by omega)
    rw [Int16.toInt_ofInt_of_le (by omega) (by omega)] at hline
    apply (hline.trans hrest fun a b ha hb => by omega).congr
    intro a b _ _
    omega

theorem fillRect_painted (f : Frame) (xMove yMove width height : Int16)
    (hend : xMove.toInt + width.toInt ≤ 32767) (hfit : -32768 ≤ yMove.toInt + height.toInt) :
    ∃ g, fillRect color f xMove yMove width height = some g ∧ Painted color f g fun a b =>
      (xMove.toInt ≤ a ∧ (a : ℤ) < xMove.toInt + width.toInt) ∧
        yMove.toInt ≤ b ∧ (b : ℤ) < yMove.toInt + height.toInt := by
  have hleft := xMove.le_toInt
  have hright := xMove.toInt_lt
  have hfill := fillColumns_painted color yMove height hfit width.toInt.toNat f xMove.toInt
    (by omega) (by omega)
  refine ⟨_, if_pos hend, hfill.congr ?_⟩
  intro a b _ _
  omega

/-- A rectangle pixel by pixel. -/
def setPixels (color : Color) (buffer : Frame) (xMove yMove width height : Int16) : Frame :=
  (List.range width.toInt.toNat).foldl (fun buffer (i : ℕ) =>
    (List.range height.toInt.toNat).foldl (fun buffer (j : ℕ) =>
      setPixel color buffer (Int16.ofInt (xMove.toInt + i)) (Int16.ofInt (yMove.toInt + j)))
      buffer) buffer

/-- A coordinate that wraps around is left of the screen or above it, as it was right of it or below
it before. -/
theorem ofInt_on_screen {v : ℤ} (hv : -32768 ≤ v ∧ v ≤ 65534) {a : ℕ} (ha : a < 128) :
    (a : ℤ) = (Int16.ofInt v).toInt ↔ (a : ℤ) = v := by
  rw [Int16.toInt_ofInt, Int.bmod_def]
  show (a : ℤ) = (if v % 65536 < (65536 + 1) / 2 then v % 65536 else v % 65536 - 65536) ↔ _
  split <;> omega

theorem setPixels_painted (f : Frame) (xMove yMove width height : Int16) :
    Painted color f (setPixels color f xMove yMove width height) fun a b =>
      ∃ i < width.toInt.toNat, ∃ j < height.toInt.toNat,
        (a : ℤ) = xMove.toInt + i ∧ (b : ℤ) = yMove.toInt + j := by
  have hxMove := xMove.le_toInt
  have hxMove' := xMove.toInt_lt
  have hyMove := yMove.le_toInt
  have hyMove' := yMove.toInt_lt
  have hwidth := width.toInt_lt
  have hheight := height.toInt_lt
  unfold setPixels
  apply paints_foldl fun i a b => ∃ j < height.toInt.toNat,
    (a : ℤ) = xMove.toInt + i ∧ (b : ℤ) = yMove.toInt + j
  · intro f i hi
    apply paints_foldl fun j a b => (a : ℤ) = xMove.toInt + i ∧ (b : ℤ) = yMove.toInt + j
    · intro f j hj
      apply (setPixel_painted color f _ _).congr
      intro a b ha hb
      have hb' : b < 128 := lt_trans hb (by decide)
      rw [ofInt_on_screen (by omega) ha, ofInt_on_screen (by omega) hb']
    · rintro j hj k hk hne a b ⟨_, hb⟩ ⟨_, hb'⟩
      omega
  · rintro i hi k hk hne a b ⟨j, _, ha, _⟩ ⟨j', _, ha', _⟩
    omega

/-- The lines of a filled rectangle, in whole bytes where they fit, draw what pixels would. -/
theorem fillRect_eq_setPixels (f : Frame) (xMove yMove width height : Int16)
    (hend : xMove.toInt + width.toInt ≤ 32767) (hfit : -32768 ≤ yMove.toInt + height.toInt) :
    fillRect color f xMove yMove width height =
      some (setPixels color f xMove yMove width height) := by
  obtain ⟨g, hg, hpaint⟩ := fillRect_painted color f xMove yMove width height hend hfit
  rw [hg]
  refine congrArg some (hpaint.unique (by decide) ?_)
  apply (setPixels_painted color f xMove yMove width height).congr
  intro a b _ _
  constructor
  · rintro ⟨i, hi, j, hj, ha, hb⟩
    omega
  · rintro ⟨ha, hb⟩
    exact ⟨(a - xMove.toInt).toNat, by omega, (b - yMove.toInt).toNat, by omega, by omega, by omega⟩

theorem fillRect_eq_setPixels_area :
    fillRect .black (fun _ => 0xFF) 16 16 32 32 =
      some (setPixels .black (fun _ => 0xFF) 16 16 32 32) :=
  fillRect_eq_setPixels .black _ 16 16 32 32 (by decide) (by decide)

/-- A bit of a picture of a width in whole bytes to a row, lowest bit left. -/
def xbmBit (xbm : ℕ → UInt8) (width i j : ℕ) : Bool :=
  bit (xbm (i / 8 + j * ((width + 7) / 8))) (i % 8)

/-- Before the bit in column `x`, unless it is the first of a byte, `data` holds the byte shifted so
far that this bit comes next. -/
theorem drawXbmRow_painted (xbm : ℕ → UInt8) (xMove yMove : Int16) {width y : ℕ}
    (hwidth : width ≤ 32767) (hy : y < 32767) (n x : ℕ) (hx : x + n = width) (data : UInt8)
    (hdata : x % 8 ≠ 0 → ∀ k, bit data (k + 1) =
      bit (xbm (x / 8 + y * ((width + 7) / 8))) (k + x % 8)) (f : Frame) :
    Painted color f (drawXbmRow color xbm xMove yMove (y * ((width + 7) / 8)) y n x data f)
      fun a b => ∃ i, x ≤ i ∧ i < width ∧ (a : ℤ) = xMove.toInt + i ∧ (b : ℤ) = yMove.toInt + y ∧
        xbmBit xbm width i y = true := by
  induction n generalizing x data f with
  | zero =>
    apply (Paints.refl color.brush displayHeight f).congr
    intro a b _ _
    exact ⟨False.elim, fun ⟨i, hi, hlt, _⟩ => by omega⟩
  | succ n ih =>
    rw [drawXbmRow]
    generalize hnow : (if x % 8 ≠ 0 then data >>> 1 else xbm (x / 8 + y * ((width + 7) / 8))) = now
    have hbits (k : ℕ) : bit now k = bit (xbm (x / 8 + y * ((width + 7) / 8))) (k + x % 8) := by
      rw [← hnow]
      split
      next hshift => rw [bit_shiftRight_one, hdata hshift]
      next hread => rw [show k + x % 8 = k by omega]
    have hfirst : Painted color f (if now &&& 0x01 ≠ 0 then
        setPixel color f (Int16.ofInt (xMove.toInt + x)) (Int16.ofInt (yMove.toInt + y)) else f)
        fun a b => (a : ℤ) = xMove.toInt + x ∧ (b : ℤ) = yMove.toInt + y ∧
          xbmBit xbm width x y = true := by
      have hset : now &&& 0x01 ≠ 0 ↔ xbmBit xbm width x y = true := by
        rw [and_one_ne_zero, hbits 0, Nat.zero_add]
        rfl
      have hxMove := xMove.le_toInt
      have hxMove' := xMove.toInt_lt
      have hyMove := yMove.le_toInt
      have hyMove' := yMove.toInt_lt
      split
      next hon =>
        apply (setPixel_painted color f _ _).congr
        intro a b ha hb
        have hb' : b < 128 := lt_trans hb (by decide)
        rw [ofInt_on_screen (by omega) ha, ofInt_on_screen (by omega) hb']
        simp only [hset.mp hon, and_true]
      next hoff =>
        apply (Paints.refl color.brush displayHeight f).congr
        intro a b _ _
        exact ⟨False.elim, fun ⟨_, _, hbit⟩ => hoff (hset.mpr hbit)⟩
    have hrest (g : Frame) := ih (x + 1) (by omega) now (fun hnext k => by
      rw [hbits, show (x + 1) / 8 = x / 8 by omega,
        show k + (x + 1) % 8 = k + 1 + x % 8 by omega]) g
    apply (hfirst.trans (hrest _) ?_).congr
    · intro a b _ _
      constructor
      · rintro (⟨ha, hb, hbit⟩ | ⟨i, hi, hlt, ha, hb, hbit⟩)
        · exact ⟨x, le_refl x, by omega, ha, hb, hbit⟩
        · exact ⟨i, by omega, hlt, ha, hb, hbit⟩
      · rintro ⟨i, hi, hlt, ha, hb, hbit⟩
        rcases Nat.eq_or_lt_of_le hi with rfl | hi
        · exact Or.inl ⟨ha, hb, hbit⟩
        · exact Or.inr ⟨i, hi, hlt, ha, hb, hbit⟩
    · rintro a b ⟨ha, _, _⟩ ⟨i, hi, _, ha', _⟩
      omega

theorem drawXbmRows_painted (xbm : ℕ → UInt8) (xMove yMove : Int16) {width height : ℕ}
    (hwidth : width ≤ 32767) (hheight : height ≤ 32767) (n y : ℕ) (hy : y + n = height)
    (f : Frame) :
    Painted color f (drawXbmRows color xbm xMove yMove width n y f) fun a b =>
      ∃ i j, i < width ∧ (y ≤ j ∧ j < height) ∧ (a : ℤ) = xMove.toInt + i ∧
        (b : ℤ) = yMove.toInt + j ∧ xbmBit xbm width i j = true := by
  induction n generalizing y f with
  | zero =>
    apply (Paints.refl color.brush displayHeight f).congr
    intro a b _ _
    exact ⟨False.elim, fun ⟨i, j, _, hj, _⟩ => by omega⟩
  | succ n ih =>
    have hrow := drawXbmRow_painted color xbm xMove yMove hwidth (show y < 32767 by omega) width 0
      (Nat.zero_add width) 0 (fun h => absurd rfl h) f
    have hrest := ih (y + 1) (by omega)
      (drawXbmRow color xbm xMove yMove (y * ((width + 7) / 8)) y width 0 0 f)
    rw [drawXbmRows]
    apply (hrow.trans hrest ?_).congr
    · intro a b _ _
      constructor
      · rintro (⟨i, _, hi, ha, hb, hbit⟩ | ⟨i, j, hi, hj, ha, hb, hbit⟩)
        · exact ⟨i, y, hi, ⟨le_refl y, by omega⟩, ha, hb, hbit⟩
        · exact ⟨i, j, hi, ⟨by omega, hj.2⟩, ha, hb, hbit⟩
      · rintro ⟨i, j, hi, hj, ha, hb, hbit⟩
        rcases Nat.eq_or_lt_of_le hj.1 with rfl | hlt
        · exact Or.inl ⟨i, Nat.zero_le i, hi, ha, hb, hbit⟩
        · exact Or.inr ⟨i, j, hi, ⟨hlt, hj.2⟩, ha, hb, hbit⟩
    · rintro a b ⟨i, _, _, _, hb, _⟩ ⟨i', j, _, hj, _, hb', _⟩
      omega

/-- Drawing a picture paints the pixels of its set bits that are on the screen, each once, and
nothing else. -/
theorem drawXbm_painted (f : Frame) (xMove yMove width height : Int16) (xbm : ℕ → UInt8) :
    Painted color f (drawXbm color f xMove yMove width height xbm) fun a b =>
      ∃ i j : ℕ, (i : ℤ) < width.toInt ∧ (j : ℤ) < height.toInt ∧ (a : ℤ) = xMove.toInt + i ∧
        (b : ℤ) = yMove.toInt + j ∧ xbmBit xbm width.toInt.toNat i j = true := by
  have hwidth := width.toInt_lt
  have hheight := height.toInt_lt
  have hrows := drawXbmRows_painted color xbm xMove yMove (show width.toInt.toNat ≤ 32767 by omega)
    (show height.toInt.toNat ≤ 32767 by omega) height.toInt.toNat 0 (Nat.zero_add _) f
  apply hrows.congr
  intro a b _ _
  constructor
  · rintro ⟨i, j, hi, hj, hrest⟩
    exact ⟨i, j, by omega, by omega, hrest⟩
  · rintro ⟨i, j, hi, hj, hrest⟩
    exact ⟨i, j, by omega, ⟨Nat.zero_le j, by omega⟩, hrest⟩

end Areas

end Wyostat.Oled
