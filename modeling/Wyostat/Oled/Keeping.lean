import Wyostat.Oled.Strings

/-! What drawing leaves alone: the memory behind the buffer, whatever is drawn, and the columns left
of a text. -/
namespace Wyostat.Oled
open Raster

/-- The second frame is the first one but for some columns. -/
abbrev Kept (columns : ℕ → Prop) (f g : Frame) : Prop :=
  Keeps displayWidth displayHeight columns f g

variable {C : ℕ → Prop} {f g : Frame}

section Shapes
variable (color : Color)

theorem setPixel_kept (f : Frame) {x : Int16} (y : Int16)
    (h : ∀ a : ℕ, a < 128 → (a : ℤ) = x.toInt → C a) :
    Kept C f (setPixel color f x y) :=
  (setPixel_painted color f x y).keeps fun a _ ha _ hR => h a ha hR.1

theorem drawHorizontalLine_kept (f : Frame) (x y length : Int16) :
    Kept (fun _ => True) f (drawHorizontalLine color f x y length) :=
  (drawHorizontalLine_clipped color f x y length).keeps fun _ _ _ _ _ => trivial

theorem drawVerticalLine_kept (f : Frame) {x : Int16} (y length : Int16)
    (h : ∀ a : ℕ, a < 128 → (a : ℤ) = x.toInt → C a) :
    Kept C f (drawVerticalLine color f x y length) :=
  (drawVerticalLine_clipped color f x y length).keeps fun a _ ha _ hR => h a ha hR.1

theorem fillColumns_kept (y height : Int16) (n : ℕ) (f : Frame) (x : ℤ) :
    Kept (fun _ => True) f (fillColumns color y height n f x) := by
  induction n generalizing f x with
  | zero => exact Keeps.refl ..
  | succ n ih => exact (drawVerticalLine_kept color f y height fun _ _ _ => trivial).trans (ih _ _)

theorem fillRect_kept {xMove yMove width height : Int16}
    (h : fillRect color f xMove yMove width height = some g) : Kept (fun _ => True) f g := by
  unfold fillRect at h
  split at h
  · cases h
    exact fillColumns_kept color yMove height _ f _
  · cases h

theorem drawLineFrom_kept (steep : Bool) (dx dy ystep : Int16) (n : ℕ) (x0 : ℤ) (y0 err : Int16)
    (f : Frame) :
    Kept (fun _ => True) f (drawLineFrom color steep dx dy ystep n x0 y0 err f) := by
  induction n generalizing x0 y0 err f with
  | zero => exact Keeps.refl ..
  | succ n ih =>
    have hpoint : Kept (fun _ => True) f (if steep then setPixel color f y0 (Int16.ofInt x0)
        else setPixel color f (Int16.ofInt x0) y0) := by
      split <;> exact setPixel_kept color f _ fun _ _ _ => trivial
    rw [drawLineFrom]
    split
    · exact hpoint.trans (ih _ _ _ _)
    · exact hpoint.trans (ih _ _ _ _)

theorem drawLineRight_kept {steep : Bool} {x0 y0 x1 y1 : Int16}
    (h : drawLineRight color f steep x0 y0 x1 y1 = some g) : Kept (fun _ => True) f g := by
  unfold drawLineRight at h
  dsimp only at h
  split at h
  · cases h
    exact drawLineFrom_kept ..
  · cases h

theorem drawLine_kept {x0 y0 x1 y1 : Int16} (h : drawLine color f x0 y0 x1 y1 = some g) :
    Kept (fun _ => True) f g := drawLineRight_kept color h

theorem drawRect_kept (f : Frame) (x y width height : Int16) :
    Kept (fun _ => True) f (drawRect color f x y width height) :=
  (((drawHorizontalLine_kept color f _ _ _).trans
    (drawVerticalLine_kept color _ _ _ fun _ _ _ => trivial)).trans
    (drawVerticalLine_kept color _ _ _ fun _ _ _ => trivial)).trans
    (drawHorizontalLine_kept color _ _ _ _)

theorem octant_kept {plot : Int16 → Int16 → Frame → Frame}
    (hplot : ∀ x y f, Kept (fun _ => True) f (plot x y f)) (o : Octant) (f : Frame) :
    Kept (fun _ => True) f (o.draw plot f) := by
  induction o, f using Octant.draw.induct plot with
  | case1 o f h ih =>
    rw [Octant.draw, if_pos h]
    exact (hplot _ _ f).trans ih
  | case2 o f h =>
    rw [Octant.draw, if_neg h]
    exact Keeps.refl ..

theorem octantOnce_kept {plot : Int16 → Int16 → Frame → Frame}
    (hplot : ∀ x y f, Kept (fun _ => True) f (plot x y f)) (o : Octant) (f : Frame) :
    Kept (fun _ => True) f (o.drawOnce plot f) :=
  (hplot _ _ f).trans (octant_kept hplot _ _)

theorem setPoints_kept (points : List (Int16 × Int16)) (f : Frame) :
    Kept (fun _ => True) f (setPoints color points f) := by
  induction points generalizing f with
  | nil => exact Keeps.refl ..
  | cons p points ih => exact (setPixel_kept color f _ fun _ _ _ => trivial).trans (ih _)

theorem drawCircle_kept (f : Frame) (x0 y0 radius : Int16) :
    Kept (fun _ => True) f (drawCircle color f x0 y0 radius) :=
  (octantOnce_kept (fun _ _ f => setPoints_kept color _ f) _ f).trans (setPoints_kept color _ _)

theorem drawCircleQuads_kept (f : Frame) (x0 y0 radius : Int16) (quads : UInt8) :
    Kept (fun _ => True) f (drawCircleQuads color f x0 y0 radius quads) :=
  (octant_kept (fun _ _ f => setPoints_kept color _ f) _ f).trans (setPoints_kept color _ _)

theorem fillCircle_kept (f : Frame) (x0 y0 radius : Int16) :
    Kept (fun _ => True) f (fillCircle color f x0 y0 radius) := by
  have hline (f : Frame) (x y length : Int16) := drawHorizontalLine_kept color f x y length
  refine Keeps.trans (octantOnce_kept (fun x y f => ?_) _ f) (hline _ _ _ _)
  exact (((hline f _ _ _).trans (hline _ _ _ _)).trans (hline _ _ _ _)).trans (hline _ _ _ _)

theorem drawProgressBar_kept {x y width height : UInt16} {progress : UInt8}
    (h : drawProgressBar f x y width height progress = some g) : Kept (fun _ => True) f g := by
  obtain ⟨g', hfill, rfl⟩ := Option.map_eq_some_iff.mp h
  refine Keeps.trans ?_ (fillCircle_kept .white g' _ _ _)
  refine Keeps.trans ?_ (fillRect_kept .white hfill)
  refine Keeps.trans ?_ (fillCircle_kept .white _ _ _ _)
  refine Keeps.trans ?_ (drawCircleQuads_kept .white _ _ _ _ _)
  refine Keeps.trans ?_ (drawHorizontalLine_kept .white _ _ _ _)
  exact (drawCircleQuads_kept .white f _ _ _ _).trans (drawHorizontalLine_kept .white _ _ _ _)

theorem drawXbm_kept (f : Frame) (xMove yMove width height : Int16) (xbm : ℕ → UInt8) :
    Kept (fun _ => True) f (drawXbm color f xMove yMove width height xbm) := by
  have hwidth := width.toInt_lt
  have hheight := height.toInt_lt
  have hrows := drawXbmRows_painted color xbm xMove yMove (show width.toInt.toNat ≤ 32767 by omega)
    (show height.toInt.toNat ≤ 32767 by omega) height.toInt.toNat 0 (Nat.zero_add _) f
  exact hrows.keeps fun _ _ _ _ _ => trivial

theorem clear_kept (f : Frame) : Kept (fun _ => True) f (clear f) :=
  ⟨fun _ _ _ _ h => (h trivial).elim, fun _ hi => if_neg (not_lt.mpr hi)⟩

end Shapes

section Glyphs
variable (color : Color)

theorem kept_update (f : Frame) {i : ℕ} (hi : i < 1024) (hC : C (i % 128)) (b : UInt8) :
    Kept C f (Function.update f i b) :=
  keeps_update f hi hC b

theorem ofInt_mod (v : ℤ) : (Int16.ofInt v).toInt % 128 = v % 128 := by
  rw [Int16.toInt_ofInt, Int.bmod_def]
  show (if v % 65536 < (65536 + 1) / 2 then v % 65536 else v % 65536 - 65536) % 128 = _
  split <;> omega

theorem drawInternalByte_kept (f : Frame) (xMove yMove : Int16) (r i : ℕ) (byte : UInt8)
    (h : ∀ a : ℕ, a < 128 → (a : ℤ) = (Int16.ofInt (xMove.toInt + (i / r : ℕ))).toInt → C a) :
    Kept C f (drawInternalByte color xMove yMove r i byte f) := by
  unfold drawInternalByte
  generalize Int16.ofInt (xMove.toInt + (i / r : ℕ)) = xPos at *
  dsimp only
  split
  next hon =>
    have hmod := ofInt_mod (xPos.toInt +
      (Int16.ofInt ((yMove.toInt / 8 + (i % r : ℕ)) * (displayWidth : ℕ))).toInt)
    have hmod' := ofInt_mod ((yMove.toInt / 8 + (i % r : ℕ)) * (displayWidth : ℕ))
    simp only [Int16.le_iff_toInt_le, Int16.toInt_zero] at hon
    generalize Int16.ofInt ((yMove.toInt / 8 + (i % r : ℕ)) * (displayWidth : ℕ)) = yPos at *
    generalize Int16.ofInt (xPos.toInt + yPos.toInt) = dataPos at *
    unfold displayBufferSize displayWidth at *
    have hcolumn (k : ℕ) : C ((dataPos.toInt.toNat + k * 128) % 128) := by
      apply h _ (Nat.mod_lt _ (by decide))
      omega
    have hfirst (b : UInt8) : Kept C f (Function.update f dataPos.toInt.toNat b) :=
      kept_update f (by omega) (hcolumn 0) b
    split
    next hbelow => exact (hfirst _).trans (kept_update _ (by omega) (hcolumn 1) _)
    next => exact hfirst _
  next => exact Keeps.refl ..

theorem drawInternalBytes_kept (xMove yMove : Int16) (r count : ℕ) (data : ℕ → UInt8)
    (h : ∀ i < count, ∀ a : ℕ, a < 128 →
      (a : ℤ) = (Int16.ofInt (xMove.toInt + (i / r : ℕ))).toInt → C a)
    (n i : ℕ) (hi : i + n = count) (f : Frame) :
    Kept C f (drawInternalBytes color xMove yMove r data n i f) := by
  induction n generalizing i f with
  | zero => exact Keeps.refl ..
  | succ n ih =>
    have hbyte := drawInternalByte_kept color f xMove yMove r i (data i) (h i (by omega))
    exact hbyte.trans (ih (i + 1) (by omega) _)

theorem drawInternal_kept (f : Frame) (xMove yMove width height : Int16) (data : ℕ → UInt8)
    (bytesInData : UInt16)
    (h : ∀ i < glyphBytes width height bytesInData, ∀ a : ℕ, a < 128 →
      (a : ℤ) = (Int16.ofInt (xMove.toInt + (i / rasterHeight height : ℕ))).toInt → C a) :
    Kept C f (drawInternal color f xMove yMove width height data bytesInData) := by
  unfold drawInternal
  split_ifs
  · exact Keeps.refl ..
  · exact Keeps.refl ..
  · exact Keeps.refl ..
  · exact drawInternalBytes_kept color xMove yMove _ _ data h _ 0 (Nat.zero_add _) f

end Glyphs

section Texts

theorem glyph_column_le (width size : UInt8) (height : Int16) {i : ℕ}
    (hi : i < glyphBytes (Int16.ofInt width.toNat) height size.toUInt16) :
    i / rasterHeight height ≤ 255 := by
  have hw : width.toNat < 256 := width.toNat_lt
  have hs : size.toNat < 256 := size.toNat_lt
  have hwidth : (Int16.ofInt width.toNat).toInt = width.toNat :=
    Int16.toInt_ofInt_of_le (by omega) (by omega)
  unfold glyphBytes at hi
  split at hi
  · have hle : i < width.toNat * rasterHeight height := by
      have hmod : (UInt16.ofInt (width.toNat * rasterHeight height)).toNat ≤
          width.toNat * rasterHeight height := by
        show (UInt16.ofNat ((width.toNat * rasterHeight height : ℤ) % 2 ^ 16).toNat).toNat ≤ _
        rw [UInt16.toNat_ofNat', ← Int.natCast_mul]
        omega
      rw [hwidth] at hi
      exact lt_of_lt_of_le hi hmod
    have hlt := Nat.div_lt_of_lt_mul (Nat.mul_comm _ _ ▸ hle)
    omega
  · have hle := Nat.div_le_self i (rasterHeight height)
    rw [UInt8.toNat_toUInt16] at hi
    omega

variable (pen : Pen)

theorem drawChars_kept {xMove : Int16} (hx : xMove.toInt ≤ 128) (yMove : Int16) (text : List UInt8)
    (cursorX : UInt8) (f : Frame) (hC : ∀ a : ℕ, a < 128 → xMove.toInt ≤ a → C a) :
    Kept C f (drawChars pen xMove yMove text cursorX f) := by
  induction text generalizing cursorX f with
  | nil => exact Keeps.refl ..
  | cons code text ih =>
    have hleft := xMove.le_toInt
    have hcursor := cursorX.toNat_lt
    have hxPos : (Int16.ofInt (xMove.toInt + cursorX.toNat)).toInt = xMove.toInt + cursorX.toNat :=
      Int16.toInt_ofInt_of_le (by omega) (by omega)
    rw [drawChars]
    dsimp only
    split_ifs
    · refine Keeps.trans (drawInternal_kept pen.color f _ yMove _ _ _ _ ?_) (ih _ _)
      intro i hi a ha hcolumn
      have hi' := glyph_column_le _ _ _ hi
      generalize i / rasterHeight _ = column at *
      rw [hxPos, Int16.toInt_ofInt_of_le (by omega) (by omega)] at hcolumn
      exact hC a ha (by omega)
    · exact ih _ _
    · exact ih _ _

theorem drawStringInternal_kept (f : Frame) (xMove yMove : Int16) (text : List UInt8)
    (textWidth : UInt16)
    (hC : ∀ a : ℕ, a < 128 → (alignX pen.textAlignment xMove textWidth).toInt ≤ a → C a) :
    Kept C f (drawStringInternal pen f xMove yMove text textWidth) := by
  unfold drawStringInternal
  dsimp only
  split_ifs with hx
  · exact Keeps.refl ..
  · exact Keeps.refl ..
  · rw [not_or] at hx
    exact drawChars_kept pen (not_lt.mp hx.2) _ text 0 f hC

theorem drawLines_kept (xMove yMove : Int16) (yOffset : ℕ) (parts : List (List UInt8))
    (hC : ∀ part ∈ parts, ∀ a : ℕ, a < 128 →
      (alignX pen.textAlignment xMove (getStringWidth pen.fontData part)).toInt ≤ a → C a)
    (line : ℕ) (f : Frame) : Kept C f (drawLines pen xMove yMove yOffset parts line f) := by
  induction parts generalizing line f with
  | nil => exact Keeps.refl ..
  | cons part parts ih =>
    have hpart := drawStringInternal_kept pen f xMove
      (Int16.ofInt (yMove.toInt - yOffset + line * pen.fontData.height.toNat)) part _
      (hC part List.mem_cons_self)
    exact hpart.trans (ih (fun part' h => hC part' (List.mem_cons_of_mem _ h)) _ _)

/-- A string is drawn right of where its widest line begins. -/
theorem drawString_kept (f : Frame) (xMove yMove : Int16) (lastChar : UInt8) (strUser : List UInt8)
    (hC : ∀ part ∈ textParts (utf8ascii lastChar strUser).2, ∀ a : ℕ, a < 128 →
      (alignX pen.textAlignment xMove (getStringWidth pen.fontData part)).toInt ≤ a → C a) :
    Kept C f (drawString pen f xMove yMove lastChar strUser).1 :=
  drawLines_kept pen xMove yMove _ _ hC 0 f

theorem foldl_kept {α β : Type} {step : α → β → α} (buffer : α → Frame)
    (hstep : ∀ a b, Kept C (buffer a) (buffer (step a b))) (a : α) (bs : List β) :
    Kept C (buffer a) (buffer (bs.foldl step a)) := by
  induction bs generalizing a with
  | nil => exact Keeps.refl ..
  | cons b bs ih => exact (hstep a b).trans (ih _)

theorem drawStringMaxWidth_kept (f : Frame) (xMove yMove : Int16) (maxLineWidth : UInt16)
    (lastChar : UInt8) (strUser : List UInt8) :
    Kept (fun _ => True) f
      (drawStringMaxWidth pen f xMove yMove maxLineWidth lastChar strUser).1 := by
  have hline (f : Frame) (y : Int16) (text : List UInt8) (textWidth : UInt16) :=
    drawStringInternal_kept (C := fun _ => True) pen f xMove y text textWidth fun _ _ _ => trivial
  have hstep (text : List UInt8) (w : Wrapping) (next : UInt8 × ℕ) :
      Kept (fun _ => True) w.buffer
        (w.step pen xMove yMove maxLineWidth text next).buffer := by
    unfold Wrapping.step
    dsimp only
    split_ifs <;> first | exact hline _ _ _ _ | exact Keeps.refl ..
  have hloop (text : List UInt8) := foldl_kept Wrapping.buffer (hstep text) { buffer := f }
    text.zipIdx
  unfold drawStringMaxWidth
  dsimp only
  split
  · exact (hloop _).trans (hline _ _ _ _)
  · exact hloop _

theorem drawLogBuffer_kept (f : Frame) (xMove yMove : UInt16) (logBuffer : List UInt8) :
    Kept (fun _ => True) f (drawLogBuffer pen f xMove yMove logBuffer) := by
  have hdrawn (l : LogLines) : Kept (fun _ => True) l.buffer
      (l.drawn pen xMove yMove logBuffer) :=
    drawStringInternal_kept pen l.buffer _ _ _ _ fun _ _ _ => trivial
  have hstep (l : LogLines) (next : UInt8 × ℕ) :
      Kept (fun _ => True) l.buffer (l.step pen xMove yMove logBuffer next).buffer := by
    unfold LogLines.step
    dsimp only
    split
    · exact hdrawn { l with length := l.length + 1 }
    · exact Keeps.refl ..
  have hloop := foldl_kept LogLines.buffer hstep { buffer := f } logBuffer.zipIdx
  unfold drawLogBuffer
  dsimp only
  split
  · exact hloop.trans (hdrawn _)
  · exact hloop

theorem toNat_max_le {a b : UInt16} {n : ℕ} (ha : a.toNat ≤ n) (hb : b.toNat ≤ n) :
    (max a b).toNat ≤ n := by
  show (if a ≤ b then b else a).toNat ≤ n
  split
  · exact hb
  · exact ha

theorem getStringWidth_le (font : Font) {k : ℕ} (text : List UInt8)
    (hk : ∀ c ∈ text, (font.entry c 3).toNat ≤ k) (hshort : text.length * k < 65536) :
    (getStringWidth font text).toNat ≤ text.length * k := by
  have hfold : (text.foldr (addWidth font) (0, 0)).1.toNat ≤ text.length * k ∧
      (text.foldr (addWidth font) (0, 0)).2.toNat ≤ text.length * k := by
    induction text with
    | nil => exact ⟨Nat.zero_le _, Nat.zero_le _⟩
    | cons c text ih =>
      rw [List.length_cons, Nat.add_mul, Nat.one_mul] at hshort ⊢
      have hc := hk c List.mem_cons_self
      obtain ⟨hstring, hmax⟩ := ih (fun c' h => hk c' (List.mem_cons_of_mem _ h)) (by omega)
      rw [List.foldr_cons]
      generalize text.foldr (addWidth font) (0, 0) = width at *
      have hadd : (width.1 + (font.entry c 3).toUInt16).toNat ≤ text.length * k + k := by
        rw [UInt16.toNat_add, UInt8.toNat_toUInt16]
        omega
      unfold addWidth
      dsimp only
      split
      · exact ⟨Nat.zero_le _, toNat_max_le (by omega) hadd⟩
      · exact ⟨hadd, Nat.le_add_right_of_le hmax⟩
  exact toNat_max_le hfold.2 hfold.1

theorem drawString_center_kept (pen : Pen) (hpen : pen.textAlignment = .center) (f : Frame)
    {xMove : Int16} (yMove : Int16) {lastChar : UInt8} (hlast : Settled lastChar) {text : List Char}
    (htext : ∀ c ∈ text, c ≠ Char.ofNat 0 ∧ c.toNat < 128 ∧ c ≠ '\n') {k left : ℕ}
    (hwidth : ∀ c ∈ text, (pen.fontData.entry (UInt8.ofNat c.toNat) 3).toNat ≤ k)
    (hleft : ((left + text.length * k / 2 : ℕ) : ℤ) ≤ xMove.toInt) :
    Kept (left ≤ ·) f
        (drawString pen f xMove yMove lastChar (text.flatMap String.utf8EncodeChar)).1 ∧
      Settled (drawString pen f xMove yMove lastChar (text.flatMap String.utf8EncodeChar)).2 := by
  obtain ⟨hascii, hsettled⟩ := utf8ascii_text hlast fun h0 => (htext _ h0).1 rfl
  have hlatin : text.flatMap latin = text.map fun c => UInt8.ofNat c.toNat := by
    rw [List.map_eq_flatMap]
    exact List.flatMap_congr fun c hc => if_pos (by have := (htext c hc).2.1; omega)
  have hbreak : (10 : UInt8) ∉ text.map fun c => UInt8.ofNat c.toNat := by
    intro hmem
    obtain ⟨c, hc, h10⟩ := List.mem_map.mp hmem
    have hascii := (htext c hc).2.1
    exact (htext c hc).2.2 (Char.toNat_inj.mp ((ofNat_inj (by omega) (by decide)).mp h10))
  refine ⟨drawString_kept pen f xMove yMove lastChar _ ?_, hsettled⟩
  rw [hascii, hlatin, textParts, List.splitOn_eq_singleton hbreak]
  intro part hpart a _ ha
  obtain rfl : part = text.map fun c => UInt8.ofNat c.toNat :=
    List.mem_singleton.mp (List.mem_of_mem_filter hpart)
  have hle := getStringWidth_le pen.fontData (text.map fun c => UInt8.ofNat c.toNat) (k := k)
    (by simpa using hwidth) (by rw [List.length_map]; have := xMove.toInt_lt; omega)
  rw [List.length_map] at hle
  generalize getStringWidth pen.fontData _ = width at *
  have hright := xMove.toInt_lt
  have hstart : (alignX pen.textAlignment xMove width).toInt =
      xMove.toInt - (width.toNat / 2 : ℕ) := by
    rw [hpen]
    exact Int16.toInt_ofInt_of_le (by omega) (by omega)
  omega

end Texts

/-- What a program calls between two transfers to the screen: all the public drawing functions, and
those that set what they read. The contents of the log buffer come with the call that draws them. -/
inductive Call
  | clear
  | setColor (color : Color)
  | setFont (fontData : Font)
  | setTextAlignment (textAlignment : TextAlignment)
  | setPixel (x y : Int16)
  | drawLine (x0 y0 x1 y1 : Int16)
  | drawRect (x y width height : Int16)
  | fillRect (x y width height : Int16)
  | drawCircle (x0 y0 radius : Int16)
  | drawCircleQuads (x0 y0 radius : Int16) (quads : UInt8)
  | fillCircle (x0 y0 radius : Int16)
  | drawHorizontalLine (x y length : Int16)
  | drawVerticalLine (x y length : Int16)
  | drawProgressBar (x y width height : UInt16) (progress : UInt8)
  | drawXbm (x y width height : Int16) (xbm : ℕ → UInt8)
  | drawFastImage (x y width height : Int16) (image : ℕ → UInt8)
  | drawString (x y : Int16) (strUser : List UInt8)
  | drawStringMaxWidth (x y : Int16) (maxLineWidth : UInt16) (strUser : List UInt8)
  | drawLogBuffer (x y : UInt16) (logBuffer : List UInt8)

/-- What the calls work on. -/
structure Canvas where
  pen : Pen
  buffer : Frame
  lastChar : UInt8 := 0

/-- One call; `none` if it does not return. -/
def Canvas.call (c : Canvas) : Call → Option Canvas
  | .clear => some { c with buffer := Oled.clear c.buffer }
  | .setColor color => some { c with pen := { c.pen with color } }
  | .setFont fontData => some { c with pen := { c.pen with fontData } }
  | .setTextAlignment textAlignment => some { c with pen := { c.pen with textAlignment } }
  | .setPixel x y => some { c with buffer := Oled.setPixel c.pen.color c.buffer x y }
  | .drawLine x0 y0 x1 y1 =>
    (Oled.drawLine c.pen.color c.buffer x0 y0 x1 y1).map fun buffer => { c with buffer }
  | .drawRect x y width height =>
    some { c with buffer := Oled.drawRect c.pen.color c.buffer x y width height }
  | .fillRect x y width height =>
    (Oled.fillRect c.pen.color c.buffer x y width height).map fun buffer => { c with buffer }
  | .drawCircle x0 y0 radius =>
    some { c with buffer := Oled.drawCircle c.pen.color c.buffer x0 y0 radius }
  | .drawCircleQuads x0 y0 radius quads =>
    some { c with buffer := Oled.drawCircleQuads c.pen.color c.buffer x0 y0 radius quads }
  | .fillCircle x0 y0 radius =>
    some { c with buffer := Oled.fillCircle c.pen.color c.buffer x0 y0 radius }
  | .drawHorizontalLine x y length =>
    some { c with buffer := Oled.drawHorizontalLine c.pen.color c.buffer x y length }
  | .drawVerticalLine x y length =>
    some { c with buffer := Oled.drawVerticalLine c.pen.color c.buffer x y length }
  | .drawProgressBar x y width height progress =>
    (Oled.drawProgressBar c.buffer x y width height progress).map fun buffer =>
      { c with pen := { c.pen with color := .white }, buffer }
  | .drawXbm x y width height xbm =>
    some { c with buffer := Oled.drawXbm c.pen.color c.buffer x y width height xbm }
  | .drawFastImage x y width height image =>
    some { c with buffer := drawInternal c.pen.color c.buffer x y width height image 0 }
  | .drawString x y strUser =>
    let drawn := Oled.drawString c.pen c.buffer x y c.lastChar strUser
    some { c with buffer := drawn.1, lastChar := drawn.2 }
  | .drawStringMaxWidth x y maxLineWidth strUser =>
    let drawn := Oled.drawStringMaxWidth c.pen c.buffer x y maxLineWidth c.lastChar strUser
    some { c with buffer := drawn.1, lastChar := drawn.2 }
  | .drawLogBuffer x y logBuffer =>
    let pen := { c.pen with textAlignment := .left }
    some { c with pen, buffer := Oled.drawLogBuffer pen c.buffer x y logBuffer }

def Canvas.run (c : Canvas) (calls : List Call) : Option Canvas := calls.foldlM Canvas.call c

theorem call_kept {c d : Canvas} {call : Call} (h : c.call call = some d) :
    Kept (fun _ => True) c.buffer d.buffer := by
  cases call with
  | clear => cases h; exact clear_kept _
  | setColor => cases h; exact Keeps.refl ..
  | setFont => cases h; exact Keeps.refl ..
  | setTextAlignment => cases h; exact Keeps.refl ..
  | setPixel x y => cases h; exact setPixel_kept _ _ y fun _ _ _ => trivial
  | drawLine x0 y0 x1 y1 =>
    obtain ⟨buffer, hline, rfl⟩ := Option.map_eq_some_iff.mp h
    exact drawLine_kept _ hline
  | drawRect x y width height => cases h; exact drawRect_kept _ _ x y width height
  | drawCircle x0 y0 radius => cases h; exact drawCircle_kept _ _ x0 y0 radius
  | drawCircleQuads x0 y0 radius quads => cases h; exact drawCircleQuads_kept _ _ x0 y0 radius quads
  | fillCircle x0 y0 radius => cases h; exact fillCircle_kept _ _ x0 y0 radius
  | drawProgressBar x y width height progress =>
    obtain ⟨buffer, hbar, rfl⟩ := Option.map_eq_some_iff.mp h
    exact drawProgressBar_kept hbar
  | drawHorizontalLine x y length => cases h; exact drawHorizontalLine_kept _ _ x y length
  | drawVerticalLine x y length =>
    cases h
    exact drawVerticalLine_kept _ _ y length fun _ _ _ => trivial
  | fillRect x y width height =>
    obtain ⟨buffer, hfill, rfl⟩ := Option.map_eq_some_iff.mp h
    exact fillRect_kept _ hfill
  | drawXbm x y width height xbm => cases h; exact drawXbm_kept _ _ x y width height xbm
  | drawFastImage x y width height image =>
    cases h
    exact drawInternal_kept _ _ x y width height image 0 fun _ _ _ _ _ => trivial
  | drawString x y strUser =>
    cases h
    exact drawString_kept _ _ x y _ strUser fun _ _ _ _ _ => trivial
  | drawStringMaxWidth x y maxLineWidth strUser =>
    cases h
    exact drawStringMaxWidth_kept _ _ x y maxLineWidth _ strUser
  | drawLogBuffer x y logBuffer => cases h; exact drawLogBuffer_kept _ _ x y logBuffer

/-- Whatever a program draws by calls that return, with whatever arguments and fonts, it writes
nothing behind the buffer. -/
theorem run_behind {c d : Canvas} (calls : List Call) (h : c.run calls = some d) {i : ℕ}
    (hi : displayBufferSize ≤ i) : d.buffer i = c.buffer i := by
  induction calls generalizing c with
  | nil =>
    cases h
    rfl
  | cons call calls ih =>
    obtain ⟨c', hcall, hrun⟩ := Option.bind_eq_some_iff.mp h
    exact (ih hrun).trans ((call_kept hcall).behind i hi)

def whiteCanvas : Canvas := ⟨⟨.white, .left, fun _ => 6⟩, fun _ => 9, 0⟩

theorem run_behind_corner :
    ∃ d, whiteCanvas.run [.fillRect 120 60 20 20, .setColor .inverse, .drawVerticalLine 127 56 30] =
      some d ∧ d.buffer 1024 = 9 :=
  ⟨_, rfl, run_behind (c := whiteCanvas)
    [.fillRect 120 60 20 20, .setColor .inverse, .drawVerticalLine 127 56 30] rfl (by decide)⟩

end Wyostat.Oled
