import Wyostat.OpenThermostat.Icons
import Wyostat.OpenThermostat.Slots
import Wyostat.Oled.Fonts
import Wyostat.Oled.Transfer

/-! The icon area in pixels: what the sketch draws goes to the OLED library, and the picture in the
area follows from the icons drawn there, whatever happens beside it. -/
namespace Wyostat.OpenThermostat
open Machine Output Oled Raster

/-- The fonts of the dial, whatever their glyphs. -/
structure Fonts where
  room : Font
  target : Font
  away : Font
  room_startsWith : room.StartsWith arialMTPlain10
  target_startsWith : target.StartsWith arialMTPlain24
  away_startsWith : away.StartsWith arialMTPlain16

namespace Fonts

def of (fonts : Fonts) (y : ℕ) (text : List Char) : Font :=
  if y ≠ 20 then fonts.room else if text = ['A', 'W', 'A', 'Y'] then fonts.away else fonts.target

/-! The characters of each text are narrow enough for it to keep clear of the icon area. -/

theorem room_narrow (fonts : Fonts) {c : Char} (hc : c = '-' ∨ c.isDigit) :
    (fonts.room.entry (UInt8.ofNat c.toNat) 3).toNat ≤ 8 := by
  have hrange : 45 ≤ c.toNat ∧ c.toNat < 58 := by
    rcases hc with rfl | hdigit
    · decide
    · have hdigit' := Char.isDigit_iff_toNat.mp hdigit
      change 48 ≤ c.toNat ∧ c.toNat ≤ 57 at hdigit'
      omega
  exact fonts.room_startsWith.width_le rfl (by decide +kernel) (by decide) (by decide)
    (by decide +kernel) hrange.1 hrange.2

theorem target_narrow (fonts : Fonts) {c : Char} (hc : c.isDigit) :
    (fonts.target.entry (UInt8.ofNat c.toNat) 3).toNat ≤ 31 := by
  have hdigit := Char.isDigit_iff_toNat.mp hc
  change 48 ≤ c.toNat ∧ c.toNat ≤ 57 at hdigit
  exact fonts.target_startsWith.width_le rfl (by decide +kernel) (by decide) (by decide)
    (by decide +kernel) hdigit.1 (Nat.lt_succ_of_le hdigit.2)

theorem away_narrow (fonts : Fonts) {c : Char} (hc : 65 ≤ c.toNat ∧ c.toNat < 91) :
    (fonts.away.entry (UInt8.ofNat c.toNat) 3).toNat ≤ 23 :=
  fonts.away_startsWith.width_le rfl (by decide +kernel) (by decide) (by decide)
    (by decide +kernel) hc.1 hc.2

end Fonts

/-- The calls of the library behind one of the sketch's drawings. -/
def drawCalls (fonts : Fonts) (bits : Icon → ℕ → UInt8) : Draw → List Oled.Call
  | .clear => [.clear]
  | .fillBlack x y width height =>
    [.setColor .black, .fillRect (.ofInt x) (.ofInt y) (.ofInt width) (.ofInt height),
      .setColor .white]
  | .drawXbm x y icon => [.drawXbm (.ofInt x) (.ofInt y) 32 32 (bits icon)]
  | .drawString x y text =>
    [.setTextAlignment .center, .setFont (fonts.of y text),
      .drawString (.ofInt x) (.ofInt y) (text.flatMap String.utf8EncodeChar)]

/-- The drawings of the sketch, the single dots of which it makes the arcs of its dial, and the
choice of a font. -/
inductive Stroke where
  | draw (d : Draw)
  | dot (x y : Int16)
  | setFont (fontData : Font)

def Stroke.calls (fonts : Fonts) (bits : Icon → ℕ → UInt8) : Stroke → List Oled.Call
  | .draw d => drawCalls fonts bits d
  | .dot x y => [.setPixel x y]
  | .setFont fontData => [.setFont fontData]

def Stroke.draw? : Stroke → Option Draw
  | .draw d => some d
  | .dot .. | .setFont _ => none

/-- The arcs are right of the icon area. -/
def Stroke.Beside : Stroke → Prop
  | .draw _ | .setFont _ => True
  | .dot x _ => 48 ≤ x.toInt

/-- The drawings that the sketch makes. -/
inductive Shape : Draw → Prop
  | clear : Shape .clear
  | dial : Shape (.fillBlack 64 0 64 64)
  | area : Shape (.fillBlack 16 16 32 32)
  | icon (icon : Icon) : Shape (.drawXbm 16 16 icon)
  | away : Shape (.drawString 95 20 ['A', 'W', 'A', 'Y'])
  | target (temp : UInt8) : Shape (.drawString 95 20 (Decimal.itoa temp.toNat))
  | room (y : ℕ) (n : ℤ) (hy : y ≠ 20) (hlo : -2 ^ 31 ≤ n) (hhi : n < 2 ^ 31) :
    Shape (.drawString 95 y (Decimal.itoa n))

/-- The library draws white, and the icon area shows the icons, one over the other. -/
structure Pictured (bits : Icon → ℕ → UInt8) (icons : List Icon) (c : Canvas) : Prop where
  white : c.pen.color = .white
  settled : Settled c.lastChar
  area : ∀ x y, 16 ≤ x → x < 48 → 16 ≤ y → y < 48 →
    pixel displayWidth c.buffer x y = icons.any fun icon => xbmBit (bits icon) 32 (x - 16) (y - 16)

section Texts
variable {fonts : Fonts}

/-- A text of the dial: nothing but printable ASCII, narrow enough for its font. -/
structure Narrow (font : Font) (text : List Char) : Prop where
  ascii : ∀ c ∈ text, c ≠ Char.ofNat 0 ∧ c.toNat < 128 ∧ c ≠ '\n'
  width : ∃ k, (∀ c ∈ text, (font.entry (UInt8.ofNat c.toNat) 3).toNat ≤ k) ∧ text.length * k ≤ 95

theorem mem_itoa_toNat {temp : UInt8} {c : Char} (h : c ∈ Decimal.itoa temp.toNat) : c.isDigit :=
  Nat.isDigit_of_mem_toDigits (b := 10) (n := temp.toNat) (by decide) (by decide) h

theorem itoa_toNat_length (temp : UInt8) : (Decimal.itoa temp.toNat).length ≤ 3 := by
  have htemp := temp.toNat_lt
  have hdigits : (Nat.toDigits 10 temp.toNat).length ≤ 3 := by
    rw [Nat.length_toDigits_le_iff (by decide) (by decide)]
    omega
  exact hdigits

theorem ascii_itoa {n : ℤ} {c : Char} (h : c ∈ Decimal.itoa n) :
    c ≠ Char.ofNat 0 ∧ c.toNat < 128 ∧ c ≠ '\n' := by
  rcases Decimal.mem_itoa h with rfl | hdigit
  · decide
  · have hc := Char.isDigit_iff_toNat.mp hdigit
    change 48 ≤ c.toNat ∧ c.toNat ≤ 57 at hc
    refine ⟨?_, by omega, ?_⟩
    · rintro rfl
      exact absurd hc.1 (by decide)
    · rintro rfl
      exact absurd hc.1 (by decide)

theorem narrow_away : Narrow fonts.away ['A', 'W', 'A', 'Y'] := by
  have hletter {c : Char} (hc : c ∈ ['A', 'W', 'A', 'Y']) : c = 'A' ∨ c = 'W' ∨ c = 'Y' := by
    simp only [List.mem_cons, List.not_mem_nil, or_false] at hc
    tauto
  refine ⟨fun c hc => ?_, 23, fun c hc => fonts.away_narrow ?_, by simp⟩
  · rcases hletter hc with rfl | rfl | rfl <;> decide
  · rcases hletter hc with rfl | rfl | rfl <;> decide

theorem narrow_target (temp : UInt8) : Narrow fonts.target (Decimal.itoa temp.toNat) := by
  have hlength := itoa_toNat_length temp
  exact ⟨fun c hc => ascii_itoa hc, 31, fun c hc => fonts.target_narrow (mem_itoa_toNat hc),
    by omega⟩

theorem narrow_room {n : ℤ} (hlo : -2 ^ 31 ≤ n) (hhi : n < 2 ^ 31) :
    Narrow fonts.room (Decimal.itoa n) := by
  have hlength := Decimal.length_itoa_le hlo hhi
  exact ⟨fun c hc => ascii_itoa hc, 8, fun c hc => fonts.room_narrow (Decimal.mem_itoa hc),
    by omega⟩

end Texts

section Strokes
variable {fonts : Fonts} {bits : Icon → ℕ → UInt8} {icons : List Icon} {c : Canvas}

theorem Pictured.beside {d : Canvas} (h : Pictured bits icons c)
    (hcolor : d.pen.color = c.pen.color) (hsettled : Settled d.lastChar)
    (hkept : Kept (48 ≤ ·) c.buffer d.buffer) :
    Pictured bits icons d := by
  refine ⟨hcolor.trans h.white, hsettled, fun x y hx hx' hy hy' => ?_⟩
  rw [← h.area x y hx hx' hy hy']
  exact hkept.outside x y (by unfold displayWidth; omega) (by unfold displayHeight; omega)
    (not_le.mpr hx')

theorem pictured_clear (hwhite : c.pen.color = .white) (hsettled : Settled c.lastChar) :
    Pictured bits [] { c with buffer := clear c.buffer } := by
  refine ⟨hwhite, hsettled, fun x y hx hx' hy hy' => ?_⟩
  have hi : x + y / 8 * displayWidth < displayBufferSize := by
    unfold displayWidth displayBufferSize
    omega
  show bit (if x + y / 8 * displayWidth < displayBufferSize then 0 else _) (y % 8) = false
  rw [if_pos hi]
  simp [bit]

theorem fillBlack_run (fonts : Fonts) (bits : Icon → ℕ → UInt8) (c : Canvas)
    (hwhite : c.pen.color = .white) {x y width height : ℕ}
    (hx : x + width ≤ 128) (hy : y + height ≤ 64) :
    ∃ g, c.run (drawCalls fonts bits (.fillBlack x y width height)) = some { c with buffer := g } ∧
      Painted .black c.buffer g fun a b => (x ≤ a ∧ a < x + width) ∧ y ≤ b ∧ b < y + height := by
  have hint {n : ℕ} (hn : n ≤ 128) : (Int16.ofInt n).toInt = n :=
    Int16.toInt_ofInt_of_le (by omega) (by omega)
  obtain ⟨g, hg, hpaint⟩ := fillRect_painted .black c.buffer (.ofInt x) (.ofInt y) (.ofInt width)
    (.ofInt height) (by rw [hint (by omega), hint (by omega)]; omega)
    (by rw [hint (by omega), hint (by omega)]; omega)
  refine ⟨g, ?_, hpaint.congr ?_⟩
  · obtain ⟨⟨color, textAlignment, fontData⟩, buffer, lastChar⟩ := c
    cases hwhite
    change ((fillRect .black buffer (.ofInt x) (.ofInt y) (.ofInt width)
      (.ofInt height)).map _).bind _ = _
    rw [hg]
    rfl
  · intro a b _ _
    rw [hint (by omega), hint (by omega), hint (by omega), hint (by omega)]
    omega

theorem pictured_icon (h : Pictured bits icons c) (icon : Icon) :
    Pictured bits (icon :: icons)
      { c with buffer := drawXbm c.pen.color c.buffer 16 16 32 32 (bits icon) } := by
  refine ⟨h.white, h.settled, fun x y hx hx' hy hy' => ?_⟩
  have hpaint := drawXbmRows_painted .white (bits icon) 16 16 (show 32 ≤ 32767 by decide)
    (show 32 ≤ 32767 by decide) 32 0 rfl c.buffer
  have hwidth : x < displayWidth := by unfold displayWidth; omega
  have hheight : y < displayHeight := by unfold displayHeight; omega
  have hdraw : drawXbm .white c.buffer 16 16 32 32 (bits icon) =
      drawXbmRows .white (bits icon) 16 16 32 32 0 c.buffer := by
    unfold drawXbm
    rw [show (32 : Int16).toInt.toNat = 32 by decide]
  rw [h.white, List.any_cons, ← h.area x y hx hx' hy hy', hdraw]
  have h16 : (16 : Int16).toInt = 16 := by decide
  by_cases hbit : xbmBit (bits icon) 32 (x - 16) (y - 16) = true
  · rw [hbit, Bool.true_or]
    apply hpaint.inside x y hwidth hheight
    exact ⟨x - 16, y - 16, by omega, by omega, by rw [h16]; omega, by rw [h16]; omega, hbit⟩
  · rw [Bool.not_eq_true] at hbit
    rw [hbit, Bool.false_or]
    apply hpaint.outside x y hwidth hheight
    rintro ⟨i, j, hi, hj, hx'', hy'', hbit'⟩
    rw [h16] at hx'' hy''
    rw [show i = x - 16 by omega, show j = y - 16 by omega, hbit] at hbit'
    cases hbit'

theorem pictured_text (h : Pictured bits icons c) {y : ℕ} {text : List Char}
    (hnarrow : Narrow (fonts.of y text) text) :
    ∃ d, c.run (drawCalls fonts bits (.drawString 95 y text)) = some d ∧ Pictured bits icons d := by
  obtain ⟨k, hk, hshort⟩ := hnarrow.width
  have hleft : ((48 + text.length * k / 2 : ℕ) : ℤ) ≤ (Int16.ofInt (95 : ℕ)).toInt := by
    rw [Int16.toInt_ofInt_of_le (by decide) (by decide)]
    omega
  obtain ⟨hkept, hsettled⟩ := drawString_center_kept ⟨c.pen.color, .center, fonts.of y text⟩ rfl
    c.buffer (.ofInt y) h.settled hnarrow.ascii hk hleft
  exact ⟨_, rfl, h.beside rfl hsettled hkept⟩

/-- Each drawing of the sketch does to the picture what it does to the list of icons. -/
theorem pictured_draw (fonts : Fonts) {d : Draw} (hd : Shape d) {ds : List Draw}
    (h : Pictured bits (iconArea ds) c) :
    ∃ c', c.run (drawCalls fonts bits d) = some c' ∧ Pictured bits (iconArea (d :: ds)) c' := by
  cases hd with
  | clear => exact ⟨_, rfl, pictured_clear h.white h.settled⟩
  | dial =>
    obtain ⟨g, hrun, hpaint⟩ := fillBlack_run fonts bits c h.white
      (show 64 + 64 ≤ 128 by decide) (show 0 + 64 ≤ 64 by decide)
    exact ⟨_, hrun, h.beside rfl h.settled (hpaint.keeps fun x y _ _ hx => by omega)⟩
  | area =>
    obtain ⟨g, hrun, hpaint⟩ := fillBlack_run fonts bits c h.white
      (show 16 + 32 ≤ 128 by decide) (show 16 + 32 ≤ 64 by decide)
    refine ⟨_, hrun, h.white, h.settled, fun x y hx hx' hy hy' => ?_⟩
    exact hpaint.inside x y (by unfold displayWidth; omega) (by unfold displayHeight; omega)
      (by omega)
  | icon icon => exact ⟨_, rfl, pictured_icon h icon⟩
  | away => exact pictured_text h narrow_away
  | target temp =>
    have hne : Decimal.itoa temp.toNat ≠ ['A', 'W', 'A', 'Y'] := by
      intro he
      have hdigit : 'A'.isDigit := mem_itoa_toNat (he ▸ List.mem_cons_self)
      cases hdigit
    apply pictured_text h
    rw [Fonts.of, if_neg (by decide), if_neg hne]
    exact narrow_target temp
  | room y n hy hlo hhi =>
    apply pictured_text h
    rw [Fonts.of, if_pos hy]
    exact narrow_room hlo hhi

theorem canvasRun_append {d : Canvas} {calls : List Oled.Call} (h : c.run calls = some d)
    (calls' : List Oled.Call) :
    c.run (calls ++ calls') = d.run calls' := by
  unfold Canvas.run at *
  rw [List.foldlM_append, h]
  rfl

theorem pictured_dot (h : Pictured bits icons c) {x : Int16} (y : Int16) (hx : 48 ≤ x.toInt) :
    Pictured bits icons { c with buffer := setPixel c.pen.color c.buffer x y } :=
  h.beside rfl h.settled (setPixel_kept _ _ y fun a _ ha => by omega)

theorem pictured_strokes (fonts : Fonts) {strokes : List Stroke}
    (hbeside : ∀ stroke ∈ strokes, stroke.Beside)
    (hshape : ∀ d ∈ strokes.filterMap Stroke.draw?, Shape d) {ds : List Draw}
    (h : Pictured bits (iconArea ds) c) :
    ∃ c', c.run (strokes.flatMap (Stroke.calls fonts bits)) = some c' ∧
      Pictured bits (iconArea ((strokes.filterMap Stroke.draw?).reverse ++ ds)) c' := by
  induction strokes generalizing c ds with
  | nil => exact ⟨c, rfl, h⟩
  | cons stroke strokes ih =>
    have hrest := fun s hs => hbeside s (List.mem_cons_of_mem stroke hs)
    cases stroke with
    | draw d =>
      obtain ⟨c₁, hrun, hpicture⟩ := pictured_draw fonts (hshape d List.mem_cons_self) h
      obtain ⟨c₂, hrun', hpicture'⟩ := ih hrest
        (fun d' hd' => hshape d' (List.mem_cons_of_mem _ hd')) hpicture
      refine ⟨c₂, (canvasRun_append hrun _).trans hrun', ?_⟩
      have hdraws : (Stroke.draw d :: strokes).filterMap Stroke.draw? =
          d :: strokes.filterMap Stroke.draw? := rfl
      rw [hdraws, List.reverse_cons, List.append_assoc]
      exact hpicture'
    | dot x y =>
      exact ih hrest hshape (pictured_dot h y (hbeside (.dot x y) List.mem_cons_self))
    | setFont fontData =>
      exact ih (c := { c with pen := { c.pen with fontData } }) hrest hshape
        ⟨h.white, h.settled, h.area⟩

end Strokes

section Shapes
variable {w : World} {s : Stat}

/-- All drawings so far, and the room temperature can be shown in an `int`. -/
structure Neat (w : World) (s : Stat) : Prop where
  shapes : ∀ d ∈ s.drawn, Shape d
  room : -2 ^ 31 ≤ truncate w.intOfNan s.localtemp ∧ truncate w.intOfNan s.localtemp < 2 ^ 31

theorem Neat.congr {t : Stat} (h : Neat w s) (hdrawn : t.drawn = s.drawn)
    (hset : t.settings = s.settings) : Neat w t := by
  refine ⟨hdrawn ▸ h.shapes, ?_⟩
  rw [(Stat.settings_eq hset).1]
  exact h.room

theorem Neat.tock (h : Neat w s) : Neat w s.tock := h.congr rfl rfl

theorem Neat.draw {d : Draw} (h : Neat w s) (hd : Shape d) : Neat w (draw d s) :=
  ⟨List.forall_mem_cons.mpr ⟨hd, h.shapes⟩, h.room⟩

theorem Neat.displayTemp (h : Neat w s) : Neat w (displayTemp w s) := by
  have htext : Shape (.drawString 95 20 (if s.away then ['A', 'W', 'A', 'Y']
      else Decimal.itoa (getTargettemp w s).toNat)) := by
    split
    · exact .away
    · exact .target _
  refine ((h.draw .dial).tock.draw htext).tock.draw (.room _ _ ?_ h.room.1 h.room.2)
  generalize Stat.localtemp _ = x
  split_ifs <;> decide

theorem Neat.drawIcon (h : Neat w s) (icon : Option Icon) : Neat w (drawIcon icon s) := by
  cases icon with
  | none => exact h.draw .area
  | some icon => exact (h.draw .area).draw (.icon icon)

theorem Neat.setFurnace (h : Neat w s) (b : Bool) : Neat w (setFurnace w b s) := by
  unfold OpenThermostat.setFurnace
  split_ifs
  · exact Neat.drawIcon (h.congr (by simp [publishOffOn]) (by simp [publishOffOn])) _
  · exact h.congr rfl rfl
  · exact h

theorem Neat.setAc (h : Neat w s) (b : Bool) : Neat w (setAc w b s) := by
  unfold OpenThermostat.setAc
  split_ifs
  · exact Neat.drawIcon (h.congr (by simp [publishOffOn]) (by simp [publishOffOn])) _
  · exact h

theorem Neat.control (h : Neat w s) : Neat w (control w s) :=
  control_preserves (fun _ h => h.tock) (fun b _ h => h.setFurnace b)
    (fun b _ h => h.setAc b)
    (fun b t h => h.congr (setFan_drawn w t b) (setFan_settings w t b)) h

theorem Neat.mqttCallback (h : Neat w s) (m : Msg) : Neat w (mqttCallback w m s) := by
  rw [mqttCallback_eq]
  split_ifs
  · unfold targettempCb targettemp
    split_ifs
    · have hset : Neat w (setTargettemp w (UInt8.ofInt (bytes2int m.payload)) s.tock) :=
        ⟨h.shapes, h.room⟩
      exact ⟨hset.displayTemp.shapes, hset.displayTemp.room⟩
    · exact h.tock
    · exact h
  · unfold awayCb
    split_ifs
    · have hset : Neat w (eepromWrite awayAddr
          (if (s.setAway (bytes2bool m.payload)).away then 1 else 0)
          (s.setAway (bytes2bool m.payload))) := ⟨h.shapes, h.room⟩
      exact hset.displayTemp
    · exact h
  · exact h.congr (publishHvacState_drawn w s) (publishHvacState_settings w s)
  · exact h.congr (publishHvacState_drawn w s) (publishHvacState_settings w s)
  · exact h.congr (by simp [requestmodeCb]) (requestmodeCb_settings w _ s)
  · exact ⟨h.shapes, h.room⟩
  · exact h

theorem Neat.iterate (h : Neat w s) {it : Iteration}
    (hroom : -2 ^ 31 ≤ truncate w.intOfNan it.localtemp ∧
      truncate w.intOfNan it.localtemp < 2 ^ 31) :
    Neat w (iterate w s it) := by
  have hreceive : Neat w (receive w it s) :=
    receive_preserves (fun _ h => h.congr rfl rfl) (fun _ h => h.congr rfl rfl)
      (fun _ m h => h.mqttCallback m) ⟨h.shapes, hroom⟩
  have htimed (t : Stat) (ht : Neat w t) : Neat w (timedPublish w s.localtemp it.millis t) :=
    ht.congr (timedPublish_drawn ..) (timedPublish_settings ..)
  unfold OpenThermostat.iterate finish
  apply htimed
  split_ifs
  · exact hreceive.control.displayTemp
  · exact hreceive.control

theorem neat_setup {sensor : Reading ℚ} (eeprom : Eeprom) (rounds : ℕ)
    (hroom : -2 ^ 31 ≤ truncate w.intOfNan sensor ∧ truncate w.intOfNan sensor < 2 ^ 31) :
    Neat w (setup w sensor eeprom rounds) := by
  unfold setup
  apply mqttConnect_preserves (P := Neat w)
  · exact fun t h => (Neat.congr (t := t.setConnected true) h rfl rfl).congr (announce_drawn w _)
      (announce_settings w _)
  · have hpower : Neat w (loadSettings ((setupPins (powerUp eeprom)).setLocaltemp sensor)) :=
      ⟨fun d hd => absurd hd (List.not_mem_nil), hroom⟩
    have hdisplay := (hpower.draw .clear).displayTemp
    exact (((((hdisplay.draw .clear).draw (.icon .fire)).draw .clear).draw (.icon .flake)).draw
      .clear).draw (.icon .leaf)

theorem neat_run {sensor : Reading ℚ} (eeprom : Eeprom) (rounds : ℕ) {its : List Iteration}
    (hsensor : -2 ^ 31 ≤ truncate w.intOfNan sensor ∧ truncate w.intOfNan sensor < 2 ^ 31)
    (hits : ∀ it ∈ its, -2 ^ 31 ≤ truncate w.intOfNan it.localtemp ∧
      truncate w.intOfNan it.localtemp < 2 ^ 31) :
    Neat w (run (iterate w) (setup w sensor eeprom rounds) its) :=
  (always_of_along (fun _ _ h hroom => h.iterate hroom) (neat_setup eeprom rounds hsensor)
    (along_of_forall_mem (fun it hit _ => hits it hit) _)).last

end Shapes

/-- The icon area of a picture: the fire if only the furnace is on, the flake if only the AC is, and
black once both are off again. -/
structure AreaShows (bits : Icon → ℕ → UInt8) (s : Stat) (picture : Frame) : Prop where
  fire : s.furnaceState = true → s.acState = false → ∀ x < 32, ∀ y < 32,
    pixel displayWidth picture (x + 16) (y + 16) = xbmBit (bits .fire) 32 x y
  flake : s.furnaceState = false → s.acState = true → ∀ x < 32, ∀ y < 32,
    pixel displayWidth picture (x + 16) (y + 16) = xbmBit (bits .flake) 32 x y
  off : s.furnaceState = false → s.acState = false → s.Switched → ∀ x < 32, ∀ y < 32,
    pixel displayWidth picture (x + 16) (y + 16) = false

theorem areaShows_of_showsIcon {bits : Icon → ℕ → UInt8} {s : Stat} {picture : Frame}
    (hshows : s.Switched → s.ShowsIcon) (htracked : s.relays.Tracked)
    (harea : ∀ x < 32, ∀ y < 32, pixel displayWidth picture (x + 16) (y + 16) =
      (iconArea s.drawn).any fun icon => xbmBit (bits icon) 32 x y) : AreaShows bits s picture := by
  refine ⟨fun hf ha x hx y hy => ?_, fun hf ha x hx y hy => ?_, fun hf ha hs x hx y hy => ?_⟩
  · have hs : s.Switched := ⟨_, switches_ne_nil (htracked.furnace.trans hf)⟩
    rw [harea x hx y hy, (hshows hs).fire hf ha, List.any_cons, List.any_nil, Bool.or_false]
  · have hs : s.Switched := ⟨_, switches_ne_nil (htracked.ac.trans ha)⟩
    rw [harea x hx y hy, (hshows hs).flake hf ha, List.any_cons, List.any_nil, Bool.or_false]
  · rw [harea x hx y hy, (hshows hs).off hf ha, List.any_nil]

/-- A display that has power and has not been used. -/
structure Unused (d : Device) : Prop where
  white : d.canvas.pen.color = .white
  lastChar : d.canvas.lastChar = 0
  command : d.panel.command = []

/-- What is on the panel after a transfer in a run of the thermostat whose temperatures fit an
`int`: whatever else is drawn beside the icon area, and however often the display is transferred on
the way, the area shows which of furnace and AC is on. That is once one of them has been switched,
and unless both are on; and as long as no iteration that starts with both on stops just one of
them. -/
theorem panel_area_shows (w : World) (sensor : Reading ℚ) (eeprom : Eeprom) (rounds : ℕ)
    (its : List Iteration)
    (hsensor : -2 ^ 31 ≤ truncate w.intOfNan sensor ∧ truncate w.intOfNan sensor < 2 ^ 31)
    (hits : ∀ it ∈ its, -2 ^ 31 ≤ truncate w.intOfNan it.localtemp ∧
      truncate w.intOfNan it.localtemp < 2 ^ 31)
    (hstops : Along (iterate w) (fun s it => ¬ StopsOne w (receive w it s))
      (setup w sensor eeprom rounds) its)
    (fonts : Fonts) (bits : Icon → ℕ → UInt8) {strokes : List Stroke}
    (hbeside : ∀ stroke ∈ strokes, stroke.Beside)
    (hdrawn : strokes.filterMap Stroke.draw? =
      (run (iterate w) (setup w sensor eeprom rounds) its).drawn.reverse)
    {d : Device} (hd : Unused d) {uses : List Use}
    (huses : uses.filterMap Use.call? = strokes.flatMap (Stroke.calls fonts bits)) :
    ∃ e, d.init.run uses = some e ∧
      AreaShows bits (run (iterate w) (setup w sensor eeprom rounds) its) e.display.panel.ram := by
  have hneat := neat_run (w := w) eeprom rounds hsensor hits
  have hlit : Lit (run (iterate w) (setup w sensor eeprom rounds) its) :=
    Always.last (P := Lit) (always_of_along (fun _ it h hC => (lit_iterate_iff h it).mpr hC)
      (lit_setup w sensor eeprom rounds) hstops)
  generalize run (iterate w) (setup w sensor eeprom rounds) its = s at *
  have hcanvas : d.init.canvas = { d.canvas with buffer := clear d.canvas.buffer } := by
    unfold Device.init Device.resetDisplay Device.display Device.blank Device.sendCommands
    rfl
  have hblank : Pictured bits (iconArea []) d.init.canvas := by
    rw [hcanvas]
    exact pictured_clear hd.white (by rw [hd.lastChar]; exact ⟨by decide, by decide⟩)
  obtain ⟨c, hrun, hpicture⟩ := pictured_strokes fonts hbeside
    (fun d' hd' => hneat.shapes d' (List.mem_reverse.mp (hdrawn ▸ hd'))) hblank
  rw [← huses] at hrun
  obtain ⟨e, he, rfl⟩ := exists_run hrun
  refine ⟨e, he, areaShows_of_showsIcon ?_ hlit.tracked ?_⟩
  · exact (sound_panel_iff hlit.tracked hlit.fan).mp hlit.sound
  · intro x hx y hy
    rw [hdrawn, List.reverse_reverse, List.append_nil] at hpicture
    have hsync := synchronous_run (synchronous_init hd.command) he
    have hram := (display_shows hsync.command fun i hi _ => hsync.ram i hi).2
    have hpixel := hpicture.area (x + 16) (y + 16) (by omega) (by omega) (by omega) (by omega)
    rw [Nat.add_sub_cancel, Nat.add_sub_cancel] at hpixel
    rw [← hpixel]
    unfold pixel
    rw [hram _ (by unfold displayWidth displayBufferSize; omega)]

/-- The fonts without their glyphs. -/
def blankFonts : Fonts where
  room i := arialMTPlain10.getD i.toNat 0
  target i := arialMTPlain24.getD i.toNat 0
  away i := arialMTPlain16.getD i.toNat 0
  room_startsWith _ _ := rfl
  target_startsWith _ _ := rfl
  away_startsWith _ _ := rfl

/-- The furnace starts at 60 degrees for a target of 68. -/
def heatingUp : Stat :=
  run (iterate tickingWorld) (setup tickingWorld (.num 60) Eeprom.erased 1) [⟨.num 60, none, 0⟩]

theorem heatingUp_area_shows :
    ∃ e, unusedDevice.init.run (((heatingUp.drawn.reverse.map Stroke.draw).flatMap
        (Stroke.calls blankFonts fun _ => UInt8.ofNat)).map Use.draw) = some e ∧
      ∀ x < 32, ∀ y < 32, pixel displayWidth e.display.panel.ram (x + 16) (y + 16) =
        xbmBit UInt8.ofNat 32 x y := by
  have hdraws (ds : List Draw) : (ds.map Stroke.draw).filterMap Stroke.draw? = ds := by
    rw [List.filterMap_map]
    exact List.filterMap_some
  have hcalls (calls : List Oled.Call) : (calls.map Use.draw).filterMap Use.call? = calls := by
    rw [List.filterMap_map]
    exact List.filterMap_some
  have hbeside : ∀ stroke ∈ heatingUp.drawn.reverse.map Stroke.draw, stroke.Beside := by
    intro stroke hmem
    obtain ⟨d, _, rfl⟩ := List.mem_map.mp hmem
    trivial
  obtain ⟨e, he, hshows⟩ := panel_area_shows tickingWorld (.num 60) Eeprom.erased 1
    [⟨.num 60, none, 0⟩] (by decide +kernel) (by decide +kernel) (by decide +kernel)
    blankFonts (fun _ => UInt8.ofNat) hbeside (hdraws _) (d := unusedDevice) ⟨rfl, rfl, rfl⟩
    (hcalls _)
  exact ⟨e, he, hshows.fire (by decide +kernel) (by decide +kernel)⟩

end Wyostat.OpenThermostat
