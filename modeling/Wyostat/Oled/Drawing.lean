import Wyostat.Lib.Raster
import Mathlib.Data.Int.Notation

/-! The drawing functions of the OLED library on its buffer of one bit to a pixel. -/
namespace Wyostat.Oled

def displayWidth : ℕ := 128
def displayHeight : ℕ := 64
def displayBufferSize : ℕ := 1024

inductive Color
  | white
  | black
  | inverse
  deriving DecidableEq, Repr

/-- The buffer and what lies behind it, by index. -/
abbrev Frame := ℕ → UInt8

/-- `|=`, `&= ~` or `^=` of a byte with the bits to be drawn. -/
def Color.put (color : Color) (drawBit byte : UInt8) : UInt8 :=
  match color with
  | .white => byte ||| drawBit
  | .black => byte &&& ~~~drawBit
  | .inverse => byte ^^^ drawBit

/-- A whole byte of pixels. -/
def Color.fill (color : Color) (byte : UInt8) : UInt8 :=
  match color with
  | .white => 0xFF
  | .black => 0x00
  | .inverse => ~~~byte

def setPixel (color : Color) (buffer : Frame) (x y : Int16) : Frame :=
  if 0 ≤ x ∧ x < 128 ∧ 0 ≤ y ∧ y < 64 then
    let x := x.toInt.toNat
    let y := y.toInt.toNat
    Function.update buffer (x + y / 8 * displayWidth)
      (color.put (1 <<< UInt8.ofNat (y % 8)) (buffer (x + y / 8 * displayWidth)))
  else buffer

/-- `length` bytes from a pointer on, each with the same bit. -/
def drawRow (color : Color) (drawBit : UInt8) : ℕ → Frame → ℕ → Frame
  | 0, buffer, _ => buffer
  | length + 1, buffer, ptr =>
    drawRow color drawBit length
      (Function.update buffer ptr (color.put drawBit (buffer ptr))) (ptr + 1)

/-- What is on the screen of a line, by its length and its start: the start is moved to the edge,
and the length cut at the other one. -/
def clip (size : ℤ) (start length : Int16) : Int16 × Int16 :=
  let (length, start) : Int16 × Int16 :=
    if start < 0 then (Int16.ofInt (length.toInt + start.toInt), 0) else (length, start)
  if size < start.toInt + length.toInt then (Int16.ofInt (size - start.toInt), start)
  else (length, start)

def drawHorizontalLine (color : Color) (buffer : Frame) (x y length : Int16) : Frame :=
  if y < 0 ∨ displayHeight ≤ y.toInt then buffer
  else
    let (length, x) := clip displayWidth x length
    if length ≤ 0 then buffer
    else
      let x := x.toInt.toNat
      let y := y.toInt.toNat
      drawRow color (1 <<< UInt8.ofNat (y % 8)) length.toInt.toNat buffer (y / 8 * displayWidth + x)

/-- Whole bytes from a pointer on, one below the other. -/
def drawPages (color : Color) : ℕ → Frame → ℕ → Frame
  | 0, buffer, _ => buffer
  | n + 1, buffer, ptr =>
    drawPages color n (Function.update buffer ptr (color.fill (buffer ptr))) (ptr + displayWidth)

/-- The part of a vertical line from the top of a page on. -/
def drawPagesAndRest (color : Color) (buffer : Frame) (ptr length : ℕ) : Frame :=
  let buffer := drawPages color (length / 8) buffer ptr
  let ptr := ptr + length / 8 * displayWidth
  if 0 < length % 8 then
    Function.update buffer ptr (color.put (1 <<< UInt8.ofNat (length % 8) - 1) (buffer ptr))
  else buffer

/-- The bits of a vertical line in a page that it enters `offset` pixels below the top. -/
def firstBits (offset length : ℕ) : UInt8 :=
  let yOffset := 8 - offset
  let drawBit : UInt8 := ~~~(0xFF >>> UInt8.ofNat yOffset)
  if length < yOffset then drawBit &&& (0xFF >>> UInt8.ofNat (yOffset - length)) else drawBit

/-- A vertical line that is on the screen. -/
def drawColumn (color : Color) (buffer : Frame) (x y length : ℕ) : Frame :=
  let ptr := y / 8 * displayWidth + x
  if y % 8 ≠ 0 then
    let buffer := Function.update buffer ptr (color.put (firstBits (y % 8) length) (buffer ptr))
    if length < 8 - y % 8 then buffer
    else drawPagesAndRest color buffer (ptr + displayWidth) (length - (8 - y % 8))
  else drawPagesAndRest color buffer ptr length

def drawVerticalLine (color : Color) (buffer : Frame) (x y length : Int16) : Frame :=
  if x < 0 ∨ displayWidth ≤ x.toInt then buffer
  else
    let (length, y) := clip displayHeight y length
    if length ≤ 0 then buffer
    else drawColumn color buffer x.toInt.toNat y.toInt.toNat length.toInt.toNat

/-- Vertical lines from one column on, one beside the other. -/
def fillColumns (color : Color) (y height : Int16) : ℕ → Frame → ℤ → Frame
  | 0, buffer, _ => buffer
  | n + 1, buffer, x =>
    fillColumns color y height n (drawVerticalLine color buffer (Int16.ofInt x) y height) (x + 1)

/-- `fillRect`; there is no end to it when the right edge is beyond what `x` can hold. -/
def fillRect (color : Color) (buffer : Frame) (xMove yMove width height : Int16) : Option Frame :=
  if xMove.toInt + width.toInt ≤ 32767 then
    some (fillColumns color yMove height width.toInt.toNat buffer xMove.toInt)
  else none

/-- Bresenham's loop: `err` tells when the other coordinate moves. -/
def drawLineFrom (color : Color) (steep : Bool) (dx dy ystep : Int16) :
    ℕ → ℤ → Int16 → Int16 → Frame → Frame
  | 0, _, _, _, buffer => buffer
  | n + 1, x0, y0, err, buffer =>
    let buffer := if steep then setPixel color buffer y0 (Int16.ofInt x0)
      else setPixel color buffer (Int16.ofInt x0) y0
    let err := err - dy
    if err < 0 then
      drawLineFrom color steep dx dy ystep n (x0 + 1) (y0 + ystep) (err + dx) buffer
    else drawLineFrom color steep dx dy ystep n (x0 + 1) y0 err buffer

/-- A line from left to right; there is no end to it when it ends at the last number that `x0` can
hold. -/
def drawLineRight (color : Color) (buffer : Frame) (steep : Bool) (x0 y0 x1 y1 : Int16) :
    Option Frame :=
  let dx := x1 - x0
  let dy := Int16.ofInt (y1.toInt - y0.toInt).natAbs
  let ystep := if y0 < y1 then 1 else -1
  if x1.toInt < 32767 then
    some (drawLineFrom color steep dx dy ystep (x1.toInt - x0.toInt + 1).toNat x0.toInt y0 (dx / 2)
      buffer)
  else none

def drawLine (color : Color) (buffer : Frame) (x0 y0 x1 y1 : Int16) : Option Frame :=
  let steep := decide ((x1.toInt - x0.toInt).natAbs < (y1.toInt - y0.toInt).natAbs)
  let (x0, y0, x1, y1) := if steep then (y0, x0, y1, x1) else (x0, y0, x1, y1)
  let (x0, y0, x1, y1) := if x1 < x0 then (x1, y1, x0, y0) else (x0, y0, x1, y1)
  drawLineRight color buffer steep x0 y0 x1 y1

def drawRect (color : Color) (buffer : Frame) (x y width height : Int16) : Frame :=
  let buffer := drawHorizontalLine color buffer x y width
  let buffer := drawVerticalLine color buffer x y height
  let buffer := drawVerticalLine color buffer (x + width - 1) y height
  drawHorizontalLine color buffer x (y + height - 1) width

/-- A point of an octant, and the `dp` that tells the next one. -/
structure Octant where
  x : Int16
  y : Int16
  dp : Int16

def Octant.next (o : Octant) : Octant :=
  let x := o.x + 1
  if o.dp < 0 then ⟨x, o.y, o.dp + 2 * x + 3⟩
  else
    let y := o.y - 1
    ⟨x, y, o.dp + 2 * x - 2 * y + 5⟩

/-- The loops `while (x < y)`, with what they draw at a point. -/
def Octant.draw (plot : Int16 → Int16 → Frame → Frame) (o : Octant) (buffer : Frame) : Frame :=
  if o.x < o.y then o.next.draw plot (plot o.next.x o.next.y buffer) else buffer
termination_by (o.y.toInt - o.x.toInt).toNat
decreasing_by
  rename_i h
  obtain ⟨x, y, dp⟩ := o
  have hlt : x.toInt < y.toInt := Int16.lt_iff_toInt_lt.mp h
  have hleft := x.le_toInt
  have hright := y.toInt_lt
  have hone : (1 : Int16).toInt = 1 := rfl
  have hx : (x + 1).toInt = x.toInt + 1 := by
    rw [Int16.toInt_add, hone]
    exact Int.bmod_eq_of_le (by omega) (by omega)
  have hy : (y - 1).toInt = y.toInt - 1 := by
    rw [Int16.toInt_sub, hone]
    exact Int.bmod_eq_of_le (by omega) (by omega)
  unfold Octant.next
  dsimp only
  split
  · dsimp only
    omega
  · dsimp only
    omega

/-- The loops that draw the first point in any case. -/
def Octant.drawOnce (plot : Int16 → Int16 → Frame → Frame) (o : Octant) (buffer : Frame) : Frame :=
  o.next.draw plot (plot o.next.x o.next.y buffer)

def octantOf (radius : Int16) : Octant := ⟨0, radius, 1 - radius⟩

def setPoints (color : Color) (points : List (Int16 × Int16)) (buffer : Frame) : Frame :=
  points.foldl (fun buffer p => setPixel color buffer p.1 p.2) buffer

def drawCircle (color : Color) (buffer : Frame) (x0 y0 radius : Int16) : Frame :=
  let plot (x y : Int16) := setPoints color [(x0 + x, y0 + y), (x0 - x, y0 + y), (x0 + x, y0 - y),
    (x0 - x, y0 - y), (x0 + y, y0 + x), (x0 - y, y0 + x), (x0 + y, y0 - x), (x0 - y, y0 - x)]
  setPoints color [(x0 + radius, y0), (x0, y0 + radius), (x0 - radius, y0), (x0, y0 - radius)]
    ((octantOf radius).drawOnce plot buffer)

def drawCircleQuads (color : Color) (buffer : Frame) (x0 y0 radius : Int16) (quads : UInt8) :
    Frame :=
  let quad (bit : UInt8) (points : List (Int16 × Int16)) := if quads &&& bit ≠ 0 then points else []
  let quads2 (bit bit' : UInt8) (p : Int16 × Int16) := quad bit (quad bit' [p])
  let plot (x y : Int16) := setPoints color (
    quad 0x1 [(x0 + x, y0 - y), (x0 + y, y0 - x)] ++
      quad 0x2 [(x0 - y, y0 - x), (x0 - x, y0 - y)] ++
    quad 0x4 [(x0 - y, y0 + x), (x0 - x, y0 + y)] ++ quad 0x8 [(x0 + x, y0 + y), (x0 + y, y0 + x)])
  setPoints color (quads2 0x1 0x8 (x0 + radius, y0) ++ quads2 0x4 0x8 (x0, y0 + radius) ++
    quads2 0x2 0x4 (x0 - radius, y0) ++ quads2 0x1 0x2 (x0, y0 - radius))
    ((octantOf radius).draw plot buffer)

def fillCircle (color : Color) (buffer : Frame) (x0 y0 radius : Int16) : Frame :=
  let plot (x y : Int16) (buffer : Frame) :=
    let buffer := drawHorizontalLine color buffer (x0 - x) (y0 - y) (2 * x)
    let buffer := drawHorizontalLine color buffer (x0 - x) (y0 + y) (2 * x)
    let buffer := drawHorizontalLine color buffer (x0 - y) (y0 - x) (2 * y)
    drawHorizontalLine color buffer (x0 - y) (y0 + x) (2 * y)
  drawHorizontalLine color ((octantOf radius).drawOnce plot buffer) (x0 - radius) y0 (2 * radius)

/-- `drawProgressBar`, once it has set the colour to white. -/
def drawProgressBar (buffer : Frame) (x y width height : UInt16) (progress : UInt8) :
    Option Frame :=
  let radius := height / 2
  let xRadius := x + radius
  let yRadius := y + radius
  let doubleRadius := 2 * radius
  let innerRadius := radius - 2
  let fill (buffer : Frame) (x : UInt16) :=
    fillCircle .white buffer x.toInt16 yRadius.toInt16 innerRadius.toInt16
  let buffer := drawCircleQuads .white buffer xRadius.toInt16 yRadius.toInt16 radius.toInt16 0x06
  let length := (width - doubleRadius + 1).toInt16
  let buffer := drawHorizontalLine .white buffer xRadius.toInt16 y.toInt16 length
  let buffer := drawHorizontalLine .white buffer xRadius.toInt16 (y + height).toInt16 length
  let buffer := drawCircleQuads .white buffer (x + width - radius).toInt16 yRadius.toInt16
    radius.toInt16 0x09
  let maxProgressWidth := UInt16.ofInt
    (((width.toNat - doubleRadius.toNat - 1 : ℤ) * progress.toNat).tdiv 100)
  (fillRect .white (fill buffer xRadius) (xRadius + 1).toInt16 (y + 2).toInt16
    maxProgressWidth.toInt16 (height - 3).toInt16).map
    fun buffer => fill buffer (xRadius + maxProgressWidth)

/-- One row of a picture: the bits of each byte are drawn while the byte is shifted out. -/
def drawXbmRow (color : Color) (xbm : ℕ → UInt8) (xMove yMove : Int16) (start y : ℕ) :
    ℕ → ℕ → UInt8 → Frame → Frame
  | 0, _, _, buffer => buffer
  | n + 1, x, data, buffer =>
    let data := if x % 8 ≠ 0 then data >>> 1 else xbm (x / 8 + start)
    let buffer := if data &&& 0x01 ≠ 0 then
        setPixel color buffer (Int16.ofInt (xMove.toInt + x)) (Int16.ofInt (yMove.toInt + y))
      else buffer
    drawXbmRow color xbm xMove yMove start y n (x + 1) data buffer

/-- `data` is not reset from one row to the next, and need not be: the first bit of a row has its
byte read. -/
def drawXbmRows (color : Color) (xbm : ℕ → UInt8) (xMove yMove : Int16) (width : ℕ) :
    ℕ → ℕ → Frame → Frame
  | 0, _, buffer => buffer
  | n + 1, y, buffer =>
    drawXbmRows color xbm xMove yMove width n (y + 1)
      (drawXbmRow color xbm xMove yMove (y * ((width + 7) / 8)) y width 0 0 buffer)

def drawXbm (color : Color) (buffer : Frame) (xMove yMove width height : Int16)
    (xbm : ℕ → UInt8) : Frame :=
  drawXbmRows color xbm xMove yMove width.toInt.toNat height.toInt.toNat 0 buffer

def clear (buffer : Frame) : Frame := fun i => if i < displayBufferSize then 0 else buffer i

end Wyostat.Oled
