import Wyostat.Oled.Text
import Wyostat.Oled.Utf8

/-! Strings in lines and glyphs, and what any drawing call leaves alone. -/
namespace Wyostat.Oled
open Raster

inductive TextAlignment
  | left
  | right
  | center
  | centerBoth
  deriving DecidableEq, Repr

/-- What the drawing functions read besides their arguments. -/
structure Pen where
  color : Color := .white
  textAlignment : TextAlignment := .left
  fontData : Font

/-- The widths of the characters are added up from the end of the text, line by line. -/
def addWidth (font : Font) (code : UInt8) (width : UInt16 × UInt16) : UInt16 × UInt16 :=
  let stringWidth := width.1 + (font.entry code 3).toUInt16
  if code = 10 then (0, max width.2 stringWidth) else (stringWidth, width.2)

def getStringWidth (font : Font) (text : List UInt8) : UInt16 :=
  let width := text.foldr (addWidth font) (0, 0)
  max width.2 width.1

/-- The glyphs of a line; a code without one takes its width all the same. -/
def drawChars (pen : Pen) (xMove yMove : Int16) : List UInt8 → UInt8 → Frame → Frame
  | [], _, buffer => buffer
  | code :: text, cursorX, buffer =>
    let font := pen.fontData
    if font.firstChar ≤ code then
      let xPos := Int16.ofInt (xMove.toInt + cursorX.toNat)
      let jump := (font.entry code 0).toNat * 256 + (font.entry code 1).toNat
      let currentCharWidth := font.entry code 3
      let charDataPosition := UInt16.ofNat (4 + font.charNum.toNat * 4 + jump)
      let buffer := if jump ≠ 65535 then
          drawInternal pen.color buffer xPos yMove (Int16.ofInt currentCharWidth.toNat)
            (Int16.ofInt font.height.toNat) (fun i => font (charDataPosition.toNat + i : ℕ))
            (font.entry code 2).toUInt16
        else buffer
      drawChars pen xMove yMove text (cursorX + currentCharWidth) buffer
    else drawChars pen xMove yMove text cursorX buffer

/-- Where a line begins. -/
def alignX (alignment : TextAlignment) (xMove : Int16) (textWidth : UInt16) : Int16 :=
  match alignment with
  | .left => xMove
  | .right => Int16.ofInt (xMove.toInt - textWidth.toNat)
  | .center | .centerBoth => Int16.ofInt (xMove.toInt - (textWidth.toNat / 2 : ℕ))

def alignY (alignment : TextAlignment) (yMove : Int16) (textHeight : UInt8) : Int16 :=
  match alignment with
  | .centerBoth => Int16.ofInt (yMove.toInt - (textHeight.toNat / 2 : ℕ))
  | .left | .right | .center => yMove

def drawStringInternal (pen : Pen) (buffer : Frame) (xMove yMove : Int16) (text : List UInt8)
    (textWidth : UInt16) : Frame :=
  let textHeight := pen.fontData.height
  let xMove := alignX pen.textAlignment xMove textWidth
  let yMove := alignY pen.textAlignment yMove textHeight
  if xMove.toInt + textWidth.toNat < 0 ∨ displayWidth < xMove.toInt then buffer
  else if yMove.toInt + textHeight.toNat < 0 ∨ displayHeight < yMove.toInt then buffer
  else drawChars pen xMove yMove text 0 buffer

/-- `strtok` at line breaks: empty lines are passed over. -/
def textParts (text : List UInt8) : List (List UInt8) :=
  (text.splitOn 10).filter fun part => decide (part ≠ [])

def drawLines (pen : Pen) (xMove yMove : Int16) (yOffset : ℕ) :
    List (List UInt8) → ℕ → Frame → Frame
  | [], _, buffer => buffer
  | textPart :: parts, line, buffer =>
    let y := Int16.ofInt (yMove.toInt - yOffset + line * pen.fontData.height.toNat)
    drawLines pen xMove yMove yOffset parts (line + 1)
      (drawStringInternal pen buffer xMove y textPart (getStringWidth pen.fontData textPart))

/-- `drawString`, and `LASTCHAR` after it. -/
def drawString (pen : Pen) (buffer : Frame) (xMove yMove : Int16) (lastChar : UInt8)
    (strUser : List UInt8) : Frame × UInt8 :=
  let (lastChar, text) := utf8ascii lastChar strUser
  let yOffset := if pen.textAlignment = .centerBoth then
      text.count 10 * pen.fontData.height.toNat / 2
    else 0
  (drawLines pen xMove yMove yOffset (textParts text) 0 buffer, lastChar)

/-- `drawStringMaxWidth` between two characters of its text. -/
structure Wrapping where
  buffer : Frame
  lastDrawnPos : ℕ := 0
  lineNumber : ℕ := 0
  strWidth : UInt16 := 0
  preferredBreakpoint : ℕ := 0
  widthAtBreakpoint : UInt16 := 0

/-- The next character: lines break at a blank or a dash, or else where they get too wide. -/
def Wrapping.step (pen : Pen) (xMove yMove : Int16) (maxLineWidth : UInt16) (text : List UInt8)
    (w : Wrapping) (next : UInt8 × ℕ) : Wrapping :=
  let (code, i) := next
  let w := { w with strWidth := w.strWidth + (pen.fontData.entry code 3).toUInt16 }
  let broken := { w with preferredBreakpoint := i, widthAtBreakpoint := w.strWidth }
  let w := if code = 32 ∨ code = 45 then broken else w
  if maxLineWidth ≤ w.strWidth then
    let w := if w.preferredBreakpoint = 0 then broken else w
    let y := Int16.ofInt (yMove.toInt + w.lineNumber * pen.fontData.height.toNat)
    { w with
      buffer := drawStringInternal pen w.buffer xMove y
        ((text.take w.preferredBreakpoint).drop w.lastDrawnPos) w.widthAtBreakpoint
      lastDrawnPos := w.preferredBreakpoint + 1
      lineNumber := w.lineNumber + 1
      strWidth := w.strWidth - w.widthAtBreakpoint
      preferredBreakpoint := 0 }
  else w

/-- `drawStringMaxWidth`, and `LASTCHAR` after it. -/
def drawStringMaxWidth (pen : Pen) (buffer : Frame) (xMove yMove : Int16) (maxLineWidth : UInt16)
    (lastChar : UInt8) (strUser : List UInt8) : Frame × UInt8 :=
  let (lastChar, text) := utf8ascii lastChar strUser
  let w := text.zipIdx.foldl (Wrapping.step pen xMove yMove maxLineWidth text) { buffer }
  let y := Int16.ofInt (yMove.toInt + w.lineNumber * pen.fontData.height.toNat)
  let rest := text.drop w.lastDrawnPos
  (if w.lastDrawnPos < text.length then
      drawStringInternal pen w.buffer xMove y rest (getStringWidth pen.fontData rest)
    else w.buffer, lastChar)

/-- `drawLogBuffer` between two characters. -/
structure LogLines where
  buffer : Frame
  length : ℕ := 0
  line : ℕ := 0
  lastPos : ℕ := 0

/-- A line of the log; its width is not needed for texts aligned left. -/
def LogLines.drawn (pen : Pen) (xMove yMove : UInt16) (logBuffer : List UInt8) (l : LogLines) :
    Frame :=
  drawStringInternal pen l.buffer xMove.toInt16
    (Int16.ofInt (yMove.toNat + l.line * pen.fontData.height.toNat))
    ((logBuffer.drop l.lastPos).take l.length) 0

/-- The next character; every line but the first is drawn with the line break in front of it. -/
def LogLines.step (pen : Pen) (xMove yMove : UInt16) (logBuffer : List UInt8) (l : LogLines)
    (next : UInt8 × ℕ) : LogLines :=
  let l := { l with length := l.length + 1 }
  if next.1 = 10 then ⟨l.drawn pen xMove yMove logBuffer, 0, l.line + 1, next.2⟩ else l

/-- `drawLogBuffer`, once it has set the alignment to the left; the log buffer holds what has been
printed. -/
def drawLogBuffer (pen : Pen) (buffer : Frame) (xMove yMove : UInt16) (logBuffer : List UInt8) :
    Frame :=
  let l := logBuffer.zipIdx.foldl (LogLines.step pen xMove yMove logBuffer) { buffer }
  if 0 < l.length then l.drawn pen xMove yMove logBuffer else l.buffer

end Wyostat.Oled
