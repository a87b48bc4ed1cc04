import Wyostat.Oled.Keeping

/-! The transfer to the panel: of the buffer only the smallest window is sent that holds all changes
since the transfer before. -/
namespace Wyostat.Oled

/-- The bus: what has been sent, and the transmission that is being put together. -/
structure Wire where
  sent : List (List UInt8) := []
  txBuffer : List UInt8 := []

namespace Wire

def beginTransmission (w : Wire) : Wire := { w with txBuffer := [] }
def write (byte : UInt8) (w : Wire) : Wire := { w with txBuffer := w.txBuffer ++ [byte] }
def endTransmission (w : Wire) : Wire := ⟨w.sent ++ [w.txBuffer], []⟩

end Wire

def sendCommand (w : Wire) (command : UInt8) : Wire :=
  (w.beginTransmission.write 0x80 |>.write command).endTransmission

/-- The bounding box of the changes. -/
structure Bounds where
  minX : UInt8 := 255
  maxX : UInt8 := 0
  minY : UInt8 := 255
  maxY : UInt8 := 0

def Bounds.add (b : Bounds) (x y : UInt8) : Bounds :=
  ⟨min b.minX x, max b.maxX x, min b.minY y, max b.maxY y⟩

/-- The columns of a page, then the pages. -/
def Bounds.addChanges (buffer bufferBack : Frame) (b : Bounds) : Bounds :=
  (List.range 8).foldl (fun b y => (List.range displayWidth).foldl (fun b x =>
    if buffer (x + y * displayWidth) ≠ bufferBack (x + y * displayWidth) then
      b.add (UInt8.ofNat x) (UInt8.ofNat y)
    else b) b) b

/-- The bytes of a window in the order of sending. -/
def Bounds.window (b : Bounds) (buffer : Frame) : List UInt8 :=
  (List.range' b.minY.toNat (b.maxY.toNat + 1 - b.minY.toNat)).flatMap fun y =>
    (List.range' b.minX.toNat (b.maxX.toNat + 1 - b.minX.toNat)).map fun x =>
      buffer (x + y * displayWidth)

/-- One byte of data, in transmissions of sixteen. -/
def sendByte (w : Wire × ℕ) (byte : UInt8) : Wire × ℕ :=
  let (wire, k) := w
  let wire := if k = 0 then wire.beginTransmission.write 0x40 else wire
  let wire := wire.write byte
  if k + 1 = 16 then (wire.endTransmission, 0) else (wire, k + 1)

def sendBytes (wire : Wire) (bytes : List UInt8) : Wire :=
  let (wire, k) := bytes.foldl sendByte (wire, 0)
  if k ≠ 0 then wire.endTransmission else wire

/-- What `display` sends. The test for no changes compares a byte with `~0`, which is negative, and
is never true: without changes it sends the commands for a window from 255 to 0 and no data. -/
def sendChanges (buffer bufferBack : Frame) (wire : Wire) : Wire :=
  let b := Bounds.addChanges buffer bufferBack {}
  let wire := [0x21, b.minX, b.maxX, 0x22, b.minY, b.maxY].foldl sendCommand wire
  sendBytes wire (b.window buffer)

/-- The panel, its memory by column and page: it takes data into a window of its memory, column by
column and page by page, and starts over at the end. -/
structure Panel where
  ram : Frame
  colStart : ℕ
  colEnd : ℕ
  pageStart : ℕ
  pageEnd : ℕ
  col : ℕ
  page : ℕ
  /-- The bytes so far of a command that is not complete. -/
  command : List UInt8 := []

namespace Panel

def write (p : Panel) (byte : UInt8) : Panel :=
  { p with
    ram := Function.update p.ram (p.col + p.page * displayWidth) byte
    col := if p.col = p.colEnd then p.colStart else p.col + 1
    page :=
      if p.col = p.colEnd then if p.page = p.pageEnd then p.pageStart else p.page + 1 else p.page }

/-- How many bytes follow a command, of those that the library sends. -/
def arguments (command : UInt8) : ℕ :=
  if command = 0x21 ∨ command = 0x22 then 2
  else if command ∈ ([0x20, 0x81, 0x8D, 0xA8, 0xD3, 0xD5, 0xD9, 0xDA] : List UInt8) then 1
  else 0

/-- A complete command. Only the two for the window change what is modelled here; columns are of
seven bits and pages of three. -/
def execute (p : Panel) (command : UInt8) : List UInt8 → Panel
  | [first, last] =>
    if command = 0x21 then
      { p with
        colStart := first.toNat % 128
        colEnd := last.toNat % 128
        col := first.toNat % 128 }
    else
      { p with
        pageStart := first.toNat % 8
        pageEnd := last.toNat % 8
        page := first.toNat % 8 }
  | _ => p

def order (p : Panel) (byte : UInt8) : Panel :=
  match p.command ++ [byte] with
  | command :: bytes =>
    if bytes.length < arguments command then { p with command := command :: bytes }
    else { p.execute command bytes with command := [] }
  | [] => p

/-- One transmission: its first byte tells commands from data. -/
def receive (p : Panel) : List UInt8 → Panel
  | control :: bytes =>
    if control = 0x40 then bytes.foldl write p
    else if control = 0x80 then bytes.foldl order p
    else p
  | [] => p

end Panel

def initCommands : List UInt8 :=
  [0xAE, 0xD5, 0xF0, 0xA8, 0x3F, 0xD3, 0x00, 0x40, 0x8D, 0x14, 0x20, 0x00, 0xA0, 0xC0, 0xDA, 0x12,
    0x81, 0xCF, 0xD9, 0xF1, 0xA4, 0xA6, 0x2E, 0xAF]

/-- The functions that send a command and nothing else. -/
inductive Command
  | displayOn
  | displayOff
  | invertDisplay
  | normalDisplay
  | setContrast (contrast : UInt8)
  | flipScreenVertically

def Command.bytes : Command → List UInt8
  | .displayOn => [0xAF]
  | .displayOff => [0xAE]
  | .invertDisplay => [0xA7]
  | .normalDisplay => [0xA6]
  | .setContrast contrast => [0x81, contrast]
  | .flipScreenVertically => [0xA0 ||| 0x01, 0xC8]

/-- The library and the panel. -/
structure Device where
  canvas : Canvas
  bufferBack : Frame
  panel : Panel

namespace Device

def sendCommands (d : Device) (commands : List UInt8) : Device :=
  { d with panel := (commands.foldl sendCommand {}).sent.foldl Panel.receive d.panel }

def display (d : Device) : Device :=
  { d with
    bufferBack := fun i => if i < displayBufferSize then d.canvas.buffer i else d.bufferBack i
    panel := (sendChanges d.canvas.buffer d.bufferBack {}).sent.foldl Panel.receive d.panel }

/-- The buffer is cleared, and the other one made to differ everywhere. -/
def blank (d : Device) : Device :=
  { d with
    canvas := { d.canvas with buffer := clear d.canvas.buffer }
    bufferBack := fun i => if i < displayBufferSize then 1 else d.bufferBack i }

def resetDisplay (d : Device) : Device := d.blank.display

/-- `init`, when there is memory for the buffers. -/
def init (d : Device) : Device := (d.sendCommands initCommands).resetDisplay

end Device

/-- What a program does with the display. -/
inductive Use
  | draw (call : Call)
  | command (c : Command)
  | display
  | reset

/-- What a use does to the buffer. -/
def Use.call? : Use → Option Call
  | .draw call => some call
  | .reset => some .clear
  | .command _ | .display => none

def Device.use (d : Device) : Use → Option Device
  | .draw call => (d.canvas.call call).map fun canvas => { d with canvas }
  | .command c => some (d.sendCommands c.bytes)
  | .display => some d.display
  | .reset => some d.resetDisplay

def Device.run (d : Device) (uses : List Use) : Option Device := uses.foldlM Device.use d

end Wyostat.Oled
