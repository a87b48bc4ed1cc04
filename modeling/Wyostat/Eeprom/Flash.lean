import Wyostat.Lib.WriteBack
import Mathlib.Data.Int.Notation
import Mathlib.Logic.Function.Basic

/-! The EEPROM of the ESP32: a copy in memory of the first bytes of a flash sector, which is erased
and written as a whole when a change is committed. -/
namespace Wyostat
open Machine WriteBack

/-- `SPI_FLASH_SEC_SIZE` -/
def sectorSize : ℕ := 4096

/-- The object, and the sector it is kept in. -/
structure EEPROMClass where
  flash : ℕ → UInt8
  data : Option (ℕ → UInt8)
  size : ℕ
  dirty : Bool

namespace EEPROMClass

/-- How `esp_partition_erase_range` and `esp_partition_write` go: of the errors of the latter
`commit()` knows only ESP_ERR_INVALID_SIZE, for which nothing is written. -/
inductive Outcome where
  | written
  | eraseFails (left : ℕ → UInt8)
  | invalidSize
  | writeFails (left : ℕ → UInt8)

def powerUp (flash : ℕ → UInt8) : EEPROMClass := ⟨flash, none, 0, false⟩

/-- `(size + 3) & ~3` of at most a sector. -/
def roundedSize (size : ℕ) : ℕ := (min size sectorSize + 3) / 4 * 4

/-- `begin()`; `misread` is what a failing `esp_partition_read` leaves in the new array. -/
def begin (e : EEPROMClass) (size : ℕ) (found : Bool) (misread : Option (ℕ → UInt8)) :
    EEPROMClass × Bool :=
  if size = 0 ∨ found = false then (e, false)
  else match misread with
    | none => ({ e with data := some e.flash, size := roundedSize size }, true)
    | some got => ({ e with data := some got, size := roundedSize size }, false)

def read (e : EEPROMClass) (address : ℤ) : UInt8 :=
  if address < 0 ∨ (e.size : ℤ) ≤ address then 0
  else match e.data with
    | none => 0
    | some data => data address.toNat

def write (e : EEPROMClass) (address : ℤ) (value : UInt8) : EEPROMClass :=
  if address < 0 ∨ (e.size : ℤ) ≤ address then e
  else match e.data with
    | none => e
    | some data =>
      if data address.toNat = value then e
      else { e with data := some (Function.update data address.toNat value), dirty := true }

def commit (e : EEPROMClass) (outcome : Outcome) : EEPROMClass × Bool :=
  if e.size = 0 then (e, false)
  else if e.dirty = false then (e, true)
  else match e.data with
    | none => (e, false)
    | some data => match outcome with
      | .written =>
        ({ e with flash := fun i => if i < e.size then data i else 255, dirty := false }, true)
      | .eraseFails left => ({ e with flash := left }, false)
      | .invalidSize => ({ e with flash := fun _ => 255 }, false)
      | .writeFails left => ({ e with flash := left, dirty := false }, true)

/-- `end()` -/
def finish (e : EEPROMClass) (outcome : Outcome) : EEPROMClass :=
  if e.size = 0 then e else { (e.commit outcome).1 with data := none, size := 0 }

/-- The power fails and comes back: the memory is lost, the sector is not. -/
def cut (e : EEPROMClass) : EEPROMClass := powerUp e.flash

inductive Call where
  | begin (size : ℕ) (found : Bool) (misread : Option (ℕ → UInt8))
  | write (address : ℤ) (value : UInt8)
  | commit (outcome : Outcome)
  | finish (outcome : Outcome)
  | cut

def step (e : EEPROMClass) : Call → EEPROMClass
  | .begin size found misread => (e.begin size found misread).1
  | .write address value => e.write address value
  | .commit outcome => (e.commit outcome).1
  | .finish outcome => e.finish outcome
  | .cut => e.cut

end EEPROMClass

end Wyostat
