import Wyostat.Oled.Text

/-! The fonts of the library: the beginnings of their arrays, from the header to the entry of `Z` in
the jump table, and the widths that stand there. -/
namespace Wyostat.Oled

def arialMTPlain10 : List UInt8 :=
  [0x0A, 0x0D, 0x20, 0xE0, 0xFF, 0xFF, 0x00, 0x03, 0x00, 0x00, 0x04, 0x03, 0x00, 0x04, 0x05, 0x04,
    0x00, 0x09, 0x09, 0x06, 0x00, 0x12, 0x0A, 0x06, 0x00, 0x1C, 0x10, 0x09, 0x00, 0x2C, 0x0E, 0x07,
    0x00, 0x3A, 0x01, 0x02, 0x00, 0x3B, 0x06, 0x03, 0x00, 0x41, 0x06, 0x03, 0x00, 0x47, 0x05, 0x04,
    0x00, 0x4C, 0x09, 0x06, 0x00, 0x55, 0x04, 0x03, 0x00, 0x59, 0x03, 0x03, 0x00, 0x5C, 0x04, 0x03,
    0x00, 0x60, 0x05, 0x03, 0x00, 0x65, 0x0A, 0x06, 0x00, 0x6F, 0x08, 0x06, 0x00, 0x77, 0x0A, 0x06,
    0x00, 0x81, 0x0A, 0x06, 0x00, 0x8B, 0x0B, 0x06, 0x00, 0x96, 0x0A, 0x06, 0x00, 0xA0, 0x0A, 0x06,
    0x00, 0xAA, 0x09, 0x06, 0x00, 0xB3, 0x0A, 0x06, 0x00, 0xBD, 0x0A, 0x06, 0x00, 0xC7, 0x04, 0x03,
    0x00, 0xCB, 0x04, 0x03, 0x00, 0xCF, 0x0A, 0x06, 0x00, 0xD9, 0x09, 0x06, 0x00, 0xE2, 0x09, 0x06,
    0x00, 0xEB, 0x0B, 0x06, 0x00, 0xF6, 0x14, 0x0A, 0x01, 0x0A, 0x0E, 0x07, 0x01, 0x18, 0x0C, 0x07,
    0x01, 0x24, 0x0C, 0x07, 0x01, 0x30, 0x0B, 0x07, 0x01, 0x3B, 0x0C, 0x07, 0x01, 0x47, 0x09, 0x06,
    0x01, 0x50, 0x0D, 0x08, 0x01, 0x5D, 0x0C, 0x07, 0x01, 0x69, 0x04, 0x03, 0x01, 0x6D, 0x08, 0x05,
    0x01, 0x75, 0x0E, 0x07, 0x01, 0x83, 0x0C, 0x06, 0x01, 0x8F, 0x10, 0x08, 0x01, 0x9F, 0x0C, 0x07,
    0x01, 0xAB, 0x0E, 0x08, 0x01, 0xB9, 0x0B, 0x07, 0x01, 0xC4, 0x0E, 0x08, 0x01, 0xD2, 0x0C, 0x07,
    0x01, 0xDE, 0x0C, 0x07, 0x01, 0xEA, 0x0B, 0x06, 0x01, 0xF5, 0x0C, 0x07, 0x02, 0x01, 0x0D, 0x07,
    0x02, 0x0E, 0x11, 0x09, 0x02, 0x1F, 0x0E, 0x07, 0x02, 0x2D, 0x0D, 0x07, 0x02, 0x3A, 0x0C, 0x06]

def arialMTPlain16 : List UInt8 :=
  [0x10, 0x13, 0x20, 0xE0, 0xFF, 0xFF, 0x00, 0x04, 0x00, 0x00, 0x08, 0x04, 0x00, 0x08, 0x0D, 0x06,
    0x00, 0x15, 0x1A, 0x09, 0x00, 0x2F, 0x17, 0x09, 0x00, 0x46, 0x26, 0x0E, 0x00, 0x6C, 0x1D, 0x0B,
    0x00, 0x89, 0x04, 0x03, 0x00, 0x8D, 0x0C, 0x05, 0x00, 0x99, 0x0B, 0x05, 0x00, 0xA4, 0x0D, 0x06,
    0x00, 0xB1, 0x17, 0x09, 0x00, 0xC8, 0x09, 0x04, 0x00, 0xD1, 0x0B, 0x05, 0x00, 0xDC, 0x08, 0x04,
    0x00, 0xE4, 0x0A, 0x04, 0x00, 0xEE, 0x17, 0x09, 0x01, 0x05, 0x11, 0x09, 0x01, 0x16, 0x17, 0x09,
    0x01, 0x2D, 0x17, 0x09, 0x01, 0x44, 0x17, 0x09, 0x01, 0x5B, 0x17, 0x09, 0x01, 0x72, 0x17, 0x09,
    0x01, 0x89, 0x16, 0x09, 0x01, 0x9F, 0x17, 0x09, 0x01, 0xB6, 0x17, 0x09, 0x01, 0xCD, 0x05, 0x04,
    0x01, 0xD2, 0x06, 0x04, 0x01, 0xD8, 0x17, 0x09, 0x01, 0xEF, 0x17, 0x09, 0x02, 0x06, 0x17, 0x09,
    0x02, 0x1D, 0x16, 0x09, 0x02, 0x33, 0x2F, 0x10, 0x02, 0x62, 0x1D, 0x0B, 0x02, 0x7F, 0x1D, 0x0B,
    0x02, 0x9C, 0x20, 0x0C, 0x02, 0xBC, 0x20, 0x0C, 0x02, 0xDC, 0x1D, 0x0B, 0x02, 0xF9, 0x19, 0x0A,
    0x03, 0x12, 0x20, 0x0C, 0x03, 0x32, 0x1D, 0x0C, 0x03, 0x4F, 0x05, 0x04, 0x03, 0x54, 0x14, 0x08,
    0x03, 0x68, 0x1D, 0x0B, 0x03, 0x85, 0x17, 0x09, 0x03, 0x9C, 0x23, 0x0D, 0x03, 0xBF, 0x1D, 0x0C,
    0x03, 0xDC, 0x20, 0x0C, 0x03, 0xFC, 0x1C, 0x0B, 0x04, 0x18, 0x20, 0x0C, 0x04, 0x38, 0x1D, 0x0C,
    0x04, 0x55, 0x1D, 0x0B, 0x04, 0x72, 0x19, 0x0A, 0x04, 0x8B, 0x1D, 0x0C, 0x04, 0xA8, 0x1C, 0x0B,
    0x04, 0xC4, 0x2B, 0x0F, 0x04, 0xEF, 0x20, 0x0B, 0x05, 0x0F, 0x19, 0x0B, 0x05, 0x28, 0x1A, 0x0A]

def arialMTPlain24 : List UInt8 :=
  [0x18, 0x1C, 0x20, 0xE0, 0xFF, 0xFF, 0x00, 0x07, 0x00, 0x00, 0x13, 0x07, 0x00, 0x13, 0x1A, 0x09,
    0x00, 0x2D, 0x33, 0x0D, 0x00, 0x60, 0x2F, 0x0D, 0x00, 0x8F, 0x4F, 0x15, 0x00, 0xDE, 0x3B, 0x10,
    0x01, 0x19, 0x0A, 0x05, 0x01, 0x23, 0x1C, 0x08, 0x01, 0x3F, 0x1B, 0x08, 0x01, 0x5A, 0x21, 0x09,
    0x01, 0x7B, 0x32, 0x0E, 0x01, 0xAD, 0x10, 0x07, 0x01, 0xBD, 0x1B, 0x08, 0x01, 0xD8, 0x0F, 0x07,
    0x01, 0xE7, 0x19, 0x07, 0x02, 0x00, 0x2F, 0x0D, 0x02, 0x2F, 0x23, 0x0D, 0x02, 0x52, 0x2F, 0x0D,
    0x02, 0x81, 0x2F, 0x0D, 0x02, 0xB0, 0x2F, 0x0D, 0x02, 0xDF, 0x2F, 0x0D, 0x03, 0x0E, 0x2F, 0x0D,
    0x03, 0x3D, 0x2D, 0x0D, 0x03, 0x6A, 0x2F, 0x0D, 0x03, 0x99, 0x2F, 0x0D, 0x03, 0xC8, 0x0F, 0x07,
    0x03, 0xD7, 0x10, 0x07, 0x03, 0xE7, 0x2F, 0x0E, 0x04, 0x16, 0x2F, 0x0E, 0x04, 0x45, 0x2E, 0x0E,
    0x04, 0x73, 0x2E, 0x0D, 0x04, 0xA1, 0x5B, 0x18, 0x04, 0xFC, 0x3B, 0x10, 0x05, 0x37, 0x3B, 0x10,
    0x05, 0x72, 0x3F, 0x11, 0x05, 0xB1, 0x3F, 0x11, 0x05, 0xF0, 0x3B, 0x10, 0x06, 0x2B, 0x35, 0x0F,
    0x06, 0x60, 0x43, 0x13, 0x06, 0xA3, 0x3B, 0x11, 0x06, 0xDE, 0x0F, 0x07, 0x06, 0xED, 0x27, 0x0C,
    0x07, 0x14, 0x3F, 0x10, 0x07, 0x53, 0x2F, 0x0D, 0x07, 0x82, 0x43, 0x14, 0x07, 0xC5, 0x3B, 0x11,
    0x08, 0x00, 0x47, 0x13, 0x08, 0x47, 0x3A, 0x10, 0x08, 0x81, 0x47, 0x13, 0x08, 0xC8, 0x3F, 0x11,
    0x09, 0x07, 0x3B, 0x10, 0x09, 0x42, 0x35, 0x0F, 0x09, 0x77, 0x3B, 0x11, 0x09, 0xB2, 0x39, 0x10,
    0x09, 0xEB, 0x59, 0x17, 0x0A, 0x44, 0x3B, 0x10, 0x0A, 0x7F, 0x3D, 0x10, 0x0A, 0xBC, 0x37, 0x0F]

namespace Font

/-- The array of the font begins with these bytes; the glyphs are behind them. -/
def StartsWith (font : Font) (bytes : List UInt8) : Prop :=
  ∀ i < bytes.length, font (i : ℕ) = bytes.getD i 0

variable {font : Font} {bytes : List UInt8}

theorem StartsWith.entry (h : font.StartsWith bytes) (hfirst : bytes.getD 2 0 = 32)
    {code : UInt8} {byte : ℕ} (hcode : 32 ≤ code.toNat)
    (hbyte : 4 + (code.toNat - 32) * 4 + byte < bytes.length) :
    font.entry code byte = bytes.getD (4 + (code.toNat - 32) * 4 + byte) 0 := by
  have hfont : font.firstChar = 32 := (h 2 (by omega)).trans hfirst
  have hindex : 4 + (code.toNat - font.firstChar.toNat : ℤ) * 4 + byte =
      ((4 + (code.toNat - 32) * 4 + byte : ℕ) : ℤ) := by
    rw [hfont, show (32 : UInt8).toNat = 32 from rfl]
    omega
  unfold Font.entry
  rw [hindex, h _ hbyte]

theorem StartsWith.width_le (h : font.StartsWith bytes) (hfirst : bytes.getD 2 0 = 32) {lo hi k : ℕ}
    (hwidths : ∀ n < hi, lo ≤ n → (bytes.getD (4 + (n - 32) * 4 + 3) 0).toNat ≤ k)
    (hlo : 32 ≤ lo) (hhi : hi ≤ 256) (hlength : 4 * hi ≤ bytes.length + 124) {c : Char}
    (hc : lo ≤ c.toNat) (hc' : c.toNat < hi) :
    (font.entry (UInt8.ofNat c.toNat) 3).toNat ≤ k := by
  have hcode : (UInt8.ofNat c.toNat).toNat = c.toNat := by
    rw [UInt8.toNat_ofNat', Nat.mod_eq_of_lt (by omega)]
  rw [h.entry hfirst (by omega) (by omega), hcode]
  exact hwidths _ hc' hc

end Font
end Wyostat.Oled
