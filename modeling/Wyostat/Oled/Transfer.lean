import Wyostat.Oled.Display

/-! After every transfer the panel shows the buffer. -/
namespace Wyostat.Oled

section Bus

/-- What the panel has made of a transmission that is still open. -/
def received (p : Panel) (w : Wire × ℕ) : Panel :=
  (if w.2 = 0 then [] else w.1.txBuffer.tail).foldl Panel.write (w.1.sent.foldl Panel.receive p)

/-- An open transmission is one of data. -/
def DataOpen (w : Wire × ℕ) : Prop := w.2 ≠ 0 → w.1.txBuffer.head? = some 0x40

theorem receive_data (p : Panel) (bytes : List UInt8) :
    p.receive (0x40 :: bytes) = bytes.foldl Panel.write p := rfl

theorem sendByte_received (p : Panel) {w : Wire × ℕ} (h : DataOpen w) (byte : UInt8) :
    received p (sendByte w byte) = (received p w).write byte ∧ DataOpen (sendByte w byte) := by
  obtain ⟨⟨sent, txBuffer⟩, k⟩ := w
  have hopen : ∃ data, (if k = 0 then [] else txBuffer.tail) = data ∧
      (if k = 0 then [0x40] else txBuffer) = 0x40 :: data := by
    rcases Nat.eq_zero_or_pos k with rfl | hk
    · exact ⟨[], rfl, rfl⟩
    · have hhead := h (show k ≠ 0 by omega)
      rw [if_neg (by omega), if_neg (by omega)]
      rcases txBuffer with _ | ⟨control, data⟩
      · cases hhead
      · cases hhead
        exact ⟨data, rfl, rfl⟩
  obtain ⟨data, htail, hbuffer⟩ := hopen
  have hsend : sendByte (⟨sent, txBuffer⟩, k) byte =
      if k + 1 = 16 then (⟨sent ++ [0x40 :: data ++ [byte]], []⟩, 0)
      else (⟨sent, 0x40 :: data ++ [byte]⟩, k + 1) := by
    rw [← hbuffer]
    unfold sendByte Wire.beginTransmission Wire.write Wire.endTransmission
    by_cases hk : k = 0
    · simp only [hk, if_true]
      rfl
    · simp only [hk, if_false]
  have hbefore : received p (⟨sent, txBuffer⟩, k) =
      data.foldl Panel.write (sent.foldl Panel.receive p) := by
    unfold received
    rw [htail]
  rw [hsend, hbefore]
  split
  · refine ⟨?_, fun h => absurd rfl h⟩
    unfold received
    rw [if_pos rfl, List.foldl_append, List.foldl_cons, List.cons_append, receive_data,
      List.foldl_append]
    rfl
  · refine ⟨?_, fun _ => rfl⟩
    unfold received
    rw [if_neg (Nat.succ_ne_zero k), List.cons_append, List.tail_cons, List.foldl_append]
    rfl

/-- However the data is cut into transmissions, the panel gets it byte by byte. -/
theorem sendBytes_received (p : Panel) (wire : Wire) (bytes : List UInt8) :
    (sendBytes wire bytes).sent.foldl Panel.receive p =
      bytes.foldl Panel.write (wire.sent.foldl Panel.receive p) := by
  have hfold : ∀ (bytes : List UInt8) (w : Wire × ℕ), DataOpen w →
      received p (bytes.foldl sendByte w) = bytes.foldl Panel.write (received p w) ∧
        DataOpen (bytes.foldl sendByte w) := by
    intro bytes
    induction bytes with
    | nil => exact fun w h => ⟨rfl, h⟩
    | cons byte bytes ih =>
      intro w h
      obtain ⟨hbyte, hopen⟩ := sendByte_received p h byte
      rw [List.foldl_cons, List.foldl_cons, ← hbyte]
      exact ih _ hopen
  obtain ⟨hbytes, hopen⟩ := hfold bytes (wire, 0) fun h => absurd rfl h
  unfold sendBytes
  generalize bytes.foldl sendByte (wire, 0) = w at *
  obtain ⟨⟨sent, txBuffer⟩, k⟩ := w
  have hwire : received p (wire, 0) = wire.sent.foldl Panel.receive p := rfl
  rw [← hwire, ← hbytes]
  unfold received
  dsimp only
  by_cases hk : k = 0
  · rw [if_neg (not_not.mpr hk), if_pos hk]
    rfl
  · rw [if_pos hk, if_neg hk]
    have hhead := hopen hk
    rcases txBuffer with _ | ⟨control, data⟩
    · cases hhead
    · cases hhead
      show (sent ++ [0x40 :: data]).foldl Panel.receive p = _
      rw [List.foldl_append]
      rfl

theorem sendCommands_received (p : Panel) (commands : List UInt8) (wire : Wire) :
    (commands.foldl sendCommand wire).sent.foldl Panel.receive p =
      commands.foldl Panel.order (wire.sent.foldl Panel.receive p) := by
  induction commands generalizing wire with
  | nil => rfl
  | cons command commands ih =>
    rw [List.foldl_cons, List.foldl_cons, ih]
    have hsent : (sendCommand wire command).sent = wire.sent ++ [[0x80, command]] := rfl
    rw [hsent, List.foldl_append]
    rfl

end Bus

section Windows
variable {p : Panel} {f : Frame}

theorem write_columns (n c : ℕ) (hcol : p.col = c) (hend : c + n = p.colEnd + 1)
    (hwidth : p.colEnd < 128) (hn : 0 < n) :
    ((List.range' c n).map fun x => f (x + p.page * displayWidth)).foldl Panel.write p =
      { p with
        ram := fun i => if i / 128 = p.page ∧ c ≤ i % 128 ∧ i % 128 ≤ p.colEnd then f i else p.ram i
        col := p.colStart
        page := if p.page = p.pageEnd then p.pageStart else p.page + 1 } := by
  induction n generalizing p c with
  | zero => omega
  | succ n ih =>
    have hram (i : ℕ) : (p.write (f (c + p.page * displayWidth))).ram i =
        if i / 128 = p.page ∧ i % 128 = c then f i else p.ram i := by
      show Function.update p.ram (p.col + p.page * 128) (f (c + p.page * 128)) i = _
      rw [hcol]
      by_cases hi : i / 128 = p.page ∧ i % 128 = c
      · rw [if_pos hi, show i = c + p.page * 128 by omega, Function.update_self]
      · rw [if_neg hi, Function.update_of_ne (by omega)]
    rw [List.range'_succ, List.map_cons, List.foldl_cons]
    rcases Nat.eq_zero_or_pos n with rfl | hpos
    · have hlast : p.col = p.colEnd := by omega
      show p.write (f (c + p.page * displayWidth)) = _
      rw [Panel.mk.injEq]
      refine ⟨funext fun i => ?_, rfl, rfl, rfl, rfl, if_pos hlast, if_pos hlast, rfl⟩
      rw [hram i]
      exact if_congr (by omega) rfl rfl
    · have hnext : p.col ≠ p.colEnd := by omega
      have hpage : (p.write (f (c + p.page * displayWidth))).page = p.page := if_neg hnext
      have hcol' : (p.write (f (c + p.page * displayWidth))).col = c + 1 := by
        show (if p.col = p.colEnd then p.colStart else p.col + 1) = c + 1
        rw [if_neg hnext, hcol]
      have hrest := ih (p := p.write (f (c + p.page * displayWidth))) (c + 1) hcol'
        (by show c + 1 + n = p.colEnd + 1; omega) hwidth hpos
      rw [hpage] at hrest
      rw [hrest, Panel.mk.injEq]
      refine ⟨funext fun i => ?_, rfl, rfl, rfl, rfl, rfl, rfl, rfl⟩
      rw [hram i]
      show (if i / 128 = p.page ∧ c + 1 ≤ i % 128 ∧ i % 128 ≤ p.colEnd then f i
        else if i / 128 = p.page ∧ i % 128 = c then f i else p.ram i) = _
      rw [← ite_or]
      exact if_congr (by omega) rfl rfl

theorem write_pages (m : ℕ) (y : ℕ) (hpage : p.page = y) (hend : y + m = p.pageEnd + 1)
    (hcol : p.col = p.colStart) (hcols : p.colStart ≤ p.colEnd) (hwidth : p.colEnd < 128) (i : ℕ) :
    (((List.range' y m).flatMap fun y =>
        (List.range' p.colStart (p.colEnd + 1 - p.colStart)).map fun x =>
          f (x + y * displayWidth)).foldl Panel.write p).ram i =
      if (y ≤ i / 128 ∧ i / 128 ≤ p.pageEnd) ∧ p.colStart ≤ i % 128 ∧ i % 128 ≤ p.colEnd then f i
      else p.ram i := by
  induction m generalizing p y with
  | zero =>
    rw [if_neg (by omega)]
    rfl
  | succ m ih =>
    rw [List.range'_succ, List.flatMap_cons, List.foldl_append, ← hpage,
      write_columns (p.colEnd + 1 - p.colStart) p.colStart hcol (by omega) hwidth (by omega)]
    rcases Nat.eq_zero_or_pos m with rfl | hpos
    · show (if _ then _ else _) = _
      exact if_congr (by omega) rfl rfl
    · have hrest := ih (p := { p with
          ram := fun i => if i / 128 = p.page ∧ p.colStart ≤ i % 128 ∧ i % 128 ≤ p.colEnd then f i
            else p.ram i
          col := p.colStart
          page := if p.page = p.pageEnd then p.pageStart else p.page + 1 }) (p.page + 1)
        (if_neg (by omega)) (by show p.page + 1 + m = p.pageEnd + 1; omega) rfl hcols hwidth
      rw [hrest]
      dsimp only
      rw [← ite_or]
      exact if_congr (by omega) rfl rfl

end Windows

section Changes
variable {α β : Type*} {step : β → α → β} {Q : β → Prop}

theorem foldl_of_mem (hkeep : ∀ b a, Q b → Q (step b a)) {l : List α} {a : α} (ha : a ∈ l)
    (hmake : ∀ b, Q (step b a)) (b : β) : Q (l.foldl step b) := by
  induction l generalizing b with
  | nil => cases ha
  | cons a' l ih =>
    rcases List.mem_cons.mp ha with rfl | ha
    · exact List.foldlRecOn l step (hmake b) fun b hb a _ => hkeep b a hb
    · exact ih ha (step b a')

/-- A pixel column and a page inside the bounding box. -/
def Bounds.Covers (b : Bounds) (x y : ℕ) : Prop :=
  (b.minX.toNat ≤ x ∧ x ≤ b.maxX.toNat) ∧ b.minY.toNat ≤ y ∧ y ≤ b.maxY.toNat

/-- No change has been found, or there is a bounding box on the screen. -/
def Bounds.Inside (b : Bounds) : Prop :=
  b = {} ∨ (b.minX.toNat ≤ b.maxX.toNat ∧ b.maxX.toNat < 128) ∧
    b.minY.toNat ≤ b.maxY.toNat ∧ b.maxY.toNat < 8

instance (b : Bounds) (x y : ℕ) : Decidable (b.Covers x y) := inferInstanceAs (Decidable (_ ∧ _))

variable {b : Bounds} {x y : ℕ}

theorem toNat_min (a b : UInt8) : (min a b).toNat = min a.toNat b.toNat := by
  show (if a ≤ b then a else b).toNat = _
  rw [min_def, apply_ite UInt8.toNat]
  exact if_congr UInt8.le_iff_toNat_le rfl rfl

theorem toNat_max (a b : UInt8) : (max a b).toNat = max a.toNat b.toNat := by
  show (if a ≤ b then b else a).toNat = _
  rw [max_def, apply_ite UInt8.toNat]
  exact if_congr UInt8.le_iff_toNat_le rfl rfl

theorem covers_add_of_covers (h : b.Covers x y) (x' y' : UInt8) : (b.add x' y').Covers x y := by
  unfold Bounds.Covers Bounds.add at *
  simp only [toNat_min, toNat_max]
  omega

theorem covers_add (b : Bounds) (x y : UInt8) : (b.add x y).Covers x.toNat y.toNat := by
  unfold Bounds.Covers Bounds.add
  simp only [toNat_min, toNat_max]
  omega

theorem Bounds.Inside.add (h : b.Inside) {x y : UInt8} (hx : x.toNat < 128) (hy : y.toNat < 8) :
    (b.add x y).Inside := by
  right
  unfold Bounds.add
  simp only [toNat_min, toNat_max]
  rcases h with rfl | h
  · show (min 255 x.toNat ≤ max 0 x.toNat ∧ max 0 x.toNat < 128) ∧
      min 255 y.toNat ≤ max 0 y.toNat ∧ max 0 y.toNat < 8
    omega
  · omega

variable (buffer bufferBack : Frame)

theorem inside_addChanges : (Bounds.addChanges buffer bufferBack {}).Inside := by
  unfold Bounds.addChanges
  apply List.foldlRecOn _ _ (show Bounds.Inside {} from Or.inl rfl)
  intro b hb y hy
  apply List.foldlRecOn _ _ hb
  intro b hb x hx
  rw [List.mem_range] at hx hy
  have hx' : x < 128 := hx
  split
  · apply hb.add
    · rw [UInt8.toNat_ofNat', Nat.mod_eq_of_lt (by omega)]
      exact hx'
    · rw [UInt8.toNat_ofNat', Nat.mod_eq_of_lt (by omega)]
      exact hy
  · exact hb

theorem covers_addChanges (hx : x < 128) (hy : y < 8)
    (hne : buffer (x + y * displayWidth) ≠ bufferBack (x + y * displayWidth)) (b : Bounds) :
    (Bounds.addChanges buffer bufferBack b).Covers x y := by
  have hkeep (b : Bounds) (x' y' : ℕ) (h : b.Covers x y) :
      (if buffer (x' + y' * displayWidth) ≠ bufferBack (x' + y' * displayWidth) then
        b.add (UInt8.ofNat x') (UInt8.ofNat y') else b).Covers x y := by
    split
    · exact covers_add_of_covers h _ _
    · exact h
  unfold Bounds.addChanges
  apply foldl_of_mem (fun b y' h => List.foldlRecOn _ _ h fun b h x' _ => hkeep b x' y' h)
    (List.mem_range.mpr hy)
  intro b
  apply foldl_of_mem (fun b x' h => hkeep b x' y h) (List.mem_range.mpr hx)
  intro b
  rw [if_pos hne]
  have hcovers := covers_add b (UInt8.ofNat x) (UInt8.ofNat y)
  rwa [UInt8.toNat_ofNat', UInt8.toNat_ofNat', Nat.mod_eq_of_lt (by omega),
    Nat.mod_eq_of_lt (by omega)] at hcovers

end Changes

section Runs

/-- The memory of the panel is what the library remembers of it, and no command is incomplete. -/
structure Synchronous (d : Device) : Prop where
  ram : ∀ i < displayBufferSize, d.panel.ram i = d.bufferBack i
  command : d.panel.command = []

/-- The panel, ready to take data into a window. -/
def Panel.aim (p : Panel) (b : Bounds) : Panel :=
  { p with
    colStart := b.minX.toNat % 128
    colEnd := b.maxX.toNat % 128
    col := b.minX.toNat % 128
    pageStart := b.minY.toNat % 8
    pageEnd := b.maxY.toNat % 8
    page := b.minY.toNat % 8 }

theorem order_window {p : Panel} (hp : p.command = []) (b : Bounds) :
    [0x21, b.minX, b.maxX, 0x22, b.minY, b.maxY].foldl Panel.order p = p.aim b := by
  obtain ⟨ram, colStart, colEnd, pageStart, pageEnd, col, page, command⟩ := p
  cases hp
  rfl

theorem write_command (p : Panel) (bytes : List UInt8) :
    (bytes.foldl Panel.write p).command = p.command := by
  induction bytes generalizing p with
  | nil => rfl
  | cons byte bytes ih => exact ih (p.write byte)

theorem sendChanges_received (buffer bufferBack : Frame) {p : Panel} (hp : p.command = []) :
    (sendChanges buffer bufferBack {}).sent.foldl Panel.receive p =
      ((Bounds.addChanges buffer bufferBack {}).window buffer).foldl Panel.write
        (p.aim (Bounds.addChanges buffer bufferBack {})) := by
  rw [← order_window hp]
  unfold sendChanges
  dsimp only
  rw [sendBytes_received, sendCommands_received]
  rfl

theorem write_window (p : Panel) {b : Bounds} (h : b.Inside) (buffer : Frame) (i : ℕ) :
    ((b.window buffer).foldl Panel.write (p.aim b)).ram i =
      if b.Covers (i % 128) (i / 128) then buffer i else p.ram i := by
  rcases h with rfl | ⟨hx, hy⟩
  · rw [if_neg]
    · rfl
    · rintro ⟨⟨hmin, _⟩, _⟩
      have hlt := Nat.mod_lt i (show 0 < 128 by decide)
      exact absurd hmin (not_le.mpr (lt_trans hlt (by decide)))
  · have haim : p.aim b =
        { p with
          colStart := b.minX.toNat
          colEnd := b.maxX.toNat
          col := b.minX.toNat
          pageStart := b.minY.toNat
          pageEnd := b.maxY.toNat
          page := b.minY.toNat } := by
      unfold Panel.aim
      rw [Nat.mod_eq_of_lt (show b.minX.toNat < 128 by omega), Nat.mod_eq_of_lt hx.2,
        Nat.mod_eq_of_lt (show b.minY.toNat < 8 by omega), Nat.mod_eq_of_lt hy.2]
    rw [haim]
    unfold Bounds.window
    rw [write_pages (b.maxY.toNat + 1 - b.minY.toNat) b.minY.toNat rfl (by dsimp only; omega)
      rfl hx.1
      hx.2]
    exact if_congr and_comm rfl rfl

theorem display_panel (d : Device) :
    d.display.panel =
      (sendChanges d.canvas.buffer d.bufferBack {}).sent.foldl Panel.receive d.panel := by
  unfold Device.display
  dsimp only

/-- A transfer shows the buffer if the panel has already what the library takes to be unchanged. -/
theorem display_shows {d : Device} (hcommand : d.panel.command = [])
    (hram : ∀ i < displayBufferSize, d.canvas.buffer i = d.bufferBack i →
      d.panel.ram i = d.bufferBack i) :
    Synchronous d.display ∧ ∀ i < displayBufferSize, d.display.panel.ram i = d.canvas.buffer i := by
  have hpanel := display_panel d
  rw [sendChanges_received _ _ hcommand] at hpanel
  have hshows : ∀ i < displayBufferSize, d.display.panel.ram i = d.canvas.buffer i := by
    intro i hi
    rw [hpanel, write_window _ (inside_addChanges ..)]
    split
    next => rfl
    next hoff =>
      have hsame : d.canvas.buffer i = d.bufferBack i := by
        by_contra hne
        apply hoff
        unfold displayBufferSize at hi
        apply covers_addChanges _ _ (Nat.mod_lt _ (by decide)) (by omega)
        rwa [show i % 128 + i / 128 * displayWidth = i by unfold displayWidth; omega]
      rw [hram i hi hsame, hsame]
  refine ⟨⟨fun i hi => ?_, ?_⟩, hshows⟩
  · rw [hshows i hi]
    exact (if_pos hi).symm
  · rw [hpanel, write_command]
    exact hcommand

/-- All bytes are made to differ, so that whatever was in the panel's memory is replaced. -/
theorem synchronous_resetDisplay {d : Device} (h : d.panel.command = []) :
    Synchronous d.resetDisplay := by
  have hdiffer (i : ℕ) (hi : i < displayBufferSize) :
      d.blank.canvas.buffer i ≠ d.blank.bufferBack i := by
    intro hsame
    have hone : clear d.canvas.buffer i = 1 := hsame.trans (if_pos hi)
    rw [clear, if_pos hi] at hone
    cases hone
  exact (display_shows (d := d.blank) h fun i hi hsame => absurd hsame (hdiffer i hi)).1

theorem sendCommands_panel (d : Device) (commands : List UInt8) :
    (d.sendCommands commands).panel = commands.foldl Panel.order d.panel :=
  sendCommands_received d.panel commands {}

/-- Whether the bytes of commands other than those for the window are complete, with `k` arguments
to come first. -/
def complete : ℕ → List UInt8 → Bool
  | k, [] => decide (k = 0)
  | k + 1, _ :: bytes => complete k bytes
  | 0, command :: bytes =>
    decide (Panel.arguments command ≤ 1) && complete (Panel.arguments command) bytes

theorem order_complete {bytes : List UInt8} {p : Panel} (hp : p.command = []) :
    (complete 0 bytes = true → bytes.foldl Panel.order p = p) ∧
      ∀ command, Panel.arguments command = 1 → complete 1 bytes = true →
        bytes.foldl Panel.order { p with command := [command] } = p := by
  obtain ⟨ram, colStart, colEnd, pageStart, pageEnd, col, page, command⟩ := p
  cases hp
  induction bytes with
  | nil => exact ⟨fun _ => rfl, fun _ _ h => by cases h⟩
  | cons byte bytes ih =>
    constructor
    · intro h
      obtain ⟨hle, hrest⟩ := (Bool.and_eq_true _ _).mp h
      rcases Nat.eq_zero_or_pos (Panel.arguments byte) with hzero | hone
      · rw [hzero] at hrest
        rw [List.foldl_cons]
        have horder : Panel.order ⟨ram, colStart, colEnd, pageStart, pageEnd, col, page, []⟩ byte =
            ⟨ram, colStart, colEnd, pageStart, pageEnd, col, page, []⟩ := by
          show (if 0 < Panel.arguments byte then _ else _) = _
          rw [if_neg (by omega)]
          rfl
        rw [horder]
        exact ih.1 hrest
      · have hone' : Panel.arguments byte = 1 := by
          have := of_decide_eq_true hle
          omega
        rw [hone'] at hrest
        rw [List.foldl_cons]
        have horder : Panel.order ⟨ram, colStart, colEnd, pageStart, pageEnd, col, page, []⟩ byte =
            ⟨ram, colStart, colEnd, pageStart, pageEnd, col, page, [byte]⟩ := if_pos hone
        rw [horder]
        exact ih.2 byte hone' hrest
    · intro command hone h
      have horder : Panel.order ⟨ram, colStart, colEnd, pageStart, pageEnd, col, page,
          [command]⟩ byte =
          ⟨ram, colStart, colEnd, pageStart, pageEnd, col, page, []⟩ := by
        show (if 1 < Panel.arguments command then _ else _) = _
        rw [if_neg (by omega)]
        rfl
      rw [List.foldl_cons, horder]
      exact ih.1 h

theorem synchronous_init {d : Device} (h : d.panel.command = []) : Synchronous d.init := by
  apply synchronous_resetDisplay
  rw [sendCommands_panel, (order_complete h).1 (by decide)]
  exact h

theorem synchronous_use {d e : Device} (h : Synchronous d) {use : Use} (hd : d.use use = some e) :
    Synchronous e := by
  cases use with
  | draw call =>
    obtain ⟨canvas, _, rfl⟩ := Option.map_eq_some_iff.mp hd
    exact ⟨h.ram, h.command⟩
  | command c =>
    have he : d.sendCommands c.bytes = e := Option.some.inj hd
    rw [← he]
    have hpanel : (d.sendCommands c.bytes).panel = d.panel := by
      rw [sendCommands_panel, (order_complete h.command).1 (by cases c <;> rfl)]
    refine ⟨?_, ?_⟩
    · rw [hpanel]
      exact h.ram
    · rw [hpanel]
      exact h.command
  | display =>
    have he : d.display = e := Option.some.inj hd
    rw [← he]
    exact (display_shows h.command fun i hi _ => h.ram i hi).1
  | reset =>
    have he : d.resetDisplay = e := Option.some.inj hd
    rw [← he]
    exact synchronous_resetDisplay h.command

theorem synchronous_run {d e : Device} (h : Synchronous d) {uses : List Use}
    (hd : d.run uses = some e) : Synchronous e := by
  induction uses generalizing d with
  | nil =>
    cases hd
    exact h
  | cons use uses ih =>
    obtain ⟨d', huse, hrun⟩ := Option.bind_eq_some_iff.mp hd
    exact ih (synchronous_use h huse) hrun

theorem exists_run {d : Device} {uses : List Use} {c : Canvas}
    (h : d.canvas.run (uses.filterMap Use.call?) = some c) :
    ∃ e, d.run uses = some e ∧ e.canvas = c := by
  induction uses generalizing d with
  | nil =>
    cases h
    exact ⟨d, rfl, rfl⟩
  | cons use uses ih =>
    cases use with
    | draw call =>
      obtain ⟨canvas, hcall, hrun⟩ := Option.bind_eq_some_iff.mp h
      obtain ⟨e, he, hc⟩ := ih (d := { d with canvas }) hrun
      refine ⟨e, ?_, hc⟩
      show ((d.canvas.call call).map fun canvas => { d with canvas }).bind _ = some e
      rw [hcall]
      exact he
    | command c => exact ih (d := d.sendCommands c.bytes) h
    | display => exact ih (d := d.display) h
    | reset => exact ih (d := d.resetDisplay) h

end Runs

/-- From `init` on, after any drawing calls that return, transfers, commands and resets: after a
transfer the panel shows the buffer. -/
theorem panel_shows {d e : Device} (hcommand : d.panel.command = []) (uses : List Use)
    (hrun : d.init.run uses = some e) :
    ∀ i < displayBufferSize, e.display.panel.ram i = e.canvas.buffer i := by
  have h := synchronous_run (synchronous_init hcommand) hrun
  exact (display_shows h.command fun i hi _ => h.ram i hi).2

def unusedDevice : Device :=
  ⟨⟨⟨.white, .left, fun _ => 6⟩, fun _ => 7, 0⟩, fun _ => 9, ⟨fun _ => 5, 0, 127, 0, 7, 0, 0, []⟩⟩

theorem panel_shows_once :
    ∃ e, unusedDevice.init.run [.draw (.setPixel 3 5), .display, .reset, .draw .clear] = some e ∧
      e.display.panel.ram 3 = e.canvas.buffer 3 := by
  obtain ⟨e, he, _⟩ : ∃ e, unusedDevice.init.run
      [.draw (.setPixel 3 5), .display, .reset, .draw .clear] = some e ∧ _ := exists_run rfl
  exact ⟨e, he, panel_shows (d := unusedDevice) rfl _ he 3 (by decide)⟩

end Wyostat.Oled
