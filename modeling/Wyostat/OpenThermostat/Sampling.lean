import Wyostat.OpenThermostat.Setters

/-! `loop()` with its sampling section: apart from the loop counter, which only decides when
the sensor is read, its runs are runs of `iterate`. -/
namespace Wyostat.OpenThermostat
open Machine

section Counter
variable (w : World) (n : UInt32) (s : Stat)

theorem tock_setLoopCounter : (s.setLoopCounter n).tock = s.tock.setLoopCounter n := rfl

theorem displayTemp_setLoopCounter :
    displayTemp w (s.setLoopCounter n) = (displayTemp w s).setLoopCounter n := rfl

theorem drawIcon_setLoopCounter (icon : Option Icon) :
    drawIcon icon (s.setLoopCounter n) = (drawIcon icon s).setLoopCounter n := by
  cases icon <;> rfl

theorem targettemp_setLoopCounter (temp : ℤ) :
    targettemp w temp (s.setLoopCounter n) = (targettemp w temp s).setLoopCounter n := by
  simp only [targettemp, apply_ite (Stat.setLoopCounter n)]
  rfl

theorem awayCb_setLoopCounter (payload : List Char) :
    awayCb w payload (s.setLoopCounter n) = (awayCb w payload s).setLoopCounter n := by
  simp only [awayCb, apply_ite (Stat.setLoopCounter n)]
  rfl

theorem mqttCallback_setLoopCounter (m : Msg) :
    mqttCallback w m (s.setLoopCounter n) = (mqttCallback w m s).setLoopCounter n := by
  simp only [mqttCallback_eq, apply_ite (Stat.setLoopCounter n), targettempCb,
    targettemp_setLoopCounter, awayCb_setLoopCounter]
  rfl

theorem setFurnace_setLoopCounter (state : Bool) :
    setFurnace w state (s.setLoopCounter n) = (setFurnace w state s).setLoopCounter n := by
  simp only [setFurnace, apply_ite (Stat.setLoopCounter n), ← drawIcon_setLoopCounter]
  rfl

theorem setAc_setLoopCounter (state : Bool) :
    setAc w state (s.setLoopCounter n) = (setAc w state s).setLoopCounter n := by
  simp only [setAc, apply_ite (Stat.setLoopCounter n), ← drawIcon_setLoopCounter]
  rfl

theorem setFan_setLoopCounter (state : Bool) :
    setFan w state (s.setLoopCounter n) = (setFan w state s).setLoopCounter n := by
  simp only [setFan, apply_ite (Stat.setLoopCounter n)]
  rfl

theorem checkLink_setLoopCounter :
    checkLink w (s.setLoopCounter n) = (checkLink w s).setLoopCounter n := rfl

theorem mqttLoop_setLoopCounter (msg : Option Msg) :
    mqttLoop w msg (s.setLoopCounter n) = (mqttLoop w msg s).setLoopCounter n := by
  simp only [mqttLoop, checkLink_setLoopCounter, Stat.setLoopCounter_connected]
  split
  · exact mqttCallback_setLoopCounter ..
  · rfl

theorem mqttReconnect_setLoopCounter :
    mqttReconnect (s.setLoopCounter n) = (mqttReconnect s).setLoopCounter n := rfl

theorem receive_setLoopCounter (it : Iteration) :
    receive w it (s.setLoopCounter n) = (receive w it s).setLoopCounter n := by
  have hset : (s.setLoopCounter n).setLocaltemp it.localtemp =
      (s.setLocaltemp it.localtemp).setLoopCounter n := rfl
  simp only [receive, hset, checkLink_setLoopCounter, Stat.setLoopCounter_connected]
  split_ifs
  · rw [mqttLoop_setLoopCounter]
  · rw [mqttReconnect_setLoopCounter, mqttLoop_setLoopCounter]

theorem getTargettemp_setLoopCounter :
    getTargettemp w (s.setLoopCounter n) = getTargettemp w s := rfl

theorem heating_setLoopCounter :
    heating w (s.setLoopCounter n) = (heating w s).setLoopCounter n := by
  simp only [heating, setAc_setLoopCounter, setFurnace_setLoopCounter, tock_setLoopCounter,
    getTargettemp_setLoopCounter, Stat.setLoopCounter_away, Stat.setLoopCounter_localtemp,
    ← apply_ite (Stat.setLoopCounter n), Stat.setLoopCounter_furnaceState, setFan_setLoopCounter]

theorem cooling_setLoopCounter :
    cooling w (s.setLoopCounter n) = (cooling w s).setLoopCounter n := by
  simp only [cooling, setAc_setLoopCounter, setFurnace_setLoopCounter, tock_setLoopCounter,
    getTargettemp_setLoopCounter, Stat.setLoopCounter_away, Stat.setLoopCounter_localtemp,
    ← apply_ite (Stat.setLoopCounter n), setFan_setLoopCounter]

theorem control_setLoopCounter :
    control w (s.setLoopCounter n) = (control w s).setLoopCounter n := by
  have hmode : (s.setLoopCounter n).mode = s.mode := rfl
  simp only [control, hmode, heating_setLoopCounter, cooling_setLoopCounter, setAc_setLoopCounter,
    setFurnace_setLoopCounter, setFan_setLoopCounter, ← apply_ite (Stat.setLoopCounter n)]

theorem timedPublish_setLoopCounter (temp : Reading ℚ) (now : BitVec 32) :
    timedPublish w temp now (s.setLoopCounter n) =
      (timedPublish w temp now s).setLoopCounter n := by
  simp only [timedPublish, apply_ite (Stat.setLoopCounter n)]
  rfl

theorem finish_setLoopCounter (temp : Reading ℚ) (now : BitVec 32) :
    finish w temp now (s.setLoopCounter n) = (finish w temp now s).setLoopCounter n := by
  simp only [finish, displayTemp_setLoopCounter, Stat.setLoopCounter_localtemp,
    ← apply_ite (Stat.setLoopCounter n), timedPublish_setLoopCounter]

theorem iterate_setLoopCounter (it : Iteration) :
    iterate w (s.setLoopCounter n) it = (iterate w s it).setLoopCounter n := by
  rw [iterate, receive_setLoopCounter, control_setLoopCounter, finish_setLoopCounter]
  rfl

theorem mqttConnect_setLoopCounter (rounds : ℕ) :
    mqttConnect w rounds (s.setLoopCounter n) = (mqttConnect w rounds s).setLoopCounter n := by
  induction rounds generalizing s with
  | zero => rfl
  | succ rounds ih =>
    have hround : announce w ((s.setLoopCounter n).setConnected true) =
        (announce w (s.setConnected true)).setLoopCounter n := rfl
    simp only [mqttConnect, hround, ih, Stat.setLoopCounter_connected,
      ← apply_ite (Stat.setLoopCounter n)]

end Counter

/-- What one call of `loop()` meets: the reading of the sensor, the message that has arrived,
if any, and the time. -/
structure Call where
  sensor : Reading ℚ
  msg : Option Msg
  millis : BitVec 32

def Call.loop (w : World) (s : Stat) (c : Call) : Stat :=
  OpenThermostat.loop w c.sensor c.msg c.millis s

/-- The iteration a call amounts to. -/
def Call.iteration (w : World) (s : Stat) (c : Call) : Iteration :=
  ⟨sample w c.sensor s, c.msg, c.millis⟩

/-- The iterations a run of `loop()` amounts to. -/
def iterations (w : World) : Stat → List Call → List Iteration :=
  outputs (Call.loop w) fun s c => [c.iteration w s]

theorem loop_setLoopCounter (w : World) (s : Stat) (c : Call) :
    (c.loop w s).setLoopCounter 0 = iterate w (s.setLoopCounter 0) (c.iteration w s) := by
  rw [Call.loop, loop, iterate_setLoopCounter, iterate_setLoopCounter]
  rfl

theorem setup_setLoopCounter (w : World) (sensor : Reading ℚ) (eeprom : Eeprom) (rounds : ℕ) :
    (setup w sensor eeprom rounds).setLoopCounter 0 = setup w sensor eeprom rounds := by
  rw [setup, ← mqttConnect_setLoopCounter]
  rfl

/-- From `setup()` on, a property that does not mention the counter holds at the end of every
call of `loop()` exactly when it holds at the end of every iteration these calls amount to. -/
theorem always_loop_iff {w : World} {P : Stat → Prop} (hP : ∀ s, P (s.setLoopCounter 0) ↔ P s)
    (sensor : Reading ℚ) (eeprom : Eeprom) (rounds : ℕ) (cs : List Call) :
    Always (Call.loop w) P (setup w sensor eeprom rounds) cs ↔
      Always (iterate w) P (setup w sensor eeprom rounds)
        (iterations w (setup w sensor eeprom rounds) cs) := by
  have hview : Always (Call.loop w) (fun s => P (s.setLoopCounter 0))
      (setup w sensor eeprom rounds) cs ↔
      Always (iterate w) P ((setup w sensor eeprom rounds).setLoopCounter 0)
        (iterations w (setup w sensor eeprom rounds) cs) :=
    always_view_iff (Stat.setLoopCounter 0) (Call.iteration w) (loop_setLoopCounter w)
  rw [setup_setLoopCounter] at hview
  rw [← hview]
  constructor
  · apply Always.mono
    intro s
    exact (hP s).mpr
  · apply Always.mono
    intro s
    exact (hP s).mp

theorem tracked_loop (w : World) (sensor : Reading ℚ) (eeprom : Eeprom) (rounds : ℕ)
    (cs : List Call) :
    Always (Call.loop w) (fun s => s.relays.Tracked) (setup w sensor eeprom rounds) cs :=
  (always_loop_iff (P := fun s => s.relays.Tracked) (fun _ => Iff.rfl) sensor eeprom rounds cs).mpr
    (always_of_step tracked_iterate (tracked_setup w sensor eeprom rounds) _)

end Wyostat.OpenThermostat
