import CanInsight.Lib.Machine
import CanInsight.Uploader

/-!
# The program

The operations of the program (`Op`), as they act on the device (`exec`), and
two machines over them:

* in `anyOrder`, the operations follow each other in any order;
* in `program`, they follow each other as `setup` and `loop` call them: after a
  boot, `start_log`; then the Wifi part of `setup`, which constructs the
  uploader, may restart logging when the clock was set, and calls
  `upload_data`; then restarts of logging, while lines arrive and the timer
  flushes at any time after `start_log`.
-/

namespace CanInsight

/-- What the surroundings do while `setup` has Wifi enabled. -/
structure WifiEnv where
  /-- Whether a network is found and connected to. -/
  connected : Bool := true
  /-- The restart of logging after the clock was set, with its fuel, if it
      comes to it. -/
  restart : Option (ℕ × Env) := none
  /-- The exchange about each log number. -/
  net : ℕ → Exchange
  /-- The fuel of `upload_data`. -/
  rounds : ℕ

/-- The operations of the program. -/
inductive Op
  /-- A boot with the configuration then read from the card. -/
  | boot (config : ConfigManager)
  /-- `start_log` in `setup`, and the start of the timer. -/
  | startLog (fuel : ℕ) (env : Env)
  | restartLogging (fuel : ℕ) (env : Env)
  | writeSdLine (fuel : ℕ) (env : Env) (opens : ℕ → Bool) (line : Bytes)
  | flushSdFile
  | reopenFile (succeeds : Bool)
  | setNoWriteFile (b : Bool)
  | wifi (w : WifiEnv)

namespace Device

/-- The Wifi part of `setup` up to `upload_data`: the uploader, constructed
    before logging may be restarted, and the device. -/
def beforeUpload (w : WifiEnv) (d : Device) : Option (DataUploader × Device) :=
  let r := DataUploader.construct d
  match w.restart with
  | none => some r
  | some (fuel, env) => (r.2.restartLogging fuel env).map (r.1, ·)

/-- The Wifi part of `setup`. -/
def wifi (w : WifiEnv) (d : Device) : Option Device :=
  if w.connected then
    (d.beforeUpload w).bind fun r => (r.1.uploadData w.net w.rounds r.2).map (·.2)
  else some (DataUploader.construct d).2

/-- The effect of an operation, if it returns. -/
def exec (d : Device) : Op → Option Device
  | .boot config => some (d.boot config)
  | .startLog fuel env => (d.startLog fuel env).map fun r => { r.2 with canLogTimer := true }
  | .restartLogging fuel env => d.restartLogging fuel env
  | .writeSdLine fuel env opens line => writeSdLine env fuel opens line d
  | .flushSdFile => some d.flushSdFile
  | .reopenFile succeeds => some (d.reopenFile succeeds)
  | .setNoWriteFile b => some { d with noWriteFile := b }
  | .wifi w => d.wifi w

/-- A device as it is before it is ever booted. -/
def initial (card : Card) (eeprom : EEPROM) : Device := { card := card, eeprom := eeprom }

end Device

/-- The operations in any order. -/
def anyOrder : Machine Device Op := ⟨Device.exec⟩

/-- How far `setup` has come. -/
inductive Phase
  | off
  | booted
  | started
  | looping
  deriving DecidableEq

/-- The phase after an operation, if the program may do it in the phase. -/
def Phase.next : Phase → Op → Option Phase
  | _, .boot _ => some .booted
  | .booted, .startLog _ _ => some .started
  | .started, .wifi _ => some .looping
  | .started, .restartLogging _ _ => some .looping
  | .looping, .restartLogging _ _ => some .looping
  | .started, .writeSdLine _ _ _ _ => some .started
  | .looping, .writeSdLine _ _ _ _ => some .looping
  | .started, .flushSdFile => some .started
  | .looping, .flushSdFile => some .looping
  | _, _ => none

/-- The device, and how far `setup` has come. -/
structure System where
  phase : Phase
  device : Device

/-- The operations in the order of `setup` and `loop`. -/
def program : Machine System Op where
  step s op := (s.phase.next op).bind fun phase => (s.device.exec op).map (⟨phase, ·⟩)

/-- A system about to be booted for the first time. -/
def System.initial (card : Card) (eeprom : EEPROM) : System := ⟨.off, .initial card eeprom⟩

theorem program_step {p q : Phase} {d e : Device} {op : Op} (hq : p.next op = some q)
    (he : d.exec op = some e) : program.step ⟨p, d⟩ op = some ⟨q, e⟩ := by
  have hs : program.step ⟨p, d⟩ op = (p.next op).bind fun q => (d.exec op).map (⟨q, ·⟩) := rfl
  rw [hs, hq, he]
  rfl

/-- The device of a run of the program makes a run of its operations. -/
theorem anyOrder_of_program {G : System → Op → Prop} {s t : System} {ops : List Op}
    (h : program.Run G s ops t) : anyOrder.Run Machine.Free s.device ops t.device := by
  induction h with
  | nil s => exact .nil s.device
  | cons _ hst _ ih =>
    obtain ⟨_, _, hst⟩ := Option.bind_eq_some_iff.1 hst
    obtain ⟨_, he, rfl⟩ := Option.map_eq_some_iff.1 hst
    exact .cons trivial he ih

end CanInsight
