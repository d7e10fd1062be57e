import CanInsight.CutDocuments
import CanInsight.Driver
import CanInsight.Frame
import CanInsight.OtherFiles
import CanInsight.WifiManager

/-!
# The firmware

`setup` and `loop` of the main program, as they call the logger, the uploader and the Wifi
manager: a card that is not there at first is looked for again by `loop`, what is configured is
what `config.txt` on the card says, and only the CAN buses and the timer interrupt.

* `Firmware.step`: what happens to the firmware, one happening after the other;
* `program_of_firmware`: what a run of the firmware leaves on the card, in the EEPROM and in the
  trace is what a run of `program` leaves, but for the file with the time;
* `others_of_firmware`: no run changes or uploads another file than the logs.

Each happening is one step. An interrupt is served between two of them, never within one: so no log
is rotated while `upload_data` is under way.

The clock is not kept: what it shows is chosen by the surroundings whenever it is read. So is
what the serial line brings, and what is in the file with the time.
-/

namespace CanInsight

open CString JsonDeserializer

/-- `System_Status`. -/
inductive SystemStatus
  | boot
  | noSd
  | waitingForData
  | writingSd
  deriving DecidableEq

/-- `TIME_FILE_NAME`. -/
def timeFileName : Name := "NOW.TXT".toList

/-- `read_time_file`: whatever time is in the file, it is removed, so that the time is not set
    again. (A removal that fails is left out, and the trace does not tell of it.) -/
def Device.readTimeFile (d : Device) : Device := { d with card := d.card.erase timeFileName }

/-- Where the main program is. -/
inductive Stage
  | off
  | setup
  | loop
  deriving DecidableEq

/-- The globals of the main program. -/
structure Firmware where
  device : Device
  wifiConfig : WifiConfig := {}
  /-- The networks of `wifi_manager`. -/
  savedNetworks : NetworkTable := {}
  status : SystemStatus := .boot
  targetTime : ℕ := 0
  /-- The ports that are begun, with `can_callback` on them. -/
  ports : List ℕ := []
  stage : Stage

/-- What the surroundings do in the Wifi part of `setup`. -/
structure WifiSetup where
  scan : Scan
  /-- `wifi_manager.get_status() == WL_CONNECTED`, once `WiFi.begin` has been called: it is not
      before. -/
  connected : Bool := true
  /-- `WiFi.getTime()`. -/
  ntpTime : ℕ := 0
  /-- `Teensy3Clock.get()`, before the clock is set and after. -/
  beforeSetRtcTime : ℕ := 0
  afterSetRtcTime : ℕ := 0
  /-- The restart of logging, with its fuel, if it comes to it. -/
  restart : ℕ × Env := (0, .roomy)
  /-- The exchange about each log number. -/
  net : ℕ → Exchange
  /-- The fuel of `upload_data`. -/
  rounds : ℕ

/-- The difference of two readings of a clock, in 32 bits. -/
def elapsed (now since : ℕ) : ℕ := u32 (now + (2 ^ 32 - u32 since))

namespace WifiSetup

/-- The clock has been set, and was off by more than a minute. -/
def restarts (w : WifiSetup) : Bool :=
  0 < w.ntpTime && 60 < elapsed w.afterSetRtcTime w.beforeSetRtcTime

/-- The surroundings of the uploader, if `WiFi.begin` was called for a network. -/
def env (w : WifiSetup) (begun : Option WifiNetwork) : WifiEnv where
  connected := begun.isSome && w.connected
  restart := if w.restarts then some w.restart else none
  net := w.net
  rounds := w.rounds

end WifiSetup

/-- One pass of `loop`. -/
structure Pass where
  millis : ℕ
  /-- The card that `sd.begin` finds, if it is called: the fuel and the surroundings of
      `start_log`. -/
  card : Option (ℕ × Env) := none
  /-- What `check_serial_time` finds makes `loop` restart logging. (The function ends without a
      `return` where no valid time was received.) -/
  serial : Option (ℕ × Env) := none

/-- What can happen to the firmware. -/
inductive Happening
  /-- The power comes on, again or for the first time, with a card or without. -/
  | powerOn (card : Option (ℕ × Env))
  /-- The Wifi part of `setup`, in which no interrupt is served. -/
  | finishSetup (w : WifiSetup)
  | loop (p : Pass)
  /-- `can_callback` is called. -/
  | canMessage (msg : CANMessage) (millis fuel : ℕ) (env : Env) (opens : ℕ → Bool)
  /-- `can_log_timer` is due. -/
  | flushTimer

namespace Firmware

variable (conv : FloatConversion) (json : Config)

/-- A firmware before its first power-on. -/
def initial (card : Card) (eeprom : EEPROM) : Firmware where
  device := .initial card eeprom
  stage := .off

/-- The document in `config.txt`; without the file, there is nothing to read. -/
def configRoot (fw : Firmware) : Option Json :=
  (deserializeJson json ((fw.device.card.lookup configFileName).getD [])).toOption

/-- The ports of the buses that are logged. -/
def loggedPorts (config : ConfigManager) : List ℕ :=
  ([config.canConfig1, config.canConfig2, config.canConfig3].filter (·.logEnabled)).map (·.port)

/-- `setup_from_sd_card`. -/
def setupFromSdCard (card : Option (ℕ × Env)) (fw : Firmware) : Option Firmware :=
  match card with
  | none => some { fw with status := .noSd }
  | some (fuel, env) =>
    let fw := { fw with device := fw.device.readTimeFile }
    (readWifi conv (fw.configRoot json)).bind fun wifi =>
      let config := readConfigFile conv (fw.configRoot json)
      let d := { fw.device with config := config, maxLogSize := config.maxLogSize }
      (d.startLog fuel env).map fun r =>
        { fw with
          device := { r.2 with canLogTimer := true }
          wifiConfig := wifi
          savedNetworks := wifi.wifiNets.networks.foldl setNewSavedNetwork fw.savedNetworks
          ports := loggedPorts config
          status := .waitingForData }

/-- The globals as they are constructed, and `setup` up to `setup_from_sd_card`. -/
def powerUp (fw : Firmware) : Firmware where
  device := { fw.device.boot setupConfig with maxLogSize := 0 }
  stage := .setup

/-- The Wifi part of `setup`. -/
def finishSetup (w : WifiSetup) (fw : Firmware) : Option Firmware :=
  if fw.wifiConfig.wifiEnabled then
    let begun := (searchAndConnect w.scan fw.savedNetworks).2
    (fw.device.wifi (w.env begun)).map fun d => { fw with device := d, stage := .loop }
  else some { fw with stage := .loop }

/-- A second has passed since `target_time`. -/
def Due (fw : Firmware) (millis : ℕ) : Prop := 1000 ≤ elapsed millis fw.targetTime

instance (fw : Firmware) (millis : ℕ) : Decidable (fw.Due millis) :=
  inferInstanceAs (Decidable (_ ≤ _))

/-- The first part of `loop`. -/
def retryCard (p : Pass) (fw : Firmware) : Option Firmware :=
  if fw.Due p.millis then
    let fw := { fw with targetTime := u32 (fw.targetTime + 1000) }
    if fw.status = .noSd then fw.setupFromSdCard conv json p.card else some fw
  else some fw

/-- A volume that is not begun has no free clusters. -/
def surroundings (fw : Firmware) (env : Env) : Env :=
  if fw.status = .noSd then { env with freeClusterCount := fun _ => 0 } else env

/-- The part of `loop` after it. -/
def checkSerialTime (p : Pass) (fw : Firmware) : Option Firmware :=
  match p.serial with
  | none => some fw
  | some (fuel, env) =>
    (fw.device.restartLogging fuel (fw.surroundings env)).map fun d => { fw with device := d }

/-- `loop`. -/
def loop (p : Pass) (fw : Firmware) : Option Firmware :=
  (fw.retryCard conv json p).bind fun fw => fw.checkSerialTime p

/-- The firmware after a happening, if it can happen and the functions called return. -/
def step (fw : Firmware) : Happening → Option Firmware
  | .powerOn card => fw.powerUp.setupFromSdCard conv json card
  | .finishSetup w => if fw.stage = .setup then fw.finishSetup w else none
  | .loop p => if fw.stage = .loop then fw.loop conv json p else none
  | .canMessage msg millis fuel env opens =>
    if msg.bus.toNat ∈ fw.ports then
      (Device.writeSdLine env fuel opens (canFrameToStr msg millis fw.device.logStartMillis)
        fw.device).map fun d => { fw with device := d }
    else none
  | .flushTimer =>
    if fw.device.canLogTimer then some { fw with device := fw.device.flushSdFile } else none

end Firmware

/-- The firmware, as a machine. -/
def firmware (conv : FloatConversion) (json : Config) : Machine Firmware Happening :=
  ⟨Firmware.step conv json⟩

namespace Device

variable {d d' : Device} {fuel : ℕ} {env : Env} {b : Bool}

/-- A device that is powered up and has not read a configuration yet. -/
def poweredUp (logEnabled : Bool) (d : Device) : Device :=
  { d.boot setupConfig with maxLogSize := 0, logEnabled := logEnabled }

/-- What a boot leaves, another boot finds. -/
theorem boot_poweredUp (config : ConfigManager) (b : Bool) (d : Device) :
    (d.poweredUp b).boot config = d.boot config := by
  rw [boot_eq config d, poweredUp, boot_eq setupConfig d]
  split
  · rfl
  · next h => exact (boot_eq _ _).trans (if_neg h)

/-- The configuration read later is the one of a boot. -/
theorem poweredUp_configured (config : ConfigManager) (b : Bool) (d : Device) :
    { d.poweredUp b with config := config, maxLogSize := config.maxLogSize } =
      { d.boot config with logEnabled := b } := by
  rw [boot_eq, poweredUp, boot_eq]
  split <;> rfl

theorem startLog_logEnabled (fuel : ℕ) (env : Env) (b : Bool) (d : Device) :
    startLog fuel env { d with logEnabled := b } = d.startLog fuel env := rfl

/-- Without a card, `start_log` finds no free space, and may not make room. -/
theorem startLog_noCard {b' : Bool} (hconfig : d.config = setupConfig)
    (h : d.startLog fuel { env with freeClusterCount := fun _ => 0 } = some (b', d')) :
    d' = { d with logEnabled := false } := by
  cases fuel with
  | zero => cases h
  | succ fuel =>
    have hfree (card : Card) : freeKB { env with freeClusterCount := fun _ => 0 } card = 0 := by
      simp only [freeKB, u32, Nat.zero_mod, Nat.zero_mul]
    have hspace : checkSdFreeSpace (fuel + 1) { env with freeClusterCount := fun _ => 0 }
        { d with logEnabled := false } = some (false, { d with logEnabled := false }) := by
      have hlow : 0 < minFreeSpace d.config := by
        rw [hconfig]
        decide
      have hkeep : (!d.config.overwriteLogs) = true := by
        rw [hconfig]
        rfl
      rw [checkSdFreeSpace, freeSpaceLoop, hfree, if_pos hlow, if_pos hkeep]
    rw [startLog, hspace] at h
    cases h
    rfl

/-- The file with the time is gone for good. -/
theorem readTimeFile_of_not_mem (h : timeFileName ∉ d.card) : d.readTimeFile = d := by
  have hcard : d.card.erase timeFileName = d.card := by
    refine Finmap.ext_lookup fun name => ?_
    by_cases hn : name = timeFileName
    · rw [hn, Finmap.lookup_erase, Finmap.lookup_eq_none.2 h]
    · exact Finmap.lookup_erase_ne hn
  rw [readTimeFile, hcard]

/-- Nothing else than `start_log` minds the file. -/
theorem readTimeFile_boot (config : ConfigManager) (d : Device) :
    (d.boot config).readTimeFile = d.readTimeFile.boot config := by
  rw [boot_eq config d, boot_eq config d.readTimeFile]
  split
  · next h => exact (if_pos h).symm
  · next h => exact (if_neg h).symm

theorem poweredUp_config (b : Bool) (d : Device) : (d.poweredUp b).config = setupConfig := by
  rw [poweredUp, boot_eq]
  split <;> rfl

theorem poweredUp_canLogTimer (b : Bool) (d : Device) : (d.poweredUp b).canLogTimer = false := by
  rw [poweredUp, boot_eq]
  split <;> rfl

end Device

namespace Firmware

variable {conv : FloatConversion} {json : Config} {fw fw' : Firmware} {s : System}
  {card : Option (ℕ × Env)}

theorem configRoot_congr (h : fw.device.card.lookup configFileName =
    fw'.device.card.lookup configFileName) : fw.configRoot json = fw'.configRoot json := by
  rw [configRoot, configRoot, h]

/-- A firmware that has no card yet, while the program has not been booted. -/
structure Waiting (fw : Firmware) (s : System) : Prop where
  device : ∃ b, fw.device.readTimeFile = s.device.poweredUp b
  wifiConfig : fw.wifiConfig = {}
  savedNetworks : fw.savedNetworks = {}
  ports : fw.ports = []

/-- A firmware that has set up its card, and the program after `start_log`. -/
structure Mounted (fw : Firmware) (s : System) : Prop where
  device : fw.device = s.device
  status : fw.status = .waitingForData
  phase : s.phase = .started ∨ s.phase = .looping ∧ fw.stage = .loop

/-- The firmware that a run of the program is followed to. -/
inductive Follows (fw : Firmware) (s : System) : Prop
  | off : fw.stage = .off → fw.status = .boot → fw.ports = [] → fw.device.canLogTimer = false →
      fw.device.readTimeFile = s.device → Follows fw s
  | waiting : Waiting fw s → fw.status = .noSd → Follows fw s
  | mounted : Mounted fw s → Follows fw s

/-- A power-on touches neither the card nor the trace. -/
theorem Follows.readTimeFile_card (h : Follows fw s) (hs : timeFileName ∉ s.device.card) :
    fw.device.readTimeFile.card = s.device.card := by
  cases h with
  | off _ _ _ _ hd => rw [hd]
  | waiting hw =>
    obtain ⟨b, hd⟩ := hw.device
    rw [hd]
    exact Device.boot_card setupConfig s.device
  | mounted hm => rw [hm.device, Device.readTimeFile_of_not_mem hs]

theorem Follows.trace (h : Follows fw s) : fw.device.trace = s.device.trace := by
  have hread : fw.device.readTimeFile.trace = fw.device.trace := rfl
  cases h with
  | off _ _ _ _ hd => rw [← hread, hd]
  | waiting hw =>
    obtain ⟨b, hd⟩ := hw.device
    rw [← hread, hd]
    exact Device.boot_trace setupConfig s.device
  | mounted hm => rw [hm.device]

theorem follows_initial (card : Card) (eeprom : EEPROM) :
    Follows (.initial card eeprom) (.initial (card.erase timeFileName) eeprom) :=
  .off rfl rfl rfl rfl rfl

/-- However far the firmware had come, it waits for its card when the power comes on. -/
theorem Follows.powerUp (h : Follows fw s) (hs : timeFileName ∉ s.device.card) :
    Waiting fw.powerUp s := by
  refine ⟨⟨true, ?_⟩, rfl, rfl, rfl⟩
  have hboot : (fw.device.boot setupConfig).readTimeFile = s.device.boot setupConfig := by
    rw [Device.readTimeFile_boot]
    cases h with
    | off _ _ _ _ hd => rw [hd]
    | waiting hw =>
      obtain ⟨b, hd⟩ := hw.device
      rw [hd, Device.boot_poweredUp]
    | mounted hm => rw [hm.device, Device.readTimeFile_of_not_mem hs]
  have hdevice : fw.powerUp.device.readTimeFile =
      { (fw.device.boot setupConfig).readTimeFile with maxLogSize := 0 } := rfl
  have henabled : (s.device.boot setupConfig).logEnabled = true := by
    rw [Device.boot_eq]
    split <;> rfl
  rw [hdevice, hboot, Device.poweredUp, ← henabled]

/-- With the card, the program is booted and starts a log. -/
theorem Waiting.setupFromSdCard (h : Waiting fw s)
    (he : fw.setupFromSdCard conv json card = some fw') :
    ∃ ops t, program.Run Machine.Free s ops t ∧ Follows fw' t := by
  cases card with
  | none =>
    cases he
    exact ⟨[], s, .nil s, .waiting ⟨h.device, h.wifiConfig, h.savedNetworks, h.ports⟩ rfl⟩
  | some c =>
    obtain ⟨fuel, env⟩ := c
    obtain ⟨wifi, hw, he⟩ := Option.bind_eq_some_iff.1 he
    obtain ⟨⟨b, d⟩, hs, rfl⟩ := Option.map_eq_some_iff.1 he
    obtain ⟨b', hd⟩ := h.device
    -- the program is booted with whatever is configured, so the document does not matter
    generalize configRoot json { fw with device := fw.device.readTimeFile } = root at hs
    dsimp only at hs
    rw [hd, Device.poweredUp_configured, Device.startLog_logEnabled] at hs
    have hboot : program.step s (.boot (readConfigFile conv root)) =
        some ⟨.booted, s.device.boot (readConfigFile conv root)⟩ :=
      program_step rfl rfl
    have hstart : program.step ⟨.booted, s.device.boot (readConfigFile conv root)⟩
        (.startLog fuel env) = some ⟨.started, { d with canLogTimer := true }⟩ :=
      program_step rfl (by rw [Device.exec, hs]; rfl)
    exact ⟨_, _, .cons trivial hboot (.single trivial hstart), .mounted ⟨rfl, rfl, .inl rfl⟩⟩

/-- The Wifi part of `setup`, which does nothing without a card. -/
theorem Follows.finishSetup {w : WifiSetup} (h : Follows fw s) (hstage : fw.stage = .setup)
    (he : fw.finishSetup w = some fw') :
    ∃ ops t, program.Run Machine.Free s ops t ∧ Follows fw' t := by
  rw [Firmware.finishSetup] at he
  cases h with
  | off h => cases h.symm.trans hstage
  | waiting hw hno =>
    have hdisabled : fw.wifiConfig.wifiEnabled ≠ true := by
      rw [hw.wifiConfig]
      decide
    rw [if_neg hdisabled] at he
    cases he
    exact ⟨[], s, .nil s, .waiting ⟨hw.device, hw.wifiConfig, hw.savedNetworks, hw.ports⟩ hno⟩
  | mounted hm =>
    have hphase : s.phase = .started := by
      rcases hm.phase with h | ⟨_, h⟩
      · exact h
      · cases h.symm.trans hstage
    split at he
    · obtain ⟨d, hd, rfl⟩ := Option.map_eq_some_iff.1 he
      obtain ⟨phase, device⟩ := s
      cases hphase
      rw [hm.device] at hd
      have hstep : program.step ⟨.started, device⟩
          (.wifi (w.env (searchAndConnect w.scan fw.savedNetworks).2)) = some ⟨.looping, d⟩ :=
        program_step rfl hd
      exact ⟨_, _, .single trivial hstep, .mounted ⟨rfl, hm.status, .inr ⟨rfl, rfl⟩⟩⟩
    · cases he
      exact ⟨[], s, .nil s, .mounted ⟨hm.device, hm.status, .inl hphase⟩⟩

/-- The search for a card in `loop`, which ends once a card has been set up. -/
theorem Follows.retryCard {p : Pass} (h : Follows fw s) (hstage : fw.stage = .loop)
    (he : fw.retryCard conv json p = some fw') :
    ∃ ops t, program.Run Machine.Free s ops t ∧ Follows fw' t := by
  rw [Firmware.retryCard] at he
  split at he
  · cases h with
    | off h => cases h.symm.trans hstage
    | waiting hw hno =>
      rw [if_pos hno] at he
      have hw' : Waiting { fw with targetTime := u32 (fw.targetTime + 1000) } s :=
        ⟨hw.device, hw.wifiConfig, hw.savedNetworks, hw.ports⟩
      exact hw'.setupFromSdCard he
    | mounted hm =>
      have hset : fw.status ≠ .noSd := by
        rw [hm.status]
        decide
      rw [if_neg hset] at he
      cases he
      exact ⟨[], s, .nil s, .mounted ⟨hm.device, hm.status, hm.phase⟩⟩
  · cases he
    exact ⟨[], s, .nil s, h⟩

/-- A restart that `loop` asks for. Without a card, it only turns logging off. -/
theorem Follows.checkSerialTime {p : Pass} (h : Follows fw s) (hstage : fw.stage = .loop)
    (he : fw.checkSerialTime p = some fw') :
    ∃ ops t, program.Run Machine.Free s ops t ∧ Follows fw' t := by
  rw [Firmware.checkSerialTime] at he
  split at he
  · cases he
    exact ⟨[], s, .nil s, h⟩
  · next fuel env _ =>
    obtain ⟨d, hd, rfl⟩ := Option.map_eq_some_iff.1 he
    cases h with
    | off h => cases h.symm.trans hstage
    | waiting hw hno =>
      obtain ⟨b, hb⟩ := hw.device
      obtain ⟨⟨b', d'⟩, hs, rfl⟩ := Option.map_eq_some_iff.1 hd
      rw [surroundings, if_pos hno] at hs
      -- no log is overwritten by default, so without free space there is no log
      have hconfig : fw.device.config = setupConfig :=
        (congrArg Device.config hb).trans (Device.poweredUp_config b s.device)
      rw [Device.startLog_noCard hconfig hs]
      exact ⟨[], s, .nil s, .waiting ⟨⟨false, congrArg ({ · with logEnabled := false }) hb⟩,
        hw.wifiConfig, hw.savedNetworks, hw.ports⟩ hno⟩
    | mounted hm =>
      obtain ⟨phase, device⟩ := s
      rw [hm.device] at hd
      have hstep : program.step ⟨phase, device⟩ (.restartLogging fuel (fw.surroundings env)) =
          some ⟨.looping, d⟩ := by
        rcases hm.phase with h | ⟨h, _⟩ <;> cases h <;> exact program_step rfl hd
      exact ⟨_, _, .single trivial hstep, .mounted ⟨rfl, hm.status, .inr ⟨rfl, hstage⟩⟩⟩

/-- A step of the program that keeps its phase. -/
theorem Mounted.follows (op : Op) {d : Device} (h : Mounted fw s)
    (hop : ∀ phase : Phase, phase = .started ∨ phase = .looping → phase.next op = some phase)
    (he : fw.device.exec op = some d) :
    ∃ ops t, program.Run Machine.Free s ops t ∧ Follows { fw with device := d } t := by
  have hphase : s.phase = .started ∨ s.phase = .looping := h.phase.imp_right And.left
  rw [h.device] at he
  exact ⟨_, _, .single trivial (program_step (hop _ hphase) he),
    .mounted ⟨rfl, h.status, h.phase⟩⟩

theorem retryCard_stage {p : Pass} (he : fw.retryCard conv json p = some fw') :
    fw'.stage = fw.stage := by
  rw [Firmware.retryCard] at he
  split at he
  · dsimp only at he
    split at he
    · cases hc : p.card with
      | none =>
        rw [hc] at he
        cases he
        rfl
      | some c =>
        rw [hc] at he
        obtain ⟨_, _, he⟩ := Option.bind_eq_some_iff.1 he
        obtain ⟨_, _, rfl⟩ := Option.map_eq_some_iff.1 he
        rfl
    · cases he
      rfl
  · cases he
    rfl

/-- Whatever happens to the firmware, the program follows. -/
theorem Follows.step {a : Happening} (h : Follows fw s) (hs : timeFileName ∉ s.device.card)
    (he : fw.step conv json a = some fw') :
    ∃ ops t, program.Run Machine.Free s ops t ∧ Follows fw' t := by
  cases a with
  | powerOn card => exact (h.powerUp hs).setupFromSdCard he
  | finishSetup w =>
    obtain ⟨hstage, he⟩ := Option.ite_none_right_eq_some.1 he
    exact h.finishSetup hstage he
  | loop p =>
    obtain ⟨hstage, he⟩ := Option.ite_none_right_eq_some.1 he
    obtain ⟨fw₁, h₁, h₂⟩ := Option.bind_eq_some_iff.1 he
    obtain ⟨ops, t, hr, ht⟩ := h.retryCard hstage h₁
    obtain ⟨ops', u, hr', hu⟩ := ht.checkSerialTime ((retryCard_stage h₁).trans hstage) h₂
    exact ⟨ops ++ ops', u, hr.append hr', hu⟩
  | canMessage msg millis fuel env opens =>
    obtain ⟨hport, he⟩ := Option.ite_none_right_eq_some.1 he
    obtain ⟨d, hd, rfl⟩ := Option.map_eq_some_iff.1 he
    cases h with
    | off _ _ hports => exact absurd hport (hports ▸ List.not_mem_nil)
    | waiting hw => exact absurd hport (hw.ports ▸ List.not_mem_nil)
    | mounted hm =>
      refine hm.follows (.writeSdLine fuel env opens _) ?_ hd
      rintro _ (rfl | rfl) <;> rfl
  | flushTimer =>
    obtain ⟨htimer, he⟩ := Option.ite_none_right_eq_some.1 he
    cases he
    cases h with
    | off _ _ _ hoff => exact absurd htimer (hoff ▸ Bool.false_ne_true)
    | waiting hw =>
      -- the timer is begun after the first log only
      obtain ⟨b, hd⟩ := hw.device
      have hoff : fw.device.canLogTimer = false :=
        (congrArg Device.canLogTimer hd).trans (Device.poweredUp_canLogTimer b s.device)
      exact absurd htimer (hoff ▸ Bool.false_ne_true)
    | mounted hm =>
      refine hm.follows .flushSdFile ?_ rfl
      rintro _ (rfl | rfl) <;> rfl

/-- The program runs without the file, and does not write it. -/
theorem timeFileName_not_mem {d : Device} {files : Card}
    (h : d.Confined (files.erase timeFileName)) : timeFileName ∉ d.card := by
  rw [← Finmap.lookup_eq_none, h.others timeFileName (by decide)]
  exact Finmap.lookup_erase _ _

theorem follows_of_run {hs : List Happening} {files : Card} {eeprom : EEPROM}
    (h : (firmware conv json).Run Machine.Free (.initial files eeprom) hs fw) :
    ∃ ops s, program.Run Machine.Free (.initial (files.erase timeFileName) eeprom) ops s ∧
      Follows fw s ∧ s.device.Confined (files.erase timeFileName) :=
  h.refines (R := fun fw s => Follows fw s ∧ s.device.Confined (files.erase timeFileName))
    (fun hf _ he => by
      obtain ⟨ops, t, hr, ht⟩ := hf.1.step (timeFileName_not_mem hf.2) he
      exact ⟨ops, t, hr, ht, hf.2.run (anyOrder_of_program hr)⟩)
    ⟨follows_initial files eeprom, Device.confined_initial _ eeprom⟩

end Firmware

/-- Every run of the firmware, over any number of power-ons with a card or without, is a run of
    the program on the card without the file with the time: they end with the same device. While
    the firmware waits for a card, the program has not been booted yet, and the firmware is as it
    is powered up from what the program left. -/
theorem program_of_firmware {conv : FloatConversion} {json : Config} {hs : List Happening}
    {card : Card} {eeprom : EEPROM} {fw : Firmware}
    (h : (firmware conv json).Run Machine.Free (.initial card eeprom) hs fw) :
    ∃ ops s, program.Run Machine.Free (.initial (card.erase timeFileName) eeprom) ops s ∧
      (fw.status = .waitingForData → fw.device = s.device) ∧
      (fw.status ≠ .noSd → fw.device.readTimeFile = s.device) ∧
      (fw.status = .noSd →
        ∃ logEnabled, fw.device.readTimeFile = s.device.poweredUp logEnabled) := by
  obtain ⟨ops, s, hr, hf, hc⟩ := Firmware.follows_of_run h
  refine ⟨ops, s, hr, ?_⟩
  cases hf with
  | off _ hboot _ _ hd =>
    exact ⟨(fun hset => by cases hset.symm.trans hboot), fun _ => hd,
      fun hno => by cases hno.symm.trans hboot⟩
  | waiting hw hno =>
    exact ⟨(fun hset => by cases hset.symm.trans hno), fun h => absurd hno h, fun _ => hw.device⟩
  | mounted hm =>
    refine ⟨fun _ => hm.device, fun _ => ?_, fun hno => by cases hno.symm.trans hm.status⟩
    rw [hm.device, Device.readTimeFile_of_not_mem (Firmware.timeFileName_not_mem hc)]

/-- A card with a log, and a configuration that lists a network. -/
def homeCard : Card :=
  Finmap.insert (logName 1) [] (Finmap.singleton configFileName
    ("\x7b\"wifi_enable\":true,\"wifi_networks\":[" ++
      "\x7b\"ssid\":\"h\",\"password\":\"k\"\x7d]\x7d").toList)

/-- The network is found, and the server has the log. -/
def homeSetup : WifiSetup := { scan := { ssids := [['h']] }, net := fun _ => .hasFile, rounds := 1 }

/-- The card is put in after the power has come on, a frame is logged and flushed, and logging is
    restarted. After a reset, the logs are uploaded. -/
def lateCard : List Happening :=
  [.powerOn none, .finishSetup homeSetup, .loop { millis := 1000, card := some (1, .roomy) },
    .canMessage someFrame 1500 1 .roomy (fun _ => true), .flushTimer,
    .loop { millis := 2000, serial := some (1, .roomy) }, .powerOn (some (1, .roomy)),
    .finishSetup { homeSetup with rounds := 4 }, .loop { millis := 3000 }]

theorem program_of_firmware_lateCard :
    ∃ fw, (firmware truncation ⟨true, fun _ => (0, 0)⟩).Run Machine.Free
        (.initial (homeCard.insert timeFileName ['1']) ⟨2, 1, 1, 1⟩) lateCard fw ∧
      .uploading (logName 3) ∈ fw.device.trace ∧
      ∃ ops s, program.Run Machine.Free
          (.initial ((homeCard.insert timeFileName ['1']).erase timeFileName) ⟨2, 1, 1, 1⟩) ops s ∧
        fw.device = s.device := by
  obtain ⟨fw, hr, hset, hup⟩ : ∃ fw, (firmware truncation ⟨true, fun _ => (0, 0)⟩).Run Machine.Free
      (.initial (homeCard.insert timeFileName ['1']) ⟨2, 1, 1, 1⟩) lateCard fw ∧
      (fw.status = .waitingForData ∧ .uploading (logName 3) ∈ fw.device.trace) :=
    Machine.exists_run_of_any (by decide +kernel)
  obtain ⟨ops, s, hprogram, hd, -, -⟩ := program_of_firmware hr
  exact ⟨fw, hr, hup, ops, s, hprogram, hd hset⟩

/-- No run of the firmware changes another file than the logs, but for the removal of the file
    with the time; so each power-on with the card finds the same configuration. Nor is another
    file uploaded. -/
theorem others_of_firmware {conv : FloatConversion} {json : Config} {hs : List Happening}
    {card : Card} {eeprom : EEPROM} {fw : Firmware}
    (h : (firmware conv json).Run Machine.Free (.initial card eeprom) hs fw) :
    (∀ name, ¬ IsLogName (upcased name) → upcased name ≠ timeFileName →
      fw.device.card.lookup name = card.lookup name) ∧
    fw.configRoot json = (Firmware.initial card eeprom).configRoot json ∧
    ∀ name, .uploading name ∈ fw.device.trace → IsLogName name := by
  obtain ⟨ops, s, hr, hf, hc⟩ := Firmware.follows_of_run h
  have hothers (name : Name) (hn : ¬ IsLogName (upcased name)) (ht : upcased name ≠ timeFileName) :
      fw.device.card.lookup name = card.lookup name := by
    have ht' : name ≠ timeFileName := by
      rintro rfl
      exact ht (by decide)
    have hread : fw.device.readTimeFile.card.lookup name = fw.device.card.lookup name :=
      Finmap.lookup_erase_ne ht'
    rw [← hread, hf.readTimeFile_card (Firmware.timeFileName_not_mem hc),
      hc.others name fun hlog => hn hlog.upcased]
    exact Finmap.lookup_erase_ne ht'
  refine ⟨hothers, Firmware.configRoot_congr (hothers _ (by decide) (by decide)),
    fun name hup => Device.uploading_of_run (anyOrder_of_program hr) ?_⟩
  rwa [← hf.trace]

/-- Neither a note on the card is touched, nor its configuration, whatever is logged and uploaded
    meanwhile. -/
theorem others_of_firmware_lateCard :
    ∃ fw, (firmware truncation ⟨true, fun _ => (0, 0)⟩).Run Machine.Free
        (.initial (homeCard.insert "Notes.txt".toList ['n']) ⟨2, 1, 1, 1⟩) lateCard fw ∧
      .uploading (logName 3) ∈ fw.device.trace ∧
      fw.device.card.lookup "Notes.txt".toList = some ['n'] ∧
      fw.configRoot ⟨true, fun _ => (0, 0)⟩ =
        (Firmware.initial (homeCard.insert "Notes.txt".toList ['n']) ⟨2, 1, 1, 1⟩).configRoot
          ⟨true, fun _ => (0, 0)⟩ := by
  obtain ⟨fw, hr, hup⟩ : ∃ fw, (firmware truncation ⟨true, fun _ => (0, 0)⟩).Run Machine.Free
      (.initial (homeCard.insert "Notes.txt".toList ['n']) ⟨2, 1, 1, 1⟩) lateCard fw ∧
      .uploading (logName 3) ∈ fw.device.trace :=
    Machine.exists_run_of_any (by decide +kernel)
  obtain ⟨hothers, hroot, -⟩ := others_of_firmware hr
  exact ⟨fw, hr, hup,
    (hothers _ (by decide) (by decide)).trans (Finmap.lookup_insert _), hroot⟩

end CanInsight
