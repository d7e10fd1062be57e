import CanInsight.Firmware
import CanInsight.Transfers

/-!
# One power cycle

When the firmware talks to the server: at most once in a power cycle, at the end of `setup`, and
only with a card that was there when the power came on.

* `Firmware.step_local`: no other happening transfers anything;
* `transfers_of_cycle`: what a power cycle with a transfer in it looks like.
-/

namespace CanInsight

open CString JsonDeserializer

namespace Firmware

variable {conv : FloatConversion} {json : Config} {fw fw' fw₀ : Firmware}
  {card : Option (ℕ × Env)} {a : Happening} {hs : List Happening}

/-- No transfer is recorded between two states of the firmware. -/
def Local (fw fw' : Firmware) : Prop := Device.Extends Event.IsLocal fw.device fw'.device

theorem Local.refl (fw : Firmware) : Local fw fw := Device.Extends.refl fw.device

theorem Local.trans (h : Local fw₀ fw) (h' : Local fw fw') : Local fw₀ fw' :=
  Device.Extends.trans h h'

theorem setupFromSdCard_local (h : fw.setupFromSdCard conv json card = some fw') :
    Local fw fw' := by
  cases card with
  | none =>
    cases h
    exact .refl fw
  | some c =>
    obtain ⟨_, _, h⟩ := Option.bind_eq_some_iff.1 h
    obtain ⟨⟨b, d⟩, hs, rfl⟩ := Option.map_eq_some_iff.1 h
    obtain ⟨es, he, hP⟩ := Device.startLog_local hs
    exact ⟨es, he, hP⟩

theorem powerUp_local (fw : Firmware) : Local fw fw.powerUp :=
  Device.Extends.of_eq (Device.boot_trace setupConfig fw.device)

theorem retryCard_local {p : Pass} (h : fw.retryCard conv json p = some fw') : Local fw fw' := by
  rw [retryCard] at h
  split at h
  · dsimp only at h
    split at h
    · obtain ⟨es, he, hP⟩ := setupFromSdCard_local h
      exact ⟨es, he, hP⟩
    · cases h
      exact Device.Extends.refl fw.device
  · cases h
    exact .refl fw

theorem checkSerialTime_local {p : Pass} (h : fw.checkSerialTime p = some fw') : Local fw fw' := by
  rw [checkSerialTime] at h
  split at h
  · cases h
    exact .refl fw
  · obtain ⟨d, hd, rfl⟩ := Option.map_eq_some_iff.1 h
    obtain ⟨⟨b, d⟩, hs, rfl⟩ := Option.map_eq_some_iff.1 hd
    exact Device.startLog_local hs

/-- Whatever happens after `setup`, nothing is transferred. -/
theorem step_local (h : fw.step conv json a = some fw') (ha : ∀ w, a ≠ .finishSetup w) :
    Local fw fw' := by
  cases a with
  | powerOn card => exact (powerUp_local fw).trans (setupFromSdCard_local h)
  | finishSetup w => exact absurd rfl (ha w)
  | loop p =>
    obtain ⟨_, h⟩ := Option.ite_none_right_eq_some.1 h
    obtain ⟨fw₁, h₁, h₂⟩ := Option.bind_eq_some_iff.1 h
    exact (retryCard_local h₁).trans (checkSerialTime_local h₂)
  | canMessage msg millis fuel env opens =>
    obtain ⟨_, h⟩ := Option.ite_none_right_eq_some.1 h
    obtain ⟨d, hd, rfl⟩ := Option.map_eq_some_iff.1 h
    exact Device.writeSdLine_local hd
  | flushTimer =>
    obtain ⟨_, h⟩ := Option.ite_none_right_eq_some.1 h
    cases h
    exact (Device.flushSdFile_extends fw.device).mono Event.ofWrite_isLocal

theorem run_local (h : (firmware conv json).Run Machine.Free fw hs fw')
    (hh : ∀ w, .finishSetup w ∉ hs) : Local fw fw' := by
  induction h with
  | nil fw => exact .refl fw
  | cons _ hst _ ih =>
    exact (step_local hst fun w hw => hh w (hw ▸ List.mem_cons_self)).trans
      (ih fun w hw => hh w (List.mem_cons_of_mem _ hw))

/-! ## The stages of a power cycle -/

/-- What stays the same until `setup` is finished. -/
structure SetUp (fw fw' : Firmware) : Prop where
  stage : fw'.stage = .setup
  wifiConfig : fw'.wifiConfig = fw.wifiConfig
  savedNetworks : fw'.savedNetworks = fw.savedNetworks

/-- During `setup`, only interrupts are served. -/
theorem SetUp.step (h : SetUp fw₀ fw) (hst : fw.step conv json a = some fw')
    (hpower : ∀ card, a ≠ .powerOn card) (hfinish : ∀ w, a ≠ .finishSetup w) :
    SetUp fw₀ fw' := by
  cases a with
  | powerOn card => exact absurd rfl (hpower card)
  | finishSetup w => exact absurd rfl (hfinish w)
  | loop p =>
    obtain ⟨hstage, _⟩ := Option.ite_none_right_eq_some.1 hst
    cases hstage.symm.trans h.stage
  | canMessage msg millis fuel env opens =>
    obtain ⟨_, hst⟩ := Option.ite_none_right_eq_some.1 hst
    obtain ⟨d, hd, rfl⟩ := Option.map_eq_some_iff.1 hst
    exact ⟨h.stage, h.wifiConfig, h.savedNetworks⟩
  | flushTimer =>
    obtain ⟨_, hst⟩ := Option.ite_none_right_eq_some.1 hst
    cases hst
    exact ⟨h.stage, h.wifiConfig, h.savedNetworks⟩

theorem SetUp.run (h : SetUp fw₀ fw) (hr : (firmware conv json).Run Machine.Free fw hs fw')
    (hpower : ∀ card, .powerOn card ∉ hs) (hfinish : ∀ w, .finishSetup w ∉ hs) :
    SetUp fw₀ fw' := by
  induction hr with
  | nil => exact h
  | cons _ hst _ ih =>
    refine ih (h.step hst (fun card ha => ?_) fun w ha => ?_)
      (fun card ha => hpower card (List.mem_cons_of_mem _ ha))
      fun w ha => hfinish w (List.mem_cons_of_mem _ ha)
    · exact hpower card (ha ▸ List.mem_cons_self)
    · exact hfinish w (ha ▸ List.mem_cons_self)

theorem checkSerialTime_stage {p : Pass} (h : fw.checkSerialTime p = some fw') :
    fw'.stage = fw.stage := by
  rw [checkSerialTime] at h
  split at h
  · cases h
    rfl
  · obtain ⟨d, _, rfl⟩ := Option.map_eq_some_iff.1 h
    rfl

/-- `loop` is called for ever, while `setup` is not finished again. -/
theorem step_loop (hstage : fw.stage = .loop) (hst : fw.step conv json a = some fw')
    (hpower : ∀ card, a ≠ .powerOn card) : fw'.stage = .loop ∧ ∀ w, a ≠ .finishSetup w := by
  cases a with
  | powerOn card => exact absurd rfl (hpower card)
  | finishSetup w =>
    obtain ⟨hsetup, _⟩ := Option.ite_none_right_eq_some.1 hst
    cases hstage.symm.trans hsetup
  | loop p =>
    obtain ⟨_, hst⟩ := Option.ite_none_right_eq_some.1 hst
    obtain ⟨fw₁, h₁, h₂⟩ := Option.bind_eq_some_iff.1 hst
    have hloop := (checkSerialTime_stage h₂).trans ((retryCard_stage h₁).trans hstage)
    exact ⟨hloop, fun _ h => by cases h⟩
  | canMessage msg millis fuel env opens =>
    obtain ⟨_, hst⟩ := Option.ite_none_right_eq_some.1 hst
    obtain ⟨d, hd, rfl⟩ := Option.map_eq_some_iff.1 hst
    exact ⟨hstage, fun _ h => by cases h⟩
  | flushTimer =>
    obtain ⟨_, hst⟩ := Option.ite_none_right_eq_some.1 hst
    cases hst
    exact ⟨hstage, fun _ h => by cases h⟩

/-- `setup` is finished once in a power cycle. -/
theorem finishSetup_not_mem (hstage : fw.stage = .loop)
    (h : (firmware conv json).Run Machine.Free fw hs fw') (hpower : ∀ card, .powerOn card ∉ hs) :
    ∀ w, .finishSetup w ∉ hs := by
  induction h with
  | nil => exact fun w => List.not_mem_nil
  | cons _ hst _ ih =>
    obtain ⟨hloop, hne⟩ := step_loop hstage hst fun card ha =>
      hpower card (ha ▸ List.mem_cons_self)
    have htail := ih hloop fun card ha => hpower card (List.mem_cons_of_mem _ ha)
    intro w hw
    rcases List.mem_cons.1 hw with rfl | hw
    · exact hne w rfl
    · exact htail w hw

theorem finishSetup_stage {w : WifiSetup} (h : fw.finishSetup w = some fw') :
    fw'.stage = .loop := by
  rw [finishSetup] at h
  split at h
  · obtain ⟨d, _, rfl⟩ := Option.map_eq_some_iff.1 h
    rfl
  · cases h
    rfl

theorem powerOn_stage (h : fw.powerUp.setupFromSdCard conv json card = some fw') :
    fw'.stage = .setup := by
  cases card with
  | none =>
    cases h
    rfl
  | some c =>
    obtain ⟨_, _, h⟩ := Option.bind_eq_some_iff.1 h
    obtain ⟨_, _, rfl⟩ := Option.map_eq_some_iff.1 h
    rfl

/-- The first end of `setup`. -/
theorem exists_finishSetup (h : ¬ ∀ w, .finishSetup w ∉ hs) :
    ∃ before w after, hs = before ++ .finishSetup w :: after ∧
      ∀ w, .finishSetup w ∉ before := by
  induction hs with
  | nil => exact absurd (fun _ => List.not_mem_nil) h
  | cons a hs ih =>
    by_cases ha : ∃ w, a = .finishSetup w
    · obtain ⟨w, rfl⟩ := ha
      exact ⟨[], w, hs, rfl, fun _ => List.not_mem_nil⟩
    · have htail : ¬ ∀ w, .finishSetup w ∉ hs := fun hno => h fun w hw => by
        rcases List.mem_cons.1 hw with hw | hw
        · exact ha ⟨w, hw.symm⟩
        · exact hno w hw
      obtain ⟨before, w, after, rfl, hno⟩ := ih htail
      refine ⟨a :: before, w, after, rfl, fun w hw => ?_⟩
      rcases List.mem_cons.1 hw with hw | hw
      · exact ha ⟨w, hw.symm⟩
      · exact hno w hw

/-! ## What a power cycle has to have for a transfer -/

/-- The end of `setup` transfers something only with Wifi enabled, and a network joined. -/
theorem joined_of_finishSetup {w : WifiSetup} (h : fw.finishSetup w = some fw')
    (ht : ¬ Local fw fw') : fw.wifiConfig.wifiEnabled = true ∧ w.connected = true ∧
      ∃ net, (searchAndConnect w.scan fw.savedNetworks).2 = some net := by
  rw [finishSetup] at h
  split at h
  · next henabled =>
    obtain ⟨d, hd, rfl⟩ := Option.map_eq_some_iff.1 h
    cases Device.wifi_of_wifi hd with
    | unconnected => exact absurd (Device.Extends.of_eq rfl) ht
    | uploaded hconnected =>
      obtain ⟨hbegun, hup⟩ := Bool.and_eq_true_iff.1 hconnected
      exact ⟨henabled, hup, Option.isSome_iff_exists.1 hbegun⟩
  · cases h
    exact absurd (.refl _) ht

/-- The configuration is not the file with the time. -/
theorem lookup_powerUp (fw : Firmware) :
    fw.powerUp.device.readTimeFile.card.lookup configFileName =
      fw.device.card.lookup configFileName := by
  have hcard : fw.powerUp.device.card = fw.device.card := Device.boot_card setupConfig fw.device
  rw [Device.readTimeFile, hcard]
  exact Finmap.lookup_erase_ne (by decide)

/-- What `setup_from_sd_card` has configured, if it enables Wifi after a power-on. -/
theorem configured_of_powerOn (h : fw.powerUp.setupFromSdCard conv json card = some fw')
    (henabled : fw'.wifiConfig.wifiEnabled = true) :
    card.isSome ∧ ∃ root, fw.configRoot json = some root ∧
      member "wifi_enable" (some root) = some (.bool true) ∧
      readWifi conv (some root) = some fw'.wifiConfig ∧
      fw'.savedNetworks = saveNetworks fw'.wifiConfig.wifiNets := by
  cases card with
  | none =>
    cases h
    cases henabled
  | some c =>
    obtain ⟨wifi, hw, h⟩ := Option.bind_eq_some_iff.1 h
    obtain ⟨⟨b, d⟩, hs, rfl⟩ := Option.map_eq_some_iff.1 h
    rw [configRoot_congr (lookup_powerUp fw)] at hw
    obtain ⟨t, _, rfl⟩ := Option.map_eq_some_iff.1 hw
    -- a flag that is true is there, and so is the document
    have hflag : member "wifi_enable" (fw.configRoot json) = some (.bool true) := by
      revert henabled
      dsimp only
      cases member "wifi_enable" (fw.configRoot json) with
      | none => exact fun h => by cases h
      | some v =>
        cases v with
        | bool b =>
          intro hb
          exact congrArg (fun b => some (Json.bool b)) hb
        | _ => exact fun h => by cases h
    cases hr : fw.configRoot json with
    | none =>
      rw [hr] at hflag
      cases hflag
    | some root =>
      rw [hr] at hw hflag
      exact ⟨rfl, root, rfl, hflag, hw, rfl⟩

end Firmware

open Firmware in
/-- Something is transferred in a power cycle only if a card was there when the power came on,
    whose `config.txt` enables Wifi and lists, among its first five networks, the first network
    of the scan that is known. It is transferred at the end of `setup`: nothing before, and
    nothing after, however long `loop` goes on. -/
theorem transfers_of_cycle {conv : FloatConversion} {json : Config} {fw₀ fw : Firmware}
    {card : Option (ℕ × Env)} {hs : List Happening}
    (h : (firmware conv json).Run Machine.Free fw₀ (.powerOn card :: hs) fw)
    (hpower : ∀ card, .powerOn card ∉ hs) (ht : ¬ Local fw₀ fw) :
    ∃ root before w after fw₁ fw₂,
      card.isSome ∧ fw₀.configRoot json = some root ∧
      member "wifi_enable" (some root) = some (.bool true) ∧
      hs = before ++ .finishSetup w :: after ∧
      (firmware conv json).Run Machine.Free fw₀ (.powerOn card :: before) fw₁ ∧
      fw₁.step conv json (.finishSetup w) = some fw₂ ∧
      (firmware conv json).Run Machine.Free fw₂ after fw ∧
      Local fw₀ fw₁ ∧ Local fw₂ fw ∧ w.scan.shield = true ∧ w.connected = true ∧
      ∃ net : WifiNetwork, net.ssid ≠ [] ∧
        FirstListed ((documentNetworks root).take maxSavedNetworkCount) net ∧
        FirstKnown ((documentNetworks root).take maxSavedNetworkCount) w.scan.ssids net.ssid := by
  obtain ⟨before, w, after, rfl, hbefore⟩ := exists_finishSetup fun hno => by
    refine ht (run_local h fun w hw => ?_)
    rcases List.mem_cons.1 hw with hw | hw
    · cases hw
    · exact hno w hw
  obtain ⟨fw₁, hr₁, hr₂⟩ := Machine.run_append_iff.1 (show (firmware conv json).Run Machine.Free
    fw₀ ((.powerOn card :: before) ++ .finishSetup w :: after) fw from h)
  obtain ⟨fw₂, _, hst, hr₂⟩ := Machine.run_cons_iff.1 hr₂
  have hbefore' (w : WifiSetup) : .finishSetup w ∉ .powerOn card :: before := fun hw => by
    rcases List.mem_cons.1 hw with hw | hw
    · cases hw
    · exact hbefore w hw
  obtain ⟨_, hfinish⟩ := Option.ite_none_right_eq_some.1 hst
  have hafter := finishSetup_not_mem (finishSetup_stage hfinish) hr₂ fun c hc =>
    hpower c (List.mem_append_right _ (List.mem_cons_of_mem _ hc))
  have hlocal₁ := run_local hr₁ hbefore'
  have hlocal₂ := run_local hr₂ hafter
  obtain ⟨henabled, hconnected, net, hnet⟩ := joined_of_finishSetup hfinish fun hl =>
    ht ((hlocal₁.trans hl).trans hlocal₂)
  obtain ⟨fw₃, _, hon, hint⟩ := Machine.run_cons_iff.1 hr₁
  have hset : SetUp fw₃ fw₁ := SetUp.run ⟨powerOn_stage hon, rfl, rfl⟩ hint
    (fun c hc => hpower c (List.mem_append_left _ hc)) hbefore
  rw [hset.wifiConfig] at henabled
  obtain ⟨hcard, root, hroot, hflag, hread, hsaved⟩ := configured_of_powerOn hon henabled
  rw [hset.savedNetworks, hsaved] at hnet
  obtain ⟨hshield, hne, hlisted, hknown⟩ := (searchAndConnect_begins hread).1 hnet
  exact ⟨root, before, w, after, fw₁, fw₂, hcard, hroot, hflag, rfl, hr₁, hst, hr₂, hlocal₁,
    hlocal₂, hshield, hconnected, net, hne, hlisted, hknown⟩

theorem transfers_of_cycle_home :
    ∃ root, (Firmware.initial homeCard ⟨2, 1, 1, 1⟩).configRoot ⟨true, fun _ => (0, 0)⟩ =
        some root ∧ ∃ net ∈ documentNetworks root, net.ssid ≠ [] := by
  have hupload : (([.powerOn (some (1, .roomy)), .finishSetup homeSetup] : List Happening).foldlM
      (Firmware.step truncation ⟨true, fun _ => (0, 0)⟩)
      (.initial homeCard ⟨2, 1, 1, 1⟩)).any (.uploading (logName 1) ∈ ·.device.trace) = true := by
    decide +kernel
  obtain ⟨fw, hfw, hup⟩ := (Option.any_eq_true _ _).1 hupload
  have hlocal : ¬ Firmware.Local (.initial homeCard ⟨2, 1, 1, 1⟩) fw := by
    rintro ⟨es, he, hes⟩
    have hmem : .uploading (logName 1) ∈ es := by
      have hnil : es ++ (Firmware.initial homeCard ⟨2, 1, 1, 1⟩).device.trace = es :=
        List.append_nil es
      rw [← hnil, ← he]
      exact of_decide_eq_true hup
    exact hes _ hmem trivial
  obtain ⟨root, _, _, _, _, _, _, hroot, _, _, _, _, _, _, _, _, _, net, hne, ⟨l, r, hlr, _⟩, _⟩ :=
    transfers_of_cycle (Machine.run_free_iff.2 hfw) (by simp) hlocal
  have hmem : net ∈ (documentNetworks root).take maxSavedNetworkCount :=
    hlr ▸ List.mem_append_right l List.mem_cons_self
  exact ⟨root, hroot, net, List.mem_of_mem_take hmem, hne⟩

end CanInsight
