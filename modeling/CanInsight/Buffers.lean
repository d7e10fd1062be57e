import CanInsight.LogHeader

/-!
# Texts and their arrays

Most texts that the program copies are cut to the size of their arrays. Two are not:
`bus_config_to_str` appends to whatever array it is given, and `set_new_wifi_net` copies
the strings of the configuration file with `strcpy`.

* `busText_fits_iff`: when the text of a bus fits the array of `start_log`;
* `stringsFit_iff`: when every string of the configuration file fits its field, and the
  networks that are saved are the first ones of the file.
-/

namespace CanInsight

open CString

/-! ## The text of a bus -/

/-- The text of a bus, with its terminator, fits `single_can_log_config_str`, and `s_tmp` of
    `serial_print_bus_config_str`. -/
def BusTextFits (c : CANBusConfig) : Prop := FitsArray c ∧ (busConfigToStr c).length < 200

instance (c : CANBusConfig) : Decidable (BusTextFits c) := inferInstanceAs (Decidable (_ ∧ _))

theorem length_decimal_le {n : ℤ} (h : IsI32 n) : (decimal n).length ≤ 11 := by
  obtain ⟨hlow, hhigh⟩ := h
  cases n with
  | ofNat n =>
    have hl := (Nat.length_toDigits_le_iff (b := 10) (k := 10) (n := n) (by decide) (by decide)).2
      (by simp only [Int.ofNat_eq_natCast] at hhigh; omega)
    rw [Int.ofNat_eq_natCast, decimal_natCast]
    omega
  | negSucc n =>
    have hl := (Nat.length_toDigits_le_iff (b := 10) (k := 10) (n := n + 1) (by decide)
      (by decide)).2 (by omega)
    rw [decimal_negSucc, List.length_cons]
    omega

/-- The larger of the two arrays is large enough. -/
theorem length_busConfigToStr_lt {c : CANBusConfig} {port : ℕ} (h : c.Configured port)
    (hp : port < 10) : (busConfigToStr c).length < 200 := by
  have hname := h.busName
  have hbaud := length_decimal_le (isI32_i32 c.baudrate)
  have hmask := length_decimal_le h.idFilterMask
  have hvalue := length_decimal_le h.idFilterValue
  rw [length_busConfigToStr (h.port.trans_lt hp)]
  omega

theorem busTextFits_iff {c : CANBusConfig} {port : ℕ} (h : c.Configured port) (hp : port < 10) :
    BusTextFits c ↔ c.busName.length + (decimal (i32 c.baudrate)).length +
      (decimal c.idFilterMask).length + (decimal c.idFilterValue).length ≤ 25 := by
  rw [BusTextFits, and_iff_left (length_busConfigToStr_lt h hp), FitsArray,
    length_busConfigToStr (h.port.trans_lt hp)]
  omega

/-- The text of a bus that is set to the defaults fits. That of a bus that is set from the
    configuration file does if and only if its name and its three numbers, as they are
    printed, have at most 25 characters together. -/
theorem busText_fits_iff (conv : FloatConversion) (json : Option Json) (c : CANBusConfig)
    (hp : 1 ≤ c.port ∧ c.port ≤ 3) :
    BusTextFits (setDefaultCanConfig c) ∧
      (BusTextFits (setCanConfigFromJsonobject conv json c) ↔
        (setCanConfigFromJsonobject conv json c).busName.length +
          (decimal (i32 (setCanConfigFromJsonobject conv json c).baudrate)).length +
          (decimal (setCanConfigFromJsonobject conv json c).idFilterMask).length +
          (decimal (setCanConfigFromJsonobject conv json c).idFilterValue).length ≤ 25) := by
  have hlt : c.port < 10 := by omega
  refine ⟨(busTextFits_iff (setDefaultCanConfig_configured c hlt) hlt).2 ?_,
    busTextFits_iff (setCanConfigFromJsonobject_configured conv json c) hlt⟩
  have hname : (defaultBusName c.port).length = 4 := by
    rw [defaultBusName, decimal_natCast, Nat.toDigits_of_lt_base hlt]
    rfl
  have hbaud : (decimal (i32 250)).length = 3 := by decide
  have hzero : (decimal 0).length = 1 := by decide
  simp only [setDefaultCanConfig, hname, hbaud, hzero]
  decide

/-- The first bus of an engine. -/
def engineBus : Json :=
  .object [("bus_name".toList, .string "ENGINE".toList), ("baudrate".toList, .integer 500),
    ("id_filter_mask".toList, .integer 0x7FF), ("id_filter_value".toList, .integer (-256))]

theorem busText_fits_engine :
    (setCanConfigFromJsonobject truncation (some engineBus) { port := 1 }).busName =
        "ENGINE".toList ∧
      BusTextFits (setDefaultCanConfig { port := 1 }) ∧
      BusTextFits (setCanConfigFromJsonobject truncation (some engineBus) { port := 1 }) := by
  obtain ⟨hdefault, hjson⟩ := busText_fits_iff truncation (some engineBus) { port := 1 } (by decide)
  exact ⟨by decide +kernel, hdefault, hjson.2 (by decide +kernel)⟩

/-- A document that gives the first bus a long name and a mask of 29 bits. -/
def longName : Json :=
  .object [("can1".toList, .object
    [("bus_name".toList, .string "ENGINE_TRANSMISSION1".toList),
      ("id_filter_mask".toList, .integer 0x1FFFFFFF)])]

/-- The text of the bus does not fit. -/
theorem busText_overflows :
    (readConfigFile truncation (some longName)).canConfig1 =
        setCanConfigFromJsonobject truncation (member "can1" (some longName)) { port := 1 } ∧
      ¬ BusTextFits (readConfigFile truncation (some longName)).canConfig1 :=
  ⟨rfl, by decide +kernel⟩

/-! ## The networks -/

/-- `Wifi_Network`. -/
structure WifiNetwork where
  ssid : Bytes := []
  password : Bytes := []
  deriving DecidableEq

/-- `MAX_SAVED_NETWORK_COUNT`. -/
def maxSavedNetworkCount : ℕ := 5

/-- `M2M_MAX_SSID_LEN`. -/
def m2mMaxSsidLen : ℕ := 33

/-- `M2M_MAX_PSK_LEN`. -/
def m2mMaxPskLen : ℕ := 65

/-- `SERVER_MAX_LEN`. -/
def serverMaxLen : ℕ := 30

/-- An array of networks, and how many of them are set. -/
structure NetworkTable where
  networks : List WifiNetwork := List.replicate maxSavedNetworkCount {}
  count : ℕ := 0

/-- `strcpy` into an array of `size` characters. Nothing is said about a copy that goes on
    beyond the array. -/
def strcpy (size : ℕ) (s : Bytes) : Option Bytes :=
  if (toText s).length < size then some (toText s) else none

/-- `Config_Manager::set_new_wifi_net`. -/
def setNewWifiNet (ssid password : Bytes) (t : NetworkTable) : Option NetworkTable :=
  if t.count ≥ maxSavedNetworkCount then some t
  else
    (strcpy m2mMaxSsidLen ssid).bind fun ssid => (strcpy m2mMaxPskLen password).map fun password =>
      ⟨t.networks.set t.count ⟨ssid, password⟩, t.count + 1⟩

/-- The elements of an array, for a value that need not be there or be an array. -/
def elements : Option Json → List Json
  | some (.array es) => es
  | _ => []

/-- The part of `read_config_file` about the networks. -/
def readWifiNetworks (root : Option Json) : Option NetworkTable :=
  if containsKey root "wifi_networks" then
    (elements (member "wifi_networks" root)).foldlM (fun t v =>
      setNewWifiNet (orString [] (member "ssid" (some v)))
        (orString [] (member "password" (some v))) t) {}
  else some {}

/-- The server that `read_config_file` sets. -/
def readServer (root : Option Json) : Bytes :=
  if containsKey root "wifi_enable" then
    strlcpy serverMaxLen (orString [] (member "server" root))
  else []

/-- `Wifi_Manager::set_new_saved_network`. -/
def setNewSavedNetwork (t : NetworkTable) (network : WifiNetwork) : NetworkTable :=
  if t.count ≥ maxSavedNetworkCount then t
  else ⟨t.networks.set t.count network, t.count + 1⟩

/-- The copying of the networks in `setup_from_sd_card`. -/
def saveNetworks (t : NetworkTable) : NetworkTable :=
  t.networks.foldl setNewSavedNetwork {}

/-! ## What is saved -/

/-- The network that an element of `wifi_networks` gives, as C strings. -/
def networkOf (v : Json) : WifiNetwork :=
  ⟨toText (orString [] (member "ssid" (some v))), toText (orString [] (member "password" (some v)))⟩

/-- The networks of a document. -/
def documentNetworks (root : Json) : List WifiNetwork :=
  (elements (member "wifi_networks" (some root))).map networkOf

/-- The first networks, in an array in which nothing is set after them. -/
def firstNetworks (ns : List WifiNetwork) : List WifiNetwork :=
  ns.take maxSavedNetworkCount ++ List.replicate (maxSavedNetworkCount - ns.length) ⟨[], []⟩

/-- The network fits its two fields. -/
def WifiNetwork.Fits (n : WifiNetwork) : Prop :=
  n.ssid.length < m2mMaxSsidLen ∧ n.password.length < m2mMaxPskLen

instance (n : WifiNetwork) : Decidable n.Fits := inferInstanceAs (Decidable (_ ∧ _))

/-- Every string of the configuration file fits its field, no copy goes on beyond its array,
    and the networks that are saved are the first ones of the file. -/
structure StringsFit (conv : FloatConversion) (root : Json) : Prop where
  unitType : (readConfigFile conv (some root)).unitType.length < 11
  unitNumber : (readConfigFile conv (some root)).unitNumber.length < 11
  server : (readServer (some root)).length < serverMaxLen
  busName : ∀ c ∈ [(readConfigFile conv (some root)).canConfig1,
    (readConfigFile conv (some root)).canConfig2, (readConfigFile conv (some root)).canConfig3],
      c.busName.length < 21 ∧ (defaultBusName c.port).length < 5
  networks : ∃ t, readWifiNetworks (some root) = some t ∧
    (saveNetworks t).networks = firstNetworks (documentNetworks root) ∧
    ∀ n ∈ (saveNetworks t).networks, n.Fits

variable {n : WifiNetwork} {ns ms : List WifiNetwork} {t : NetworkTable}

theorem length_firstNetworks (ns : List WifiNetwork) :
    (firstNetworks ns).length = maxSavedNetworkCount := by
  rw [firstNetworks, List.length_append, List.length_take, List.length_replicate]
  omega

/-- The next network is set in its place. -/
theorem set_firstNetworks (h : ns.length < maxSavedNetworkCount) (n : WifiNetwork) :
    (firstNetworks ns).set ns.length n = firstNetworks (ns ++ [n]) := by
  have hlen : maxSavedNetworkCount - ns.length = maxSavedNetworkCount - (ns ++ [n]).length + 1 := by
    rw [List.length_append, List.length_singleton]
    omega
  have htake : (ns ++ [n]).take maxSavedNetworkCount = ns ++ [n] :=
    List.take_of_length_le (by rw [List.length_append]; exact h)
  rw [firstNetworks, firstNetworks, List.take_of_length_le h.le, hlen, List.replicate_succ,
    List.set_append_right _ _ le_rfl, Nat.sub_self, List.set_cons_zero, htake, List.append_assoc]
  rfl

/-- Networks that there is no room for do not count. -/
theorem firstNetworks_append (h : maxSavedNetworkCount ≤ ns.length) (ms : List WifiNetwork) :
    firstNetworks (ns ++ ms) = firstNetworks ns := by
  have h₁ : maxSavedNetworkCount - ns.length = 0 := Nat.sub_eq_zero_of_le h
  have h₂ : maxSavedNetworkCount - (ns ++ ms).length = 0 := by
    rw [List.length_append]
    omega
  rw [firstNetworks, firstNetworks, h₁, h₂, List.take_append_of_le_length h]

/-- The table after some networks have been set, in order. -/
def filled (ns : List WifiNetwork) : NetworkTable :=
  ⟨firstNetworks ns, min ns.length maxSavedNetworkCount⟩

theorem filled_nil : filled [] = {} := rfl

theorem filled_append (h : maxSavedNetworkCount ≤ ns.length) (ms : List WifiNetwork) :
    filled (ns ++ ms) = filled ns := by
  have hlen : min (ns ++ ms).length maxSavedNetworkCount = min ns.length maxSavedNetworkCount := by
    rw [List.length_append]
    omega
  rw [filled, filled, firstNetworks_append h, hlen]

theorem filled_set (h : ns.length < maxSavedNetworkCount) (n : WifiNetwork) :
    NetworkTable.mk ((filled ns).networks.set (filled ns).count n) ((filled ns).count + 1) =
      filled (ns ++ [n]) := by
  have hcount : (filled ns).count = ns.length := Nat.min_eq_left h.le
  have hlen : min (ns ++ [n]).length maxSavedNetworkCount = ns.length + 1 := by
    rw [List.length_append, List.length_singleton]
    exact Nat.min_eq_left h
  rw [hcount, filled, filled, set_firstNetworks h, hlen]

theorem filled_full_iff : (filled ns).count ≥ maxSavedNetworkCount ↔
    maxSavedNetworkCount ≤ ns.length := by
  have hcount : (filled ns).count = min ns.length maxSavedNetworkCount := rfl
  rw [hcount]
  omega

theorem setNewSavedNetwork_filled (ns : List WifiNetwork) (n : WifiNetwork) :
    setNewSavedNetwork (filled ns) n = filled (ns ++ [n]) := by
  rw [setNewSavedNetwork]
  by_cases h : maxSavedNetworkCount ≤ ns.length
  · rw [if_pos (filled_full_iff.2 h), filled_append h]
  · rw [if_neg (filled_full_iff.not.2 h), filled_set (Nat.not_le.1 h)]

theorem foldl_setNewSavedNetwork (ns ms : List WifiNetwork) :
    ms.foldl setNewSavedNetwork (filled ns) = filled (ns ++ ms) := by
  induction ms generalizing ns with
  | nil => rw [List.foldl_nil, List.append_nil]
  | cons m ms ih =>
    rw [List.foldl_cons, setNewSavedNetwork_filled, ih, List.append_assoc, List.singleton_append]

/-- All slots are copied, also those that are not set. -/
theorem saveNetworks_filled (ns : List WifiNetwork) :
    (saveNetworks (filled ns)).networks = firstNetworks ns := by
  have h := foldl_setNewSavedNetwork [] (firstNetworks ns)
  rw [List.nil_append, filled_nil] at h
  have hsave : saveNetworks (filled ns) = filled (firstNetworks ns) := h
  have hlen := length_firstNetworks ns
  rw [hsave, filled, firstNetworks, hlen, Nat.sub_self, List.take_of_length_le hlen.le]
  exact List.append_nil _

/-- A network of the file is set if there is no room for it, or it fits its two fields. -/
theorem setNewWifiNet_filled (ns : List WifiNetwork) (v : Json) :
    setNewWifiNet (orString [] (member "ssid" (some v)))
        (orString [] (member "password" (some v))) (filled ns) = some t ↔
      (ns.length < maxSavedNetworkCount → (networkOf v).Fits) ∧
        t = filled (ns ++ [networkOf v]) := by
  rw [setNewWifiNet]
  by_cases h : maxSavedNetworkCount ≤ ns.length
  · rw [if_pos (filled_full_iff.2 h), Option.some.injEq, filled_append h,
      and_iff_right fun hlt => absurd hlt (Nat.not_lt.2 h), eq_comm]
  · have hlt := Nat.not_le.1 h
    rw [if_neg (filled_full_iff.not.2 h), forall_prop_of_true hlt, ← filled_set hlt, strcpy, strcpy]
    by_cases hs : (toText (orString [] (member "ssid" (some v)))).length < m2mMaxSsidLen
    · by_cases hp : (toText (orString [] (member "password" (some v)))).length < m2mMaxPskLen
      · have hfits : (networkOf v).Fits := ⟨hs, hp⟩
        rw [if_pos hs, if_pos hp, and_iff_right hfits, Option.bind_some, Option.map_some,
          Option.some.injEq, eq_comm]
        exact Iff.rfl
      · rw [if_pos hs, if_neg hp]
        exact iff_of_false (by simp) fun hf => hp hf.1.2
    · rw [if_neg hs]
      exact iff_of_false (by simp) fun hf => hs hf.1.1

/-- The networks of the file are set one after the other, if those fit that there is
    room for. -/
theorem foldlM_setNewWifiNet (ns : List WifiNetwork) (vs : List Json) :
    vs.foldlM (fun t v => setNewWifiNet (orString [] (member "ssid" (some v)))
        (orString [] (member "password" (some v))) t) (filled ns) = some t ↔
      (∀ m ∈ (vs.map networkOf).take (maxSavedNetworkCount - ns.length), m.Fits) ∧
        t = filled (ns ++ vs.map networkOf) := by
  induction vs generalizing ns with
  | nil => simp [eq_comm]
  | cons v vs ih =>
    rw [List.foldlM_cons, Option.bind_eq_bind, Option.bind_eq_some_iff]
    simp only [setNewWifiNet_filled, List.map_cons]
    have hassoc : ns ++ [networkOf v] ++ vs.map networkOf =
        ns ++ networkOf v :: vs.map networkOf := by
      rw [List.append_assoc, List.singleton_append]
    have hstep : (∃ u, ((ns.length < maxSavedNetworkCount → (networkOf v).Fits) ∧
        u = filled (ns ++ [networkOf v])) ∧ vs.foldlM (fun t v => setNewWifiNet
          (orString [] (member "ssid" (some v))) (orString [] (member "password" (some v))) t) u =
            some t) ↔ (ns.length < maxSavedNetworkCount → (networkOf v).Fits) ∧
        vs.foldlM (fun t v => setNewWifiNet (orString [] (member "ssid" (some v)))
          (orString [] (member "password" (some v))) t) (filled (ns ++ [networkOf v])) = some t :=
      ⟨fun ⟨_, ⟨hf, hu⟩, h⟩ => ⟨hf, hu ▸ h⟩, fun ⟨hf, h⟩ => ⟨_, ⟨hf, rfl⟩, h⟩⟩
    rw [hstep, ih, hassoc, ← and_assoc]
    refine and_congr_left fun _ => ?_
    rw [List.length_append, List.length_singleton]
    by_cases h : ns.length < maxSavedNetworkCount
    · have hroom : maxSavedNetworkCount - ns.length =
          maxSavedNetworkCount - (ns.length + 1) + 1 := by omega
      rw [forall_prop_of_true h, hroom, List.take_succ_cons, List.forall_mem_cons]
    · have h₁ : maxSavedNetworkCount - ns.length = 0 := by omega
      have h₂ : maxSavedNetworkCount - (ns.length + 1) = 0 := by omega
      rw [h₁, h₂, List.take_zero, List.take_zero]
      exact and_iff_right fun hlt => absurd hlt h

theorem readWifiNetworks_iff (root : Json) :
    readWifiNetworks (some root) = some t ↔
      (∀ n ∈ (documentNetworks root).take maxSavedNetworkCount, n.Fits) ∧
        t = filled (documentNetworks root) := by
  rw [readWifiNetworks]
  split
  · rw [← filled_nil, foldlM_setNewWifiNet, List.nil_append, documentNetworks]
    rfl
  · next h =>
    have hnone : member "wifi_networks" (some root) = none := by
      simpa [containsKey] using h
    rw [documentNetworks, hnone, ← filled_nil]
    simp only [elements, List.map_nil, List.take_nil, List.not_mem_nil, false_imp_iff,
      implies_true, true_and, Option.some.injEq]
    exact eq_comm

theorem StringsFit.documentNetworks {conv : FloatConversion} {root : Json}
    (h : StringsFit conv root) :
    ∀ n ∈ (documentNetworks root).take maxSavedNetworkCount, n.Fits := by
  obtain ⟨t, ht, -⟩ := h.networks
  exact ((readWifiNetworks_iff root).1 ht).1

/-- The strings of a configuration file fit if and only if, for each of its first five
    networks, the name and the password do. -/
theorem stringsFit_iff (conv : FloatConversion) (root : Json) :
    StringsFit conv root ↔
      ∀ n ∈ (documentNetworks root).take maxSavedNetworkCount, n.Fits := by
  have hconf := readConfigFile_configured conv (some root)
  constructor
  · exact StringsFit.documentNetworks
  · intro h
    have hbus {c : CANBusConfig} {port : ℕ} (hc : c.Configured port) (hp : port < 10) :
        c.busName.length < 21 ∧ (defaultBusName c.port).length < 5 := by
      refine ⟨Nat.lt_succ_of_le hc.busName, ?_⟩
      rw [hc.port, defaultBusName, decimal_natCast, Nat.toDigits_of_lt_base hp]
      exact Nat.le_refl 5
    refine ⟨Nat.lt_succ_of_le hconf.unitType, Nat.lt_succ_of_le hconf.unitNumber, ?_, ?_,
      filled (documentNetworks root), (readWifiNetworks_iff root).2 ⟨h, rfl⟩,
      saveNetworks_filled _, ?_⟩
    · rw [readServer]
      split
      · exact Nat.lt_succ_of_le (length_strlcpy_le _ _)
      · decide
    · simp only [List.forall_mem_cons, List.not_mem_nil, false_imp_iff, implies_true, and_true]
      exact ⟨hbus hconf.canConfig1 (by decide), hbus hconf.canConfig2 (by decide),
        hbus hconf.canConfig3 (by decide)⟩
    · rw [saveNetworks_filled, firstNetworks, List.forall_mem_append]
      refine ⟨h, fun n hn => ?_⟩
      rw [(List.mem_replicate.1 hn).2]
      decide

/-- A network whose name has 33 characters. -/
def longSsid : Json :=
  .object [("wifi_networks".toList, .array [.object
    [("ssid".toList, .string "GREENHOUSE_FIELD_STATION_NORTH_05".toList),
      ("password".toList, .string "secret".toList)]])]

/-- The name is copied beyond its field. -/
theorem stringsFit_overflows : ¬ StringsFit truncation longSsid := by
  intro h
  have hfits := h.documentNetworks
  revert hfits
  decide +kernel

end CanInsight
