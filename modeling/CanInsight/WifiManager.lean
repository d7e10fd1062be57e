import CanInsight.Buffers

/-!
# Joining a network

What `read_config_file` reads about Wifi, and `search_and_connect`, which scans for one of the
networks that `Wifi_Manager` has saved.

* `joins_iff`: the network that is joined is the first of the scan that is listed in the
  document, with the password that is listed first for it, and no other is tried.
-/

namespace CanInsight

open CString

/-- The fields of `Config_Manager` about Wifi. -/
structure WifiConfig where
  wifiEnabled : Bool := false
  server : Bytes := []
  port : ℕ := 0
  wifiNets : NetworkTable := {}

/-- What `read_config_file` reads about Wifi, if no copy goes on beyond its array. -/
def readWifi (conv : FloatConversion) (root : Option Json) : Option WifiConfig :=
  (readWifiNetworks root).map fun nets =>
    { wifiEnabled := orBool false (member "wifi_enable" root)
      server := readServer root
      port :=
        if containsKey root "wifi_enable" then u16 (orInt conv.toInt 80 (member "port" root)) else 0
      wifiNets := nets }

/-- What the Wifi module does during `search_and_connect`. -/
structure Scan where
  /-- `WiFi.status() != WL_NO_SHIELD`. -/
  shield : Bool := true
  /-- `WiFi.SSID` of each network found. -/
  ssids : List Bytes
  /-- `WiFi.status() == WL_CONNECTED` after `WiFi.begin`. -/
  connects : WifiNetwork → Bool := fun _ => true

/-- The loop of `search_and_connect` over the scan: whether it reports a connection, and the
    network that `WiFi.begin` was called for. -/
def scanLoop (connects : WifiNetwork → Bool) (possibleNetworks : List WifiNetwork) :
    List Bytes → Bool × Option WifiNetwork
  | [] => (false, none)
  | ssid :: ssids =>
    if ssid = [] then scanLoop connects possibleNetworks ssids
    else
      match possibleNetworks.find? fun net => net.ssid = ssid with
      -- whether the connection succeeds or fails, the scan ends
      | some net => (connects net, some net)
      | none => scanLoop connects possibleNetworks ssids

/-- `search_and_connect`, with the table of `possible_networks`. -/
def searchAndConnect (scan : Scan) (t : NetworkTable) : Bool × Option WifiNetwork :=
  if !scan.shield then (false, none) else scanLoop scan.connects t.networks scan.ssids

/-! ## The network joined -/

/-- The name is the first one of the scan that is listed. -/
def FirstKnown (nets : List WifiNetwork) (ssids : List Bytes) (ssid : Bytes) : Prop :=
  ∃ l r, ssids = l ++ ssid :: r ∧ ∀ s ∈ l, s ≠ [] → ∀ m ∈ nets, m.ssid ≠ s

/-- The password is the first one that is listed for the name. -/
def FirstListed (nets : List WifiNetwork) (net : WifiNetwork) : Prop :=
  ∃ l r, nets = l ++ net :: r ∧ ∀ m ∈ l, m.ssid ≠ net.ssid

variable {nets : List WifiNetwork} {net : WifiNetwork} {connects : WifiNetwork → Bool}
  {ssid : Bytes} {ssids : List Bytes}

/-- The entries of the array that are not set have the empty name, which is not looked for. -/
theorem find?_firstNetworks (hssid : ssid ≠ []) :
    (firstNetworks nets).find? (fun net => net.ssid = ssid) =
      (nets.take maxSavedNetworkCount).find? fun net => net.ssid = ssid := by
  have he : (List.replicate (maxSavedNetworkCount - nets.length) (⟨[], []⟩ : WifiNetwork)).find?
      (fun net => net.ssid = ssid) = none := by
    refine List.find?_eq_none.2 fun net hnet => ?_
    rw [List.eq_of_mem_replicate hnet, decide_eq_true_eq]
    exact Ne.symm hssid
  rw [firstNetworks, List.find?_append, he, Option.or_none]

theorem find?_ssid_eq_some :
    nets.find? (fun m => m.ssid = ssid) = some net ↔
      net.ssid = ssid ∧ ∃ l r, nets = l ++ net :: r ∧ ∀ m ∈ l, m.ssid ≠ ssid := by
  rw [List.find?_eq_some_iff_append, decide_eq_true_eq]
  simp only [Bool.not_eq_true', decide_eq_false_iff_not, ne_eq]

theorem find?_ssid_eq_none : nets.find? (fun m => m.ssid = ssid) = none ↔
    ∀ m ∈ nets, m.ssid ≠ ssid := by
  simp only [List.find?_eq_none, decide_eq_true_eq, ne_eq]

theorem firstKnown_nil : ¬ FirstKnown nets [] ssid := by
  rintro ⟨l, r, h, _⟩
  exact List.append_ne_nil_of_right_ne_nil l (List.cons_ne_nil _ _) h.symm

/-- A name that is empty or not listed is passed over. -/
theorem firstKnown_cons_iff {s : Bytes} (hs : s ≠ [] → ∀ m ∈ nets, m.ssid ≠ s) (hne : s ≠ ssid) :
    FirstKnown nets (s :: ssids) ssid ↔ FirstKnown nets ssids ssid := by
  constructor
  · rintro ⟨l, r, h, hl⟩
    cases l with
    | nil =>
      cases h
      exact absurd rfl hne
    | cons t l =>
      cases h
      exact ⟨l, r, rfl, fun s h => hl s (List.mem_cons_of_mem _ h)⟩
  · rintro ⟨l, r, rfl, hl⟩
    exact ⟨s :: l, r, rfl, List.forall_mem_cons.2 ⟨hs, hl⟩⟩

/-- The scan goes no further than a name that is listed. -/
theorem firstKnown_cons_known {s : Bytes} (hs : s ≠ []) {m : WifiNetwork} (hm : m ∈ nets)
    (hms : m.ssid = s) : FirstKnown nets (s :: ssids) ssid ↔ s = ssid := by
  constructor
  · rintro ⟨l, r, h, hl⟩
    cases l with
    | nil =>
      cases h
      rfl
    | cons t l =>
      cases h
      exact absurd hms (hl s List.mem_cons_self hs m hm)
  · rintro rfl
    exact ⟨[], ssids, rfl, fun _ h => absurd h List.not_mem_nil⟩

/-- The call of `WiFi.begin` is for the first name of the scan that is listed. -/
theorem scanLoop_begins {all : List WifiNetwork} (hn : nets = all.take maxSavedNetworkCount) :
    (scanLoop connects (firstNetworks all) ssids).2 = some net ↔
      net.ssid ≠ [] ∧ FirstListed nets net ∧ FirstKnown nets ssids net.ssid := by
  induction ssids with
  | nil =>
    rw [scanLoop]
    exact ⟨fun h => (Option.some_ne_none _ h.symm).elim, fun h => (firstKnown_nil h.2.2).elim⟩
  | cons s ssids ih =>
    rw [scanLoop]
    by_cases hs : s = []
    · rw [if_pos hs, ih]
      refine and_congr_right fun hne => and_congr_right fun _ => ?_
      exact (firstKnown_cons_iff (fun h => absurd hs h) (hs ▸ Ne.symm hne)).symm
    · rw [if_neg hs, find?_firstNetworks hs, ← hn]
      cases hf : nets.find? fun m => m.ssid = s with
      | none =>
        have hnone := find?_ssid_eq_none.1 hf
        rw [ih]
        refine and_congr_right fun _ => and_congr_right fun hl => ?_
        obtain ⟨l, r, hlr, _⟩ := hl
        have hmem : net ∈ nets := hlr ▸ List.mem_append_right l List.mem_cons_self
        exact (firstKnown_cons_iff (fun _ => hnone) (hnone net hmem).symm).symm
      | some m =>
        obtain ⟨hms, l, r, hlr, hfirst⟩ := find?_ssid_eq_some.1 hf
        have hmem : m ∈ nets := hlr ▸ List.mem_append_right l List.mem_cons_self
        rw [firstKnown_cons_known hs hmem hms, Option.some_inj]
        constructor
        · rintro rfl
          exact ⟨hms ▸ hs, ⟨l, r, hlr, hms ▸ hfirst⟩, hms.symm⟩
        · rintro ⟨_, hl, rfl⟩
          exact Option.some_inj.1 (hf.symm.trans (find?_ssid_eq_some.2 ⟨rfl, hl⟩))

theorem scanLoop_result :
    (scanLoop connects nets ssids).1 = (scanLoop connects nets ssids).2.elim false connects := by
  induction ssids with
  | nil => rfl
  | cons s ssids ih =>
    rw [scanLoop]
    split
    · exact ih
    · split
      · rfl
      · exact ih

/-- The networks saved are those of the document. -/
theorem readWifi_networks {conv : FloatConversion} {root : Json} {c : WifiConfig}
    (h : readWifi conv (some root) = some c) :
    (saveNetworks c.wifiNets).networks = firstNetworks (documentNetworks root) := by
  obtain ⟨t, ht, rfl⟩ := Option.map_eq_some_iff.1 h
  rw [((readWifiNetworks_iff root).1 ht).2, saveNetworks_filled]

/-- The call of `WiFi.begin` in `search_and_connect`, with the networks of a document saved. -/
theorem searchAndConnect_begins {conv : FloatConversion} {root : Json} {c : WifiConfig}
    {scan : Scan} (h : readWifi conv (some root) = some c) :
    (searchAndConnect scan (saveNetworks c.wifiNets)).2 = some net ↔
      scan.shield = true ∧ net.ssid ≠ [] ∧
        FirstListed ((documentNetworks root).take maxSavedNetworkCount) net ∧
        FirstKnown ((documentNetworks root).take maxSavedNetworkCount) scan.ssids net.ssid := by
  rw [searchAndConnect, readWifi_networks h]
  cases scan.shield with
  | false => exact ⟨fun h => (Option.some_ne_none _ h.symm).elim, fun h => by cases h.1⟩
  | true => rw [Bool.not_true, if_neg Bool.false_ne_true, scanLoop_begins rfl, eq_self, true_and]

/-- With the networks of a document saved, `search_and_connect` calls `WiFi.begin` at most once:
    for the first name of the scan that is one of the first five of the document, with the
    password that comes first with it there. It reports whether that call connects. -/
theorem joins_iff {conv : FloatConversion} {root : Json} {c : WifiConfig} (scan : Scan)
    (h : readWifi conv (some root) = some c) :
    let listed := (documentNetworks root).take maxSavedNetworkCount
    let result := searchAndConnect scan (saveNetworks c.wifiNets)
    (∀ net, result.2 = some net ↔
      scan.shield = true ∧ net.ssid ≠ [] ∧ FirstListed listed net ∧
        FirstKnown listed scan.ssids net.ssid) ∧
    (result.1 = true ↔ ∃ net, result.2 = some net ∧ scan.connects net = true) := by
  refine ⟨fun net => searchAndConnect_begins h, ?_⟩
  have hresult : (searchAndConnect scan (saveNetworks c.wifiNets)).1 =
      (searchAndConnect scan (saveNetworks c.wifiNets)).2.elim false scan.connects := by
    rw [searchAndConnect]
    split
    · rfl
    · exact scanLoop_result
  rw [hresult]
  cases (searchAndConnect scan (saveNetworks c.wifiNets)).2 with
  | none => exact ⟨(fun h => by cases h), fun ⟨_, h, _⟩ => (Option.some_ne_none _ h.symm).elim⟩
  | some net => exact ⟨fun h => ⟨net, rfl, h⟩, fun ⟨_, h, hc⟩ => Option.some_inj.1 h ▸ hc⟩

/-- A document with one network. -/
def homeNetwork : Json :=
  .object [("wifi_enable".toList, .bool true), ("wifi_networks".toList, .array [.object
    [("ssid".toList, .string ['h']), ("password".toList, .string ['k'])]])]

theorem joins_iff_home :
    ∃ c, readWifi truncation (some homeNetwork) = some c ∧
      (searchAndConnect { ssids := [['x'], [], ['h']] } (saveNetworks c.wifiNets)).2 =
        some ⟨['h'], ['k']⟩ := by
  have hread : readWifi truncation (some homeNetwork) =
      some ⟨true, [], 80, filled [⟨['h'], ['k']⟩]⟩ := rfl
  have hlisted : (documentNetworks homeNetwork).take 5 = [⟨['h'], ['k']⟩] := rfl
  refine ⟨_, hread, ((joins_iff _ hread).1 _).2 ⟨rfl, by decide, ?_, ?_⟩⟩
  · exact ⟨[], [], hlisted, by decide⟩
  · refine ⟨[['x'], []], [], rfl, ?_⟩
    rw [maxSavedNetworkCount, hlisted]
    decide

end CanInsight
