import CanInsight.FreeSpace

/-!
# What the free-space test means

`check_sd_free_space` compares kilobytes: the free clusters times half the sectors of a
cluster, against one and a half thousandth of the size of a log. The library gives -1 for
the count of free clusters if that fails.

* `Volume`: a geometry the library accepts, with the counts it gives;
* `Meant`: enough space is reported only where the card has room for a log, and always
  where it has room for two;
* `meant_iff`: this is so if and only if neither a failed count, nor a size below 2000
  bytes, nor clusters of a single sector lead the test astray.
-/

namespace CanInsight

open CString Loop

/-- A FAT volume: the number of sectors in a cluster, and the free clusters that are
    counted, if the count does not fail. -/
structure Volume where
  blocksPerCluster : ℕ
  freeClusters : Card → Option ℕ
  geometry : ∃ j ≤ 7, blocksPerCluster = 2 ^ j
  sectors_lt : ∀ card c, freeClusters card = some c → c * blocksPerCluster < 2 ^ 32

namespace Volume

/-- What the library gives for the volume, with -1 for a count that fails. -/
def measured (v : Volume) (env : Env) : Env :=
  { env with
    freeClusterCount := fun card => (v.freeClusters card).getD (2 ^ 32 - 1)
    blocksPerCluster := v.blocksPerCluster }

/-- The free bytes of a card, in sectors of 512 bytes. -/
def freeBytes (v : Volume) (card : Card) : Option ℕ :=
  (v.freeClusters card).map (· * v.blocksPerCluster * 512)

variable {v : Volume} {env : Env} {card : Card} {n max : ℕ}

/-- Only clusters of a single sector cannot be halved. -/
theorem halves (v : Volume) :
    v.blocksPerCluster = 1 ∨ ∃ h, 0 < h ∧ v.blocksPerCluster = 2 * h := by
  obtain ⟨j, -, hj⟩ := v.geometry
  cases j with
  | zero => exact .inl hj
  | succ j => exact .inr ⟨2 ^ j, Nat.pow_pos (by decide), by rw [hj, Nat.pow_succ, Nat.mul_comm]⟩

/-- Clusters of a single sector do not count. -/
theorem freeKB_of_one (h : v.blocksPerCluster = 1) : Device.freeKB (v.measured env) card = 0 := by
  have hb : (v.measured env).blocksPerCluster = 1 := h
  rw [Device.freeKB, hb]
  rfl

/-- Otherwise, the free space is measured in kilobytes, without a loss. -/
theorem freeKB_of_even {h : ℕ} (hpos : 0 < h) (hb : v.blocksPerCluster = 2 * h)
    (hn : v.freeBytes card = some n) :
    n = Device.freeKB (v.measured env) card * 1024 := by
  obtain ⟨c, hc, rfl⟩ := Option.map_eq_some_iff.1 hn
  have hlt := v.sectors_lt card c hc
  rw [hb] at hlt
  have hle : c * h ≤ c * (2 * h) := Nat.mul_le_mul_left c (Nat.le_mul_of_pos_left h (by decide))
  have hkb : Device.freeKB (v.measured env) card = u32 (u32 c * h) := by
    have hcount : (v.measured env).freeClusterCount card =
        (v.freeClusters card).getD (2 ^ 32 - 1) := rfl
    have hblocks : (v.measured env).blocksPerCluster = v.blocksPerCluster := rfl
    rw [Device.freeKB, hcount, hblocks, hc, hb, Option.getD_some,
      Nat.mul_div_cancel_left h (by decide)]
  have hc' : c ≤ c * (2 * h) := Nat.le_mul_of_pos_right c (Nat.mul_pos (by decide) hpos)
  rw [hkb, u32, u32, Nat.mod_eq_of_lt (hc'.trans_lt hlt), Nat.mod_eq_of_lt (hle.trans_lt hlt), hb]
  rw [Nat.mul_left_comm, Nat.mul_comm 2, Nat.mul_assoc]

end Volume

namespace Device

variable {v : Volume} {env : Env} {d e : Device} {fuel k n : ℕ} {b : Bool}

/-- The free-space test means what it says. -/
structure Meant (v : Volume) (env : Env) (d : Device) : Prop where
  /-- Where it reports enough space, there is room for a log. -/
  enough : ∀ fuel e, d.checkSdFreeSpace fuel (v.measured env) = some (true, e) →
    ∃ n, v.freeBytes e.card = some n ∧ d.config.maxLogSize ≤ n
  /-- Where there is room for two logs, it reports enough space, and deletes nothing. -/
  plenty : ∀ n, v.freeBytes d.card = some n → 2 * d.config.maxLogSize ≤ n →
    ∀ fuel, fuel ≠ 0 → d.checkSdFreeSpace fuel (v.measured env) = some (true, d)

/-- The deletion of the first `k` logs, which is allowed, is the first to leave enough space
    by the measure of the test. -/
def FirstRoom (env : Env) (d : Device) (k : ℕ) : Prop :=
  (k = 0 ∨ d.config.overwriteLogs = true) ∧
    RoomWithout env d (namesToDelete d.firstLogFileNumber k) ∧
    ∀ j < k, ¬ RoomWithout env d (namesToDelete d.firstLogFileNumber j)

theorem firstRoom_of_checkSdFreeSpace (h : d.checkSdFreeSpace fuel env = some (true, e)) :
    ∃ k, FirstRoom env d k ∧ e = d.deletions env k := by
  obtain ⟨k, rfl, hj, hb, ho⟩ := checkSdFreeSpace_cases h
  refine ⟨k, ⟨?_, ?_, fun j hjk => (cramped_deletions_iff env j d).1 (hj j hjk)⟩, rfl⟩
  · cases hover : d.config.overwriteLogs with
    | false => exact .inl (ho hover)
    | true => exact .inr rfl
  · exact not_not.1 ((cramped_deletions_iff env k d).not.1 (hb.1 rfl))

theorem checkSdFreeSpace_of_firstRoom (h : FirstRoom env d k) :
    d.checkSdFreeSpace (k + 1) env = some (true, d.deletions env k) := by
  obtain ⟨ho, hroom, hno⟩ := h
  have hg (j : ℕ) (hj : j < k) : Cramped env (d.deletions env j) :=
    (cramped_deletions_iff env j d).2 (hno j hj)
  have hn : ¬ Cramped env (d.deletions env k) :=
    fun hc => (cramped_deletions_iff env k d).1 hc hroom
  rcases ho with rfl | ho
  · exact checkSdFreeSpace_of_le one_ne_zero (Nat.not_lt.1 hn)
  · rw [checkSdFreeSpace_of_overwriteLogs ho,
      whileLoop_eq_some_iff.2 ⟨k, k.lt_succ_self, ⟨hg, hn⟩, rfl⟩]
    rfl

/-- The sizes of two thousand bytes and more, against kilobytes. -/
theorem minFreeSpace_le {config : ConfigManager} {kb : ℕ} (h : minFreeSpace config ≤ kb)
    (hmax : 2000 ≤ config.maxLogSize) : config.maxLogSize ≤ kb * 1024 := by
  rw [minFreeSpace] at h
  by_cases hq : config.maxLogSize / 1000 = 2
  · omega
  · omega

theorem minFreeSpace_le_of_twice {config : ConfigManager} {kb : ℕ}
    (h : 2 * config.maxLogSize ≤ kb * 1024) : minFreeSpace config ≤ kb := by
  rw [minFreeSpace]
  omega

theorem minFreeSpace_eq_zero_iff {config : ConfigManager} :
    minFreeSpace config = 0 ↔ config.maxLogSize < 1000 := by
  rw [minFreeSpace]
  omega

/-- The free-space test means what it says if and only if, on the first card that it takes to
    have enough space, the count does not fail, and there is room for a log or the log has
    2000 bytes at least; and, unless a log has less than 1000 bytes, or there is no room
    for two, a cluster has more than one sector. -/
theorem meant_iff (v : Volume) (env : Env) (d : Device) :
    Meant v env d ↔
      (∀ k, FirstRoom (v.measured env) d k →
        ∃ n, v.freeBytes (withoutFiles env.removes d.card
            (namesToDelete d.firstLogFileNumber k)) = some n ∧
          (2000 ≤ d.config.maxLogSize ∨ d.config.maxLogSize ≤ n)) ∧
      (v.blocksPerCluster ≠ 1 ∨ d.config.maxLogSize < 1000 ∨
        ∀ n, v.freeBytes d.card = some n → n < 2 * d.config.maxLogSize) := by
  have hcard (k : ℕ) : (d.deletions (v.measured env) k).card =
      withoutFiles env.removes d.card (namesToDelete d.firstLogFileNumber k) :=
    deletions_card (v.measured env) k d
  constructor
  · intro h
    refine ⟨fun k hk => ?_, ?_⟩
    · obtain ⟨n, hn, hle⟩ := h.enough _ _ (checkSdFreeSpace_of_firstRoom hk)
      exact ⟨n, hcard k ▸ hn, .inr hle⟩
    · by_contra hno
      simp only [not_or, not_not, not_lt, not_forall] at hno
      obtain ⟨hone, hmax, n, hn, hle⟩ := hno
      -- single sectors are not counted, so that there seems to be no room
      obtain ⟨_, -, -, hb, -⟩ := checkSdFreeSpace_cases (h.plenty n hn hle 1 one_ne_zero)
      refine hb.1 rfl ?_
      rw [Cramped, Volume.freeKB_of_one hone, Nat.pos_iff_ne_zero, ne_eq, minFreeSpace_eq_zero_iff]
      exact Nat.not_lt.2 hmax
  · rintro ⟨hroom, hplenty⟩
    refine ⟨fun fuel e he => ?_, fun n hn hle fuel hf => checkSdFreeSpace_of_le hf ?_⟩
    · obtain ⟨k, hk, rfl⟩ := firstRoom_of_checkSdFreeSpace he
      obtain ⟨n, hn, hmax⟩ := hroom k hk
      rw [← hcard] at hn
      refine ⟨n, hn, hmax.elim (fun hmax => ?_) id⟩
      have hmin : minFreeSpace d.config ≤
          freeKB (v.measured env) (d.deletions (v.measured env) k).card := by
        rw [hcard]
        exact hk.2.1
      rcases v.halves with hone | ⟨h, hpos, hb⟩
      · rw [Volume.freeKB_of_one hone, Nat.le_zero, minFreeSpace_eq_zero_iff] at hmin
        omega
      · rw [Volume.freeKB_of_even hpos hb hn]
        exact minFreeSpace_le hmin hmax
    · rcases v.halves with hone | ⟨h, hpos, hb⟩
      · have hmax := (hplenty.resolve_left (not_not.2 hone)).resolve_right
          fun hno => absurd hle (Nat.not_le.2 (hno n hn))
        rw [minFreeSpace_eq_zero_iff.2 hmax]
        exact Nat.zero_le _
      · rw [Volume.freeKB_of_even hpos hb hn] at hle
        exact minFreeSpace_le_of_twice hle

/-- A volume of 32 KB clusters whose free clusters cannot be counted. -/
def unreadable : Volume where
  blocksPerCluster := 64
  freeClusters _ := none
  geometry := ⟨6, by decide, rfl⟩
  sectors_lt := fun _ _ h => by cases h

/-- A failed count is taken as enough space. -/
theorem not_meant_unreadable : ¬ Meant unreadable .full (initial ∅ ⟨1, 0, 1, 0⟩) := by
  intro h
  obtain ⟨n, hn, -⟩ := h.enough 1 _ (checkSdFreeSpace_of_le one_ne_zero (by decide))
  cases hn

end Device

end CanInsight
