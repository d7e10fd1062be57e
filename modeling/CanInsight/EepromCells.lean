import CanInsight.Lib.Cells
import CanInsight.Logger

/-!
# The bytes of the EEPROM

The logger and the uploader put their numbers into bytes of the EEPROM, 16-bit ones and an `int`,
and get them back when the power comes on again.

* `eepromLayout`: where the four cells are;
* `eeprom_of_puts`: on the bytes, putting is what the device does with its record of the four
  numbers, whatever the bytes were;
* `cut_put_iff`: when the power fails during a put, the three other cells are as they were, and
  its own has the old or the new number for sure if and only if one of their two bytes is the
  same.
-/

namespace CanInsight

open CString Cells

/-- The cells, by their locations in `config.h`. -/
inductive EepromCell
  | loggerNextLogNum
  | loggerFirstLogNum
  | uploaderNextToTry
  | uploaderMaxLog
  deriving DecidableEq

/-- `EEPROM_LOCATION_LOGGER_NEXT_LOG_NUM` and so on. -/
def EepromCell.location : EepromCell → ℕ
  | .loggerNextLogNum => 0
  | .loggerFirstLogNum => 4
  | .uploaderNextToTry => 10
  | .uploaderMaxLog => 12

/-- Each is got as a `uint16_t`. At the last, `start_log` puts an `int`. -/
def eepromLayout : Layout EepromCell where
  loc := EepromCell.location
  width _ := 2
  room c := if c = .uploaderMaxLog then 4 else 2
  apart := by
    rintro (_ | _ | _ | _) (_ | _ | _ | _) h <;> first | exact absurd rfl h | decide

namespace EEPROM

/-- The number of a cell. -/
def get (e : EEPROM) : EepromCell → ℕ
  | .loggerNextLogNum => e.loggerNextLogNum
  | .loggerFirstLogNum => e.loggerFirstLogNum
  | .uploaderNextToTry => e.uploaderNextToTry
  | .uploaderMaxLog => e.uploaderMaxLog

/-- Putting a number in a cell. -/
def put (e : EEPROM) (c : EepromCell) (n : ℕ) : EEPROM :=
  match c with
  | .loggerNextLogNum => { e with loggerNextLogNum := n }
  | .loggerFirstLogNum => { e with loggerFirstLogNum := n }
  | .uploaderNextToTry => { e with uploaderNextToTry := n }
  | .uploaderMaxLog => { e with uploaderMaxLog := n }

/-- What the logger and the uploader get from the bytes. -/
def ofBytes (m : Memory) : EEPROM where
  loggerNextLogNum := eepromLayout.read m .loggerNextLogNum
  loggerFirstLogNum := eepromLayout.read m .loggerFirstLogNum
  uploaderNextToTry := eepromLayout.read m .uploaderNextToTry
  uploaderMaxLog := eepromLayout.read m .uploaderMaxLog

variable {e : EEPROM} {m m' : Memory} {c : EepromCell}

theorem get_ofBytes (m : Memory) (c : EepromCell) : (ofBytes m).get c = eepromLayout.read m c := by
  cases c <;> rfl

theorem ofBytes_eq_put {n : ℕ} (hc : eepromLayout.read m' c = n)
    (hkeep : ∀ c', c' ≠ c → eepromLayout.read m' c' = eepromLayout.read m c') :
    ofBytes m' = (ofBytes m).put c n := by
  cases c <;>
    refine EEPROM.ext ?_ ?_ ?_ ?_ <;> first | exact hc | exact hkeep _ (by decide)

theorem put_get (e : EEPROM) (c : EepromCell) : e.put c (e.get c) = e := by
  cases c <;> rfl

theorem get_put (e : EEPROM) (c : EepromCell) (n : ℕ) : (e.put c n).get c = n := by
  cases c <;> rfl

theorem ofBytes_put (p : eepromLayout.Put) (m : Memory) :
    ofBytes (p.put m) = (ofBytes m).put p.cell (p.value % 2 ^ 16) := by
  have hread := eepromLayout.read_put p m
  refine ofBytes_eq_put ?_ fun c' hc' => ?_
  · rw [hread, Function.update_self]
    rfl
  · rw [hread, Function.update_of_ne hc']

end EEPROM

/-! ## The puts of the device -/

/-- `EEPROM.put` of a `uint16_t`. -/
def putShort (c : EepromCell) (n : ℕ) : eepromLayout.Put where
  cell := c
  len := 2
  value := n
  wide := le_rfl
  fits := by cases c <;> decide

/-- `EEPROM.put(EEPROM_LOCATION_UPLOADER_MAX_LOG, n)`, of an `int`. -/
def putInt (n : ℕ) : eepromLayout.Put where
  cell := .uploaderMaxLog
  len := 4
  value := n
  wide := by decide
  fits := le_rfl

namespace Device

variable {d : Device} {m : Memory} {n : ℕ}

theorem ofBytes_putShort (h : EEPROM.ofBytes m = d.eeprom) (c : EepromCell) (hn : n < 2 ^ 16) :
    EEPROM.ofBytes ((putShort c n).put m) = d.eeprom.put c n := by
  rw [EEPROM.ofBytes_put, h, putShort, Nat.mod_eq_of_lt hn]

/-- The lower half of `next_log_file_number - 1` is got back, also where it is negative. -/
theorem ofBytes_putInt (h : EEPROM.ofBytes m = d.eeprom) (hn : n < 2 ^ 16) :
    EEPROM.ofBytes ((putInt (u32 (n + (2 ^ 32 - 1)))).put m) =
      d.eeprom.put .uploaderMaxLog (maxLog n) := by
  have hlow : u32 (n + (2 ^ 32 - 1)) % 2 ^ 16 = maxLog n := by
    unfold u32 maxLog
    split <;> omega
  rw [EEPROM.ofBytes_put, h, putInt, hlow]

/-- The four puts of the device, on the bytes. -/
theorem ofBytes_puts (h : EEPROM.ofBytes m = d.eeprom) (hnext : d.nextLogFileNumber < 2 ^ 16)
    (hfirst : d.firstLogFileNumber < 2 ^ 16) (hn : n < 2 ^ 16) :
    EEPROM.ofBytes ((putShort .loggerNextLogNum d.nextLogFileNumber).put m) =
        d.putNextLogNum.eeprom ∧
      EEPROM.ofBytes ((putShort .loggerFirstLogNum d.firstLogFileNumber).put m) =
        d.putFirstLogNum.eeprom ∧
      EEPROM.ofBytes ((putShort .uploaderNextToTry n).put m) = (d.putNextToTry n).eeprom ∧
      EEPROM.ofBytes ((putInt (u32 (n + (2 ^ 32 - 1)))).put m) = (d.putMaxLog (maxLog n)).eeprom :=
  ⟨ofBytes_putShort h _ hnext, ofBytes_putShort h _ hfirst, ofBytes_putShort h _ hn,
    ofBytes_putInt h hn⟩

end Device

/-! ## Puts, and a power failure -/

/-- At most one of two bytes differs. -/
theorem two_bytes_iff {n v : ℕ} (hn : n < 256 ^ 2) :
    (∀ j < 2, ∀ k < 2, byte n j ≠ byte v j → byte n k ≠ byte v k → j = k) ↔
      n % 256 = v % 256 ∨ n / 256 = v / 256 % 256 := by
  have hlow : byte n 0 = byte v 0 ↔ n % 256 = v % 256 := by
    rw [← UInt8.toNat_inj, toNat_byte, toNat_byte, Nat.pow_zero, Nat.div_one, Nat.div_one]
  have hhigh : byte n 1 = byte v 1 ↔ n / 256 = v / 256 % 256 := by
    have hlt : n / 256 % 256 = n / 256 := Nat.mod_eq_of_lt (by omega)
    rw [← UInt8.toNat_inj, toNat_byte, toNat_byte, Nat.pow_one, hlt]
  rw [← hlow, ← hhigh]
  constructor
  · intro h
    by_contra hboth
    push Not at hboth
    exact absurd (h 0 (by decide) 1 (by decide) hboth.1 hboth.2) (by decide)
  · rintro h j hj k hk hnej hnek
    rcases h with h | h
    · have hj' : j ≠ 0 := fun h0 => hnej (h0 ▸ h)
      have hk' : k ≠ 0 := fun h0 => hnek (h0 ▸ h)
      omega
    · have hj' : j ≠ 1 := fun h1 => hnej (h1 ▸ h)
      have hk' : k ≠ 1 := fun h1 => hnek (h1 ▸ h)
      omega

/-- Whatever the bytes were, and whatever is put, what is got is what the record of the device
    has. -/
theorem eeprom_of_puts (ps : List eepromLayout.Put) (m : Memory) :
    EEPROM.ofBytes (ps.foldl (fun m p => p.put m) m) =
      ps.foldl (fun e p => e.put p.cell (p.value % 2 ^ 16)) (EEPROM.ofBytes m) := by
  induction ps generalizing m with
  | nil => rfl
  | cons p ps ih => rw [List.foldl_cons, List.foldl_cons, ih, EEPROM.ofBytes_put]

/-- Whatever the bytes were, and whatever has been put: the numbers are those of the record. A put
    of which only some bytes have been put leaves the three other cells as they are. In its own,
    the old or the new number is then for sure if and only if one of their two bytes is the
    same; so it is not where 256 is put over 255. -/
theorem cut_put_iff (ps : List eepromLayout.Put) (p : eepromLayout.Put) (m : Memory) :
    let before := ps.foldl (fun m p => p.put m) m
    let e := ps.foldl (fun e p => e.put p.cell (p.value % 2 ^ 16)) (EEPROM.ofBytes m)
    EEPROM.ofBytes before = e ∧
      (∀ m', p.Torn before m' → ∃ n, EEPROM.ofBytes m' = e.put p.cell n) ∧
      ((∀ m', p.Torn before m' → EEPROM.ofBytes m' = e ∨
          EEPROM.ofBytes m' = e.put p.cell (p.value % 2 ^ 16)) ↔
        e.get p.cell % 256 = p.value % 256 ∨ e.get p.cell / 256 = p.value / 256 % 256) := by
  dsimp only
  rw [← eeprom_of_puts]
  generalize ps.foldl (fun m p => p.put m) m = before
  have hcut {m' : Memory} (h : p.Torn before m') :
      EEPROM.ofBytes m' = (EEPROM.ofBytes before).put p.cell (eepromLayout.read m' p.cell) :=
    EEPROM.ofBytes_eq_put rfl fun c' hc' => Layout.read_torn h hc'
  refine ⟨rfl, fun m' h => ⟨_, hcut h⟩, ?_⟩
  have hcell (m' : Memory) (h : p.Torn before m') (n : ℕ) :
      EEPROM.ofBytes m' = (EEPROM.ofBytes before).put p.cell n ↔
        eepromLayout.read m' p.cell = n := by
    rw [hcut h]
    constructor
    · intro he
      rw [← EEPROM.get_put (EEPROM.ofBytes before) p.cell (eepromLayout.read m' p.cell), he,
        EEPROM.get_put]
    · rintro rfl
      rfl
  have hold (m' : Memory) (h : p.Torn before m') : EEPROM.ofBytes m' = EEPROM.ofBytes before ↔
      eepromLayout.read m' p.cell = eepromLayout.read before p.cell := by
    rw [← hcell m' h, ← EEPROM.get_ofBytes, EEPROM.put_get]
  have hwhole : (∀ m', p.Torn before m' → EEPROM.ofBytes m' = EEPROM.ofBytes before ∨
      EEPROM.ofBytes m' = (EEPROM.ofBytes before).put p.cell (p.value % 2 ^ 16)) ↔
        ∀ m', p.Torn before m' →
          eepromLayout.read m' p.cell = eepromLayout.read before p.cell ∨
            eepromLayout.read m' p.cell = p.number :=
    forall₂_congr fun m' h => or_congr (hold m' h) (hcell m' h _)
  rw [hwhole, Layout.torn_iff, EEPROM.get_ofBytes]
  exact two_bytes_iff (get_lt before _ 2)

end CanInsight
