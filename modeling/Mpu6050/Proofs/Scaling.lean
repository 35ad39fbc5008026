/-
The client's divisors against the ranges the driver programs.

The client divides by the factors of the smallest ranges, 16384 LSB/g and 131 LSB/(°/s).
Initialisation leaves each range field at 3 or at 2, never at 0, so that the factor of
the range programmed is a quarter or an eighth of that.  The two quotients agree for a
raw value of zero and for no other.
-/
import Mathlib.Tactic.FieldSimp
import Mathlib.Tactic.Linarith
import Mpu6050.Proofs.DeviceInit
import Mpu6050.Proofs.ExportPaths

namespace Mpu6050

open Registers Words

/-- The sample in g and °/s, by the ranges left in the registers. -/
structure ScaledAsProgrammed (file : RegisterFile) (data : Data) : Prop where
  accelX : (Client.extractData data).accelX
    = bigEndianWord data 0 / (16384 / 2 ^ (rangeSel (file raAccelConfig)).toNat)
  accelY : (Client.extractData data).accelY
    = bigEndianWord data 1 / (16384 / 2 ^ (rangeSel (file raAccelConfig)).toNat)
  accelZ : (Client.extractData data).accelZ
    = bigEndianWord data 2 / (16384 / 2 ^ (rangeSel (file raAccelConfig)).toNat)
  gyroX : (Client.extractData data).gyroX
    = bigEndianWord data 4 / (131 / 2 ^ (rangeSel (file raGyroConfig)).toNat)
  gyroY : (Client.extractData data).gyroY
    = bigEndianWord data 5 / (131 / 2 ^ (rangeSel (file raGyroConfig)).toNat)
  gyroZ : (Client.extractData data).gyroZ
    = bigEndianWord data 6 / (131 / 2 ^ (rangeSel (file raGyroConfig)).toNat)

/-! ### One word -/

/-- The quotient by the factor of the smallest range is the one by the factor of a larger
range only for a raw value of zero. -/
theorem div_eq_div_range_iff (raw : Int) {factor : ℚ} (hfactor : factor ≠ 0) {sel : BitVec 2}
    (hsel : sel = 2 ∨ sel = 3) :
    (raw : ℚ) / factor = raw / (factor / 2 ^ sel.toNat) ↔ raw = 0 := by
  have hpow : (2 : ℚ) ^ sel.toNat ≠ 1 := by
    rcases hsel with rfl | rfl
    · show (2 : ℚ) ^ 2 ≠ 1
      norm_num
    · show (2 : ℚ) ^ 3 ≠ 1
      norm_num
  rw [div_div_eq_mul_div, div_left_inj' hfactor]
  constructor
  · intro h
    by_contra hne
    have hraw : (raw : ℚ) ≠ 0 := by exact_mod_cast hne
    exact hpow (mul_left_cancel₀ hraw (h.symm.trans (mul_one _).symm))
  · rintro rfl
    simp

/-- The ranges left by initialisation are never the smallest. -/
theorem deviceInit_rangeSel_cases (nofifo noirq : Int) (chip : Chip) {a : U8}
    (ha : a = raGyroConfig ∨ a = raAccelConfig) :
    rangeSel ((deviceInit nofifo noirq noFaults chip).2.file a) = 2 ∨
      rangeSel ((deviceInit nofifo noirq noFaults chip).2.file a) = 3 := by
  obtain ⟨hgyro, haccel⟩ := deviceInit_rangeSel nofifo noirq chip
  rcases ha with rfl | rfl
  · rw [hgyro]
    split
    · exact Or.inr rfl
    · exact Or.inl rfl
  · rw [haccel]
    split
    · exact Or.inr rfl
    · exact Or.inl rfl

/-- What the client computes, from the words the chip sent. -/
theorem extractData_eq (data : Data) :
    Client.extractData data =
      { accelX := bigEndianWord data 0 / 16384
        accelY := bigEndianWord data 1 / 16384
        accelZ := bigEndianWord data 2 / 16384
        temp := bigEndianWord data 3 / Client.thermometerLsbFactor + Client.thermometerOffset
        gyroX := bigEndianWord data 4 / 131
        gyroY := bigEndianWord data 5 / 131
        gyroZ := bigEndianWord data 6 / 131 } := by
  unfold Client.extractData
  rw [clientDecoded_eq]
  rfl

/-! ### The sample -/

/-- Both bytes of every acceleration and angular rate are zero. -/
def AtRest (data : Data) : Prop :=
  ∀ k : Fin 7, k ≠ 3 → (wordBytes data k).1 = 0 ∧ (wordBytes data k).2 = 0

theorem atRest_iff (data : Data) :
    AtRest data ↔ ∀ k : Fin 7, k ≠ 3 → bigEndianWord data k = 0 :=
  forall₂_congr fun _ _ => (bigEndian_eq_zero_iff _ _).symm

/--
**The client's scale is the one programmed only for a sample of zeros,** whatever the
registers held before initialisation.
-/
theorem scaledAsProgrammed_iff (nofifo noirq : Int) (chip : Chip) (data : Data) :
    ScaledAsProgrammed (deviceInit nofifo noirq noFaults chip).2.file data ↔ AtRest data := by
  have haccel := deviceInit_rangeSel_cases nofifo noirq chip (Or.inr rfl)
  have hgyro := deviceInit_rangeSel_cases nofifo noirq chip (Or.inl rfl)
  have hax := fun k =>
    div_eq_div_range_iff (bigEndianWord data k) (show (16384 : ℚ) ≠ 0 by norm_num) haccel
  have hgx := fun k =>
    div_eq_div_range_iff (bigEndianWord data k) (show (131 : ℚ) ≠ 0 by norm_num) hgyro
  rw [atRest_iff]
  constructor
  · rintro ⟨h0, h1, h2, h4, h5, h6⟩
    rw [extractData_eq] at h0 h1 h2 h4 h5 h6
    intro k hk
    match k with
    | 0 => exact (hax 0).mp h0
    | 1 => exact (hax 1).mp h1
    | 2 => exact (hax 2).mp h2
    | 3 => exact absurd rfl hk
    | 4 => exact (hgx 4).mp h4
    | 5 => exact (hgx 5).mp h5
    | 6 => exact (hgx 6).mp h6
  · intro h
    refine ⟨?_, ?_, ?_, ?_, ?_, ?_⟩ <;> rw [extractData_eq]
    · exact (hax 0).mpr (h 0 (by decide))
    · exact (hax 1).mpr (h 1 (by decide))
    · exact (hax 2).mpr (h 2 (by decide))
    · exact (hgx 4).mpr (h 4 (by decide))
    · exact (hgx 5).mpr (h 5 (by decide))
    · exact (hgx 6).mpr (h 6 (by decide))

/-- At rest, the z axis up: 2048 LSB, which is 1 g in the range of +-16 g. -/
def oneG : Data := fun i => if i.val = 4 then 0x08 else 0

/-- A chip whose ranges end as meant. -/
def rangesPreset : Chip :=
  { file := fun a => if a = raGyroConfig ∨ a = raAccelConfig then 0x18 else 0, log := [] }

/-- The chip is set to +-16 g and reports 1 g; the client makes an eighth of it. -/
theorem oneG_not_scaled :
    ¬ScaledAsProgrammed (deviceInit 1 1 noFaults rangesPreset).2.file oneG := by
  intro h
  have hz := h.accelZ
  rw [(deviceInit_rangeSel 1 1 rangesPreset).2, extractData_eq] at hz
  have hword : bigEndianWord oneG 2 = 2048 := by decide
  have hsel : (if (rangesPreset.file raAccelConfig).getLsbD 3 then (3 : BitVec 2) else 2) = 3 := by
    decide
  have hnat : (3 : BitVec 2).toNat = 3 := rfl
  rw [hword, hsel, hnat] at hz
  norm_num at hz

end Mpu6050
