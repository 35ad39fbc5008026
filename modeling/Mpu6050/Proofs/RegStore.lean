/-
What a write to the sysfs file of a register reports.

Two numbers are misread.  `i2c_smbus_write_byte_data` returns 0 when it has written, and
`i2c_mpu6050_reg_store` waits for the 1 that would be a count, so it reports every write as
failed, those that changed the register too.  And `sscanf` returns the conversions it made,
0 at a NUL, which is handed on as if it were an error: a buffer that starts with a 0, or goes
on with one, is neither stored nor refused.

So what is reported is what happened exactly if there was nothing to get wrong.
-/
import Mpu6050.Driver.Sysfs
import Mpu6050.Lib.Faults
import Mpu6050.Proofs.DeviceInit

namespace Mpu6050

open Registers

/-- One write at most was made, of the value to the register; the number of bytes came back
exactly if it was made and succeeded, and a negative error otherwise. -/
structure StoreReported (reg value : U8) (count : Nat) (chip : Chip) (result : Int × Chip) :
    Prop where
  write : made chip result.2 = [] ∨
    ∃ outcome, made chip result.2 = [.write reg value outcome]
  stored : result.1 = count ↔ made chip result.2 = [.write reg value none]
  refused : result.1 ≠ count → result.1 < 0

theorem sscanfChar_zero (c : U8) (rest : List U8) : sscanfChar c (0 :: rest) = (0, c) := rfl

theorem sscanfChar_cons {b : U8} (hb : b ≠ 0) (c : U8) (rest : List U8) :
    sscanfChar c (b :: rest) = (1, b) :=
  if_neg hb

theorem made_self (chip : Chip) : made chip chip = [] :=
  made_eq (List.append_nil _).symm

/-- A write is one transfer, and what it returns is never the 1 that is waited for. -/
theorem smbusWriteByteData_made (faults : Faults Errno) (reg value : U8) (chip : Chip) :
    made chip (smbusWriteByteData faults reg value chip).2
        = [.write reg value (faults chip.log.length)] ∧
      (smbusWriteByteData faults reg value chip).1 ≠ 1 := by
  unfold smbusWriteByteData
  cases hfault : faults chip.log.length with
  | none =>
      rw [Bus.write_ok _ _ hfault]
      exact ⟨made_eq rfl, by simp⟩
  | some e =>
      rw [Bus.write_error _ _ hfault]
      refine ⟨made_eq rfl, fun h => ?_⟩
      have hneg := e.property.2
      have hone : e.val = 1 := h
      omega

section

variable {faults : Faults Errno} {reg value : U8} {rest : List U8} {chip : Chip}

/-- A buffer with a NUL in front is answered by a 0. -/
theorem regStore_zero (h : reg = 0 ∨ value = 0) :
    regStore faults (some (.ok ())) (some (reg :: value :: rest)) chip = (0, chip) := by
  have hlength : ¬(reg :: value :: rest).length < 2 := by simp
  by_cases hreg : reg = 0
  · subst hreg
    simp only [regStore, if_neg hlength, sscanfChar_zero]
    rfl
  · have hvalue := h.resolve_left hreg
    subst hvalue
    simp only [regStore, if_neg hlength, sscanfChar_cons hreg, List.drop_one, List.tail_cons,
      sscanfChar_zero]
    rfl

/-- Any other is written, and reported as an error. -/
theorem regStore_write (hreg : reg ≠ 0) (hvalue : value ≠ 0) :
    regStore faults (some (.ok ())) (some (reg :: value :: rest)) chip
      = (eio.val, (smbusWriteByteData faults reg value chip).2) := by
  have hlength : ¬(reg :: value :: rest).length < 2 := by simp
  simp only [regStore, if_neg hlength, sscanfChar_cons hreg, List.drop_one, List.tail_cons,
    sscanfChar_cons hvalue, ne_eq, not_true_eq_false, if_false]
  exact if_pos (smbusWriteByteData_made faults reg value chip).2

/-- An error with nothing written is reported as it should be. -/
theorem storeReported_of_error {count : Nat} (e : Errno) :
    StoreReported reg value count chip (e.val, chip) := by
  have hneg := e.property.2
  refine ⟨Or.inl (made_self chip), iff_of_false ?_ ?_, fun _ => hneg⟩
  · intro h
    have hcount : e.val = count := h
    omega
  · rw [made_self]
    exact (List.cons_ne_nil _ _).symm

/-- A 0 is neither the number of bytes nor an error. -/
theorem not_storeReported_zero {count : Nat} (hcount : 2 ≤ count) :
    ¬StoreReported reg value count chip (0, chip) := by
  intro h
  have hne : (0 : Int) ≠ count := by omega
  exact absurd (h.refused hne) (Int.lt_irrefl 0)

/-- An error after a write is right exactly if the write failed. -/
theorem storeReported_written_iff {count : Nat} :
    StoreReported reg value count chip (eio.val, (smbusWriteByteData faults reg value chip).2)
      ↔ faults chip.log.length ≠ none := by
  have hmade := (smbusWriteByteData_made faults reg value chip).1
  have hcount : ¬eio.val = (count : Int) := by
    intro h
    have hneg := eio.property.2
    omega
  constructor
  · intro h hnone
    rw [hnone] at hmade
    exact hcount (h.stored.mpr hmade)
  · intro hfails
    refine ⟨Or.inr ⟨_, hmade⟩, iff_of_false hcount ?_, fun _ => eio.property.2⟩
    rw [hmade]
    intro hsucceeded
    exact hfails (by simpa using hsucceeded)

end

/--
**Storing a register reports what happened exactly if the device has no data, or both bytes
are not 0 and the write fails.**
-/
theorem regStore_reported_iff (faults : Faults Errno) (drvdata : Except Errno Unit)
    (reg value : U8) (rest : List U8) (chip : Chip) :
    StoreReported reg value (reg :: value :: rest).length chip
        (regStore faults (some drvdata) (some (reg :: value :: rest)) chip)
      ↔ (∃ e, drvdata = .error e) ∨
        (reg ≠ 0 ∧ value ≠ 0 ∧ faults chip.log.length ≠ none) := by
  cases drvdata with
  | error e =>
      have hstore : regStore faults (some (.error e)) (some (reg :: value :: rest)) chip
          = (e.val, chip) := by
        have hlength : ¬(reg :: value :: rest).length < 2 := by simp
        simp only [regStore, if_neg hlength]
      rw [hstore]
      exact iff_of_true (storeReported_of_error e) (Or.inl ⟨e, rfl⟩)
  | ok data =>
      have hdata : ¬∃ e, Except.ok data = (.error e : Except Errno Unit) := by
        rintro ⟨e, he⟩
        cases he
      rw [or_iff_right hdata]
      by_cases hzero : reg = 0 ∨ value = 0
      · rw [regStore_zero hzero]
        refine iff_of_false (not_storeReported_zero (by simp)) ?_
        rintro ⟨hreg, hvalue, -⟩
        exact hzero.elim hreg hvalue
      · obtain ⟨hreg, hvalue⟩ := not_or.mp hzero
        rw [regStore_write hreg hvalue, storeReported_written_iff]
        exact ⟨fun hfails => ⟨hreg, hvalue, hfails⟩, fun h => h.2.2⟩

/-- The chip is woken and an error reported; a 0 for `CONFIG` is passed over. -/
theorem regStore_misreports :
    (∃ result, regStore noFaults (some (.ok ())) (some [0x6B, 0x01]) powerOn = result ∧
      result.1 = eio.val ∧ result.2.file raPwrMgmt1 = 0x01 ∧
      ¬StoreReported 0x6B 0x01 2 powerOn result) ∧
    regStore noFaults (some (.ok ())) (some [0x1A, 0x00]) powerOn = (0, powerOn) ∧
      ¬StoreReported 0x1A 0x00 2 powerOn (0, powerOn) := by
  refine ⟨⟨_, regStore_write (by decide) (by decide), rfl, rfl, ?_⟩,
    regStore_zero (Or.inr rfl), not_storeReported_zero (Nat.le_refl 2)⟩
  rw [storeReported_written_iff]
  exact fun h => h rfl

end Mpu6050
