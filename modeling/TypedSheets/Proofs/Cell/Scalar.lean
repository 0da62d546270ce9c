import TypedSheets.Cell.Data
import TypedSheets.Proofs.Number.Canonical
import TypedSheets.Proofs.Number.Rounding

/-!
# Reading scalars back

A scalar that was read from any value prints to a value that reads as the same scalar. Wide
integers go through their digits, and numbers of 32 bits through 64. What was read from something
does not print as nothing, so an optional scalar does not get lost.

## Main definitions

* `Value.isFilled` — a value that an optional cell does not take for nothing

## Main results

* `ScalarType.read_print` — a scalar that was read reads back
* `ScalarType.isFilled_print` — what was read from something prints as something
-/

namespace TypedSheets

open Number

/-! ### Nothing and something -/

/-- Whether an optional cell takes the value for something: null and blank texts are nothing. -/
def Value.isFilled : Value → Bool
  | .null => false
  | .text s => !Text.isBlank s
  | _ => true

section Option

variable {α : Type} {read : Value → Except CellError α} {v : Value}

theorem readOption_of_isFilled (read : Value → Except CellError α) (h : v.isFilled = true) :
    readOption read v = (read v).map some := by
  cases v with
  | null => cases h
  | text s =>
    rw [Value.isFilled, Bool.not_eq_true'] at h
    rw [readOption, h]
    rfl
  | bool b => rfl
  | int i => rfl
  | float d => rfl
  | list items => rfl
  | map entries => rfl
  | record cells => rfl
  | sheetRef r => rfl
  | assetRef a => rfl

theorem readOption_of_not_isFilled (read : Value → Except CellError α) (h : v.isFilled = false) :
    readOption read v = .ok none := by
  cases v with
  | null => rfl
  | text s =>
    rw [Value.isFilled, Bool.not_eq_false'] at h
    rw [readOption, h]
    rfl
  | _ => cases h

/-- Only something is read as a value, and then as it would be where it is not optional. -/
theorem isFilled_of_readOption {x : α} (h : readOption read v = .ok (some x)) :
    v.isFilled = true ∧ read v = .ok x := by
  cases hv : v.isFilled with
  | false =>
    rw [readOption_of_not_isFilled read hv] at h
    cases h
  | true =>
    rw [readOption_of_isFilled read hv] at h
    cases hr : read v with
    | error e =>
      rw [hr] at h
      cases h
    | ok y =>
      rw [hr] at h
      cases h
      exact ⟨rfl, rfl⟩

end Option

/-! ### Integers -/

namespace IntKind

theorem lo_i128 : i128.lo = -2 ^ 127 := by decide

theorem hi_i128 : i128.hi = 2 ^ 127 - 1 := by decide

theorem clamp_of_holds {k : IntKind} {i : Int} (h : k.Holds i) : k.clamp i = i := by
  obtain ⟨hlo, hhi⟩ := h
  rw [clamp, min_eq_right hhi, max_eq_right hlo]

end IntKind

namespace ScalarType

theorem holds_i128_of_i64 {i : Int} (h : IntKind.i64.Holds i) : IntKind.i128.Holds i := by
  have hlo : IntKind.i128.lo ≤ IntKind.i64.lo := by decide
  have hhi : IntKind.i64.hi ≤ IntKind.i128.hi := by decide
  exact ⟨hlo.trans h.1, h.2.trans hhi⟩

theorem holds_i128_clamp (i : Int) : IntKind.i128.Holds (IntKind.i128.clamp i) := by
  have h : IntKind.i128.lo ≤ IntKind.i128.hi := by decide
  refine ⟨Int.le_max_left _ _, ?_⟩
  rw [IntKind.clamp]
  omega

/-- No integer is read that 128 bits with sign do not hold. -/
theorem holds_of_readWide {expected : String} {v : Value} {i : Int}
    (h : readWide expected v = .ok i) : IntKind.i128.Holds i := by
  cases v with
  | null =>
    cases h
    decide
  | bool b =>
    cases h
    cases b <;> decide
  | int n =>
    cases h
    exact holds_i128_of_i64 n.property
  | float d =>
    -- a number that is read as an integer is cut off at the bounds of 128 bits
    rw [readWide] at h
    split at h <;> cases h
    exact holds_i128_clamp _
  | text s =>
    rw [readWide] at h
    split at h
    · cases h
      decide
    · split at h <;> cases h
      next x _ => exact x.property
  | list items => cases h
  | map entries => cases h
  | record cells => cases h
  | sheetRef r => cases h
  | assetRef a => cases h

/-- The text of an integer is read as the integer if 128 bits with sign hold it, and refused if
they do not. -/
theorem readWide_intText (expected : String) (i : Int) :
    readWide expected (.text (intText i)) =
      if IntKind.i128.Holds i then .ok i else .error (.parse (intText i) expected) := by
  have hparse : (parseInt? (Text.trimChars (intText i).toList)).bind IntKind.i128.ofInt? =
      IntKind.i128.ofInt? i := by
    rw [trimChars_intText, parseInt?_intText, Option.bind_some]
  simp only [readWide, isBlank_intText, hparse, Bool.false_eq_true, if_false]
  split
  · next x hx =>
    obtain rfl := IntKind.ofInt?_eq_some_iff.mp hx
    rw [if_pos x.property]
  · next hnone => rw [if_neg (IntKind.ofInt?_eq_none_iff.mp hnone)]

/-- An integer of up to 128 bits with sign reads back. -/
theorem readWide_printInt (expected : String) {i : Int} (h : IntKind.i128.Holds i) :
    readWide expected (printInt i) = .ok i := by
  rw [printInt]
  cases hi : IntKind.i64.ofInt? i with
  | some n =>
    rw [← IntKind.ofInt?_eq_some_iff.mp hi]
    rfl
  | none =>
    -- an integer that 64 bits do not hold is printed as a text
    exact (readWide_intText expected i).trans (if_pos h)

/-- An integer is read as the one of 128 bits, which has to be of its kind. -/
theorem readInt_eq_ok_iff {k : IntKind} {v : Value} {x : k.El} :
    readInt k v = .ok x ↔ readWide k.name v = .ok x.val := by
  rw [readInt]
  cases readWide k.name v with
  | error e => simp
  | ok wide =>
    rw [Except.ok.injEq, eq_comm (a := wide), ← IntKind.ofInt?_eq_some_iff]
    cases hx : k.ofInt? wide <;> simp [hx]

theorem readInt_printInt {k : IntKind} {v : Value} {x : k.El} (h : readInt k v = .ok x) :
    readInt k (printInt x.val) = .ok x := by
  rw [readInt_eq_ok_iff] at h ⊢
  exact readWide_printInt k.name (holds_of_readWide h)

theorem isFilled_printInt (i : Int) : (printInt i).isFilled = true := by
  rw [printInt]
  split
  · rfl
  · rw [Value.isFilled, isBlank_intText]
    rfl

/-! ### Floating point numbers -/

/-- A number that is read is quiet if the conversion from 64 bits gives quiet ones. -/
theorem quiet_of_readBinary {f : Format} {expected : String} {ofDouble : Double → Binary f}
    (hd : ∀ d, (ofDouble d).Quiet) {v : Value} {x : Binary f}
    (h : readBinary f expected ofDouble v = .ok x) : x.Quiet := by
  cases v with
  | null =>
    cases h
    exact Binary.zero_quiet
  | bool b =>
    cases h
    exact Binary.ofInt_quiet _
  | int i =>
    cases h
    exact Binary.ofInt_quiet _
  | float d =>
    cases h
    exact hd d
  | text s =>
    -- a text is blank, or it is parsed, and both give quiet numbers
    rw [readBinary] at h
    split at h
    · cases h
      exact Binary.zero_quiet
    · split at h <;> cases h
      next hparse => exact Binary.parse?_quiet hparse
  | list items => cases h
  | map entries => cases h
  | record cells => cases h
  | sheetRef r => cases h
  | assetRef a => cases h

/-! ### All scalars -/

/-- A scalar that was read from any value reads back from what it prints to. -/
theorem read_print {s : ScalarType} {v : Value} {x : s.El} (h : s.read v = .ok x) :
    s.read (s.print x) = .ok x := by
  cases s with
  | bool => rfl
  | int k => exact readInt_printInt h
  | single =>
    -- it is printed with 64 bits, and only quiet numbers survive that
    have hq : Binary.Quiet x := quiet_of_readBinary Binary.convert_quiet h
    exact congrArg Except.ok (Binary.convert_single_double hq)
  | double => rfl
  | text => rfl

theorem isBlank_floatKey (d : Double) : Text.isBlank (Value.floatKey d) = false := by
  rw [Value.floatKey]
  split
  · split
    · exact isBlank_intText _
    · exact isBlank_text d
  · exact isBlank_text d

/-- A text that is read from something is not blank. -/
theorem isBlank_of_readText {v : Value} {x : String} (hv : v.isFilled = true)
    (h : readText v = .ok x) : Text.isBlank x = false := by
  cases v with
  | null => cases hv
  | text s =>
    cases h
    exact (Bool.not_eq_true' _).mp hv
  | bool b =>
    cases h
    cases b <;> decide
  | int i =>
    cases h
    exact isBlank_intText _
  | float d =>
    cases h
    exact isBlank_floatKey d
  | list items => cases h
  | map entries => cases h
  | record cells => cases h
  | sheetRef r => cases h
  | assetRef a => cases h

/-- A scalar that is read from something does not print as nothing. -/
theorem isFilled_print {s : ScalarType} {v : Value} {x : s.El} (hv : v.isFilled = true)
    (h : s.read v = .ok x) : (s.print x).isFilled = true := by
  cases s with
  | bool => rfl
  | int k => exact isFilled_printInt x.val
  | single => rfl
  | double => rfl
  | text => exact (Bool.not_eq_true' _).mpr (isBlank_of_readText hv h)

end ScalarType

end TypedSheets
