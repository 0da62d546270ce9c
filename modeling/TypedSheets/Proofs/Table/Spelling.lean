import TypedSheets.Proofs.Cell.Scalar
import TypedSheets.Proofs.Number.Shortest
import TypedSheets.Proofs.Text.Parts
import TypedSheets.Table.Type

/-!
# Integer ids and references to them

One cell may be read as an integer id, and as a reference to the row with an id. The id is the
number that the cell holds, and its key is the text of the number. The key of the reference is the
text of the cell. They are the same if the cell spells the number as it is printed.

## Main definitions

* `Value.Canonical` — a scalar that is spelled as its number is printed

## Main results

* `SheetRef.key_eq_key_id_iff` — a cell is a reference to the id that it holds exactly if it is
  canonical, as integers and whole numbers below `2 ^ 54` are
* `SheetRef.exists_key_ne_key_id` — cells that are not
-/

namespace TypedSheets

open Number

/-- A whole number is read as the integer nearest to it that 128 bits hold. -/
theorem ScalarType.readWide_float (expected : String) {d : Double} {i : Int}
    (h : d.wholePart? = some i) :
    readWide expected (.float d) = .ok (IntKind.i128.clamp i) := by
  rw [readWide, h]

theorem IdType.read_int_eq_ok_iff {k : IntKind} {v : Value} {x : k.El} :
    (IdType.int k).read v = .ok x ↔ ScalarType.readWide k.name v = .ok x.val :=
  ScalarType.readInt_eq_ok_iff

namespace Value

/-- A scalar is spelled as the integer it holds is printed. -/
def Canonical : Value → Prop
  | .int _ => True
  | .float d => d.Exact ∧ ∀ i, d.wholePart? = some i → IntKind.i128.Holds i
  | .text s => Number.Canonical (Text.trimChars s.toList)
  | _ => False

/-- Whole numbers below `2 ^ 54` are spelled exactly. -/
theorem canonical_float_of_lt {d : Double} {i : Int} (hd : d.wholePart? = some i)
    (hi : i.natAbs < 2 ^ 54) : (Value.float d).Canonical := by
  refine ⟨Binary.exact_of_lt hd hi, fun j hj => ?_⟩
  obtain rfl := Option.some.inj (hd.symm.trans hj)
  rw [IntKind.Holds, IntKind.lo_i128, IntKind.hi_i128]
  omega

/-- Beyond 128 bits no number is spelled as the bound of 128 bits is. -/
theorem whole_ne_clamp {i : Int} {m : Nat} {e : Int} (hm : m ≠ 0) (h : Whole m e i.natAbs)
    (hi : ¬ IntKind.i128.Holds i) :
    (Shortest.of .double m e).whole ≠ (IntKind.i128.clamp i).natAbs := by
  rw [IntKind.Holds, IntKind.lo_i128, IntKind.hi_i128] at hi
  have hlength : 18 < (natChars i.natAbs).length := by
    rw [← Nat.not_le, length_natChars_le_iff (by decide)]
    omega
  -- neither bound is a multiple of ten
  have hdvd := Binary.ten_dvd_of_length_lt .double hm h hlength
  rw [IntKind.clamp, IntKind.lo_i128, IntKind.hi_i128]
  omega

/-- As an id a whole number is written as it is, or else with its shortest digits. -/
theorem floatKey_cases {d : Double} {i : Int} (hd : d.wholePart? = some i) :
    i.natAbs < wholeKeyLimit ∧ floatKey d = intText i ∨
      ∃ s m e, d.decode = .finite s m e ∧ m ≠ 0 ∧ Whole m e i.natAbs ∧
        i = (if s then -(i.natAbs : Int) else i.natAbs) ∧
        floatKey d = intText (if s then -((Shortest.of .double m e).whole : Int)
          else (Shortest.of .double m e).whole) := by
  by_cases hlimit : i.natAbs < wholeKeyLimit
  · refine Or.inl ⟨hlimit, ?_⟩
    rw [floatKey, hd]
    exact if_pos hlimit
  · obtain ⟨s, m, e, hdecode, hwhole, hsign⟩ := Binary.decode_of_wholePart? hd
    -- zero is a whole number below the limit
    have hm : m ≠ 0 := by
      rintro rfl
      have hprod : i.natAbs * 2 ^ (-e).toNat = 0 := hwhole.symm.trans (Nat.zero_mul _)
      have hzero : i.natAbs = 0 :=
        (Nat.mul_eq_zero.mp hprod).resolve_right (Nat.two_pow_pos _).ne'
      exact hlimit (hzero ▸ (by decide : 0 < wholeKeyLimit))
    refine Or.inr ⟨s, m, e, hdecode, hm, hwhole, hsign, ?_⟩
    rw [floatKey, hd]
    exact (if_neg hlimit).trans (Binary.text_of_whole hdecode hm hwhole)

theorem trim_floatKey {d : Double} {i : Int} (hd : d.wholePart? = some i) :
    Text.trim (floatKey d) = floatKey d := by
  rcases floatKey_cases hd with ⟨-, hkey⟩ | ⟨s, m, e, -, -, -, -, hkey⟩
  · rw [hkey, Text.trim_intText]
  · rw [hkey, Text.trim_intText]

/-- The text of a whole number as an id is that of the integer which 128 bits hold for it exactly
if it is canonical. -/
theorem floatKey_eq_iff {d : Double} {i : Int} (hd : d.wholePart? = some i) :
    floatKey d = intText (IntKind.i128.clamp i) ↔ (Value.float d).Canonical := by
  rcases floatKey_cases hd with ⟨hlimit, hkey⟩ | ⟨s, m, e, hdecode, hm, hwhole, hsign, hkey⟩
  · have hcanonical := canonical_float_of_lt hd (hlimit.trans (by decide))
    rw [hkey, IntKind.clamp_of_holds (hcanonical.2 i hd)]
    exact ⟨fun _ => hcanonical, fun _ => rfl⟩
  · rw [hkey, intText_injective.eq_iff, Canonical, Binary.exact_iff_of_whole hdecode hm hwhole]
    by_cases hi : IntKind.i128.Holds i
    · -- the digits have the sign of the number, so they denote it if they denote its magnitude
      have hholds : ∀ j, d.wholePart? = some j → IntKind.i128.Holds j := by
        intro j hj
        rwa [← Option.some.inj (hd.symm.trans hj)]
      rw [IntKind.clamp_of_holds hi, and_iff_left hholds]
      cases s with
      | false =>
        rw [if_neg Bool.false_ne_true] at hsign ⊢
        omega
      | true =>
        rw [if_pos rfl] at hsign ⊢
        omega
    · have hne := whole_ne_clamp hm hwhole hi
      constructor
      · intro heq
        rw [← heq] at hne
        cases s <;> simp at hne
      · rintro ⟨-, hholds⟩
        exact absurd (hholds i hd) hi

end Value

/-! ### Ids and references -/

namespace SheetRef

variable {k : IntKind} {target : String} {v : Value} {id : (IdType.int k).El} {r : SheetRef}

theorem key_ofKey (key : String) : (ofKey key).key = Text.trim key := rfl

/-- A cell that is read as an integer id and as a reference to something is a reference to that id
exactly if it spells the number as it is printed. Whole numbers below `2 ^ 54` are. -/
theorem key_eq_key_id_iff (hid : (IdType.int k).read v = .ok id) (hr : read target v = .ok r)
    (hne : r.isEmpty = false) :
    (r.key = (IdType.int k).key id ↔ v.Canonical) ∧
      ∀ d i, v = .float d → d.wholePart? = some i → i.natAbs < 2 ^ 54 → v.Canonical := by
  refine ⟨?_, fun d i hv hd hi => hv ▸ Value.canonical_float_of_lt hd hi⟩
  have hwide := IdType.read_int_eq_ok_iff.mp hid
  change r.key = intText id.val ↔ _
  generalize id.val = wide at *
  clear hid
  cases v with
  | null =>
    cases hr
    cases hne
  | bool b =>
    -- a truth value is read as a number, but it is not spelled as one
    have hdiffer : ∀ b : Bool, Text.trim (Value.boolText b) ≠ intText (if b then 1 else 0) := by
      decide +kernel
    rw [← Except.ok.inj hr, ← Except.ok.inj hwide, key_ofKey]
    exact ⟨fun heq => absurd heq (hdiffer b), False.elim⟩
  | int i =>
    rw [← Except.ok.inj hr, ← Except.ok.inj hwide, key_ofKey, Text.trim_intText]
    exact ⟨fun _ => trivial, fun _ => rfl⟩
  | float d =>
    rw [← Except.ok.inj hr]
    rw [ScalarType.readWide] at hwide
    split at hwide
    · next i hd =>
      rw [← Except.ok.inj hwide, ← Value.floatKey_eq_iff hd, key_ofKey, Value.trim_floatKey hd]
    · cases hwide
  | text s =>
    have hkey : r.key = Text.trim s := by
      rw [← Except.ok.inj hr, key_ofKey, Text.trim_trim]
    rw [hkey]
    rw [ScalarType.readWide] at hwide
    split at hwide
    · next hblank =>
      -- a blank text is a reference to nothing
      rw [isEmpty, hkey, Text.trim_of_isBlank hblank] at hne
      cases hne
    · split at hwide
      · next x hx =>
        obtain ⟨i, hi, hx⟩ := Option.bind_eq_some_iff.mp hx
        rw [← Except.ok.inj hwide, IntKind.ofInt?_eq_some_iff.mp hx, Value.Canonical,
          ← eq_intText_iff hi, ← String.toList_inj, Text.toList_trim]
      · cases hwide
  | list items => cases hr
  | map entries => cases hr
  | record cells => cases hr
  | sheetRef t => cases hwide
  | assetRef a => cases hr

/-- White space around the digits makes no difference. -/
theorem key_eq_key_id_padded : ∃ id r, (IdType.int .u32).read (.text " 42 ") = .ok id ∧
    read "Quest" (.text " 42 ") = .ok r ∧ r.isEmpty = false ∧
    r.key = (IdType.int .u32).key id := by
  have hid : (IdType.int .u32).read (.text " 42 ") = .ok (⟨42, by decide⟩ : IntKind.u32.El) :=
    IdType.read_int_eq_ok_iff.mpr rfl
  have hne : (ofKey (Text.trim " 42 ")).isEmpty = false := by decide
  have hcanonical : (Value.text " 42 ").Canonical := by
    change Number.Canonical _
    decide
  have hread : read "Quest" (.text " 42 ") = .ok (ofKey (Text.trim " 42 ")) := rfl
  exact ⟨_, _, hid, hread, hne, (key_eq_key_id_iff (k := .u32) hid hread hne).1.mpr hcanonical⟩

/-- Zeros in front of the digits are kept in the reference and not in the id. The digits of `2 ^ 60`
in the reference are rounded, and those of the id are not. A number beyond 128 bits is cut off in
the id and not in the reference. -/
theorem exists_key_ne_key_id :
    (∃ id r, (IdType.int .u32).read (.text "007") = .ok id ∧
      read "Quest" (.text "007") = .ok r ∧ r.isEmpty = false ∧
      r.key = "007" ∧ (IdType.int .u32).key id = "7") ∧
    (∃ id r, (IdType.int .i64).read (.float (Binary.ofInt .double (2 ^ 60))) = .ok id ∧
      read "Quest" (.float (Binary.ofInt .double (2 ^ 60))) = .ok r ∧ r.isEmpty = false ∧
      r.key = "1152921504606847000" ∧ (IdType.int .i64).key id = "1152921504606846976") ∧
    ∃ id r, (IdType.int .i128).read (.float (Binary.ofInt .double (10 ^ 39))) = .ok id ∧
      read "Quest" (.float (Binary.ofInt .double (10 ^ 39))) = .ok r ∧ r.isEmpty = false ∧
      r.key = "1000000000000000000000000000000000000000" ∧
      (IdType.int .i128).key id = "170141183460469231731687303715884105727" := by
  have hdigits : (IdType.int .u32).read (.text "007") = .ok (⟨7, by decide⟩ : IntKind.u32.El) :=
    IdType.read_int_eq_ok_iff.mpr rfl
  -- a float is read exactly, but as a key it is written with the fewest digits that tell it
  have hlarge : (IdType.int .i64).read (.float (Binary.ofInt .double (2 ^ 60))) =
      .ok (⟨2 ^ 60, by decide⟩ : IntKind.i64.El) := by
    refine IdType.read_int_eq_ok_iff.mpr ?_
    have hwhole : (Binary.ofInt .double (2 ^ 60)).wholePart? = some (2 ^ 60) := by decide
    exact ScalarType.readWide_float _ hwhole
  have hbeyond : (IdType.int .i128).read (.float (Binary.ofInt .double (10 ^ 39))) =
      .ok (⟨IntKind.i128.hi, by decide⟩ : IntKind.i128.El) := by
    refine IdType.read_int_eq_ok_iff.mpr ?_
    have hwhole : (Binary.ofInt .double (10 ^ 39)).wholePart?.map IntKind.i128.clamp =
        some IntKind.i128.hi := by decide +kernel
    obtain ⟨i, hi, hclamp⟩ := Option.map_eq_some_iff.mp hwhole
    exact (ScalarType.readWide_float _ hi).trans (congrArg Except.ok hclamp)
  refine ⟨⟨_, _, hdigits, rfl, ?_, ?_, ?_⟩, ⟨_, _, hlarge, rfl, ?_, ?_, ?_⟩,
    ⟨_, _, hbeyond, rfl, ?_, ?_, ?_⟩⟩
  all_goals decide +kernel

end SheetRef

end TypedSheets
