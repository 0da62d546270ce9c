import TypedSheets.Number.Digits

/-!
# Fixed-width integers

The integer types of cells and ids. A value is an integer together with the proof that it lies in
the range of its kind, so every statement about values is one about integers.

* `IntKind` — the twelve kinds
* `IntKind.lo`, `IntKind.hi` — their ranges
* `IntKind.El` — their values
* `IntKind.ofInt?` — the value of a kind, if the integer lies in the range
-/

namespace TypedSheets

/-- A signed or unsigned integer type; the sizes of a machine word are those of 64 bits. -/
inductive IntKind where
  | i8 | i16 | i32 | i64 | i128 | isize
  | u8 | u16 | u32 | u64 | u128 | usize
  deriving DecidableEq, Repr

namespace IntKind

/-- The kind's name. -/
def name : IntKind → String
  | .i8 => "i8" | .i16 => "i16" | .i32 => "i32" | .i64 => "i64" | .i128 => "i128"
  | .isize => "isize"
  | .u8 => "u8" | .u16 => "u16" | .u32 => "u32" | .u64 => "u64" | .u128 => "u128"
  | .usize => "usize"

/-- The kinds, signed ones first. -/
def all : List IntKind :=
  [.i8, .i16, .i32, .i64, .i128, .isize, .u8, .u16, .u32, .u64, .u128, .usize]

/-- The kind of that name. -/
def ofName? (name : String) : Option IntKind := all.find? (fun k => k.name == name)

/-- Whether the kind has negative values. -/
def signed : IntKind → Bool
  | .i8 | .i16 | .i32 | .i64 | .i128 | .isize => true
  | .u8 | .u16 | .u32 | .u64 | .u128 | .usize => false

/-- The number of bits. -/
def bits : IntKind → Nat
  | .i8 | .u8 => 8
  | .i16 | .u16 => 16
  | .i32 | .u32 => 32
  | .i64 | .u64 | .isize | .usize => 64
  | .i128 | .u128 => 128

/-- The least value. -/
def lo (k : IntKind) : Int := if k.signed then -(1 <<< (k.bits - 1) : Nat) else 0

/-- The greatest value. -/
def hi (k : IntKind) : Int :=
  if k.signed then (1 <<< (k.bits - 1) : Nat) - 1 else (1 <<< k.bits : Nat) - 1

/-- Whether an integer lies in the range of the kind. -/
def Holds (k : IntKind) (i : Int) : Prop := k.lo ≤ i ∧ i ≤ k.hi

instance (k : IntKind) (i : Int) : Decidable (k.Holds i) :=
  inferInstanceAs (Decidable (_ ∧ _))

/-- The values of a kind. -/
def El (k : IntKind) : Type := { i : Int // k.Holds i }

instance (k : IntKind) : DecidableEq k.El := inferInstanceAs (DecidableEq (Subtype _))

/-- The value of a kind, if the integer lies in the range. -/
def ofInt? (k : IntKind) (i : Int) : Option k.El :=
  if h : k.Holds i then some ⟨i, h⟩ else none

theorem holds_zero (k : IntKind) : k.Holds 0 := by
  cases k <;> decide

/-- Zero lies in every range. -/
def zero (k : IntKind) : k.El := ⟨0, k.holds_zero⟩

/-- The integer of the kind nearest to `i`. -/
def clamp (k : IntKind) (i : Int) : Int := max k.lo (min k.hi i)

@[simp] theorem ofInt?_val (k : IntKind) (x : k.El) : k.ofInt? x.val = some x := by
  have h : k.Holds x.val := x.property
  simp only [ofInt?, h, ↓reduceDIte]
  rfl

theorem ofInt?_eq_some_iff {k : IntKind} {i : Int} {x : k.El} :
    k.ofInt? i = some x ↔ x.val = i := by
  constructor
  · intro h
    unfold ofInt? at h
    split at h
    · cases h
      rfl
    · cases h
  · rintro rfl
    exact k.ofInt?_val x

theorem ofInt?_eq_none_iff {k : IntKind} {i : Int} : k.ofInt? i = none ↔ ¬ k.Holds i := by
  unfold ofInt?
  split <;> simp_all

end IntKind

/-- A 64 bit signed integer. -/
abbrev Int64El : Type := IntKind.i64.El

end TypedSheets
