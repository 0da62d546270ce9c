import TypedSheets.Proofs.Code.Reading

/-!
# Shapes read again

The written form of a shape is read again where a declared type is stored as text. What it is read
to follows from the shape: a tuple of one type is written as that type in parentheses, and read as
the type; a path that starts with `try` has lost the colons in front, without which it is no type;
all else comes back.

## Main definitions

* `TypeShape.isPlain`, `TypeShape.lengths` — shapes of known forms, and the lengths of their arrays
* `TypeShape.reread?` — what the written form is read to
* `TypeShape.isLasting` — no tuple of one type, and no path that starts with `try`

## Main results

* `TypeShape.reread?_eq_self_iff` — the shapes that come back the same
-/

namespace TypedSheets

namespace TypeShape

open Code

mutual

/-- Whether a shape is made only of paths, arrays, slices, references and tuples. -/
def isPlain : TypeShape → Bool
  | .path _ args => isPlainEach args
  | .array elem _ => elem.isPlain
  | .slice elem => elem.isPlain
  | .reference _ inner => inner.isPlain
  | .tuple elems => isPlainEach elems
  | .other _ => false

/-- Whether all shapes are. -/
def isPlainEach : List TypeShape → Bool
  | [] => true
  | s :: rest => s.isPlain && isPlainEach rest

end

mutual

/-- The lengths of the arrays in a shape. -/
def lengths : TypeShape → List String
  | .path _ args => lengthsEach args
  | .array elem length => length :: elem.lengths
  | .slice elem => elem.lengths
  | .reference _ inner => inner.lengths
  | .tuple elems => lengthsEach elems
  | .other _ => []

/-- The lengths of the arrays in shapes. -/
def lengthsEach : List TypeShape → List String
  | [] => []
  | s :: rest => s.lengths ++ lengthsEach rest

end

mutual

/-- What the written form of a shape is read to: a tuple of one type to that type. No type starts
with the word `try`. -/
def reread? : TypeShape → Option TypeShape
  | .path segments args =>
    if segments.head? = some "try" then none else (rereadEach? args).map (.path segments)
  | .array elem length => elem.reread?.map (.array · length)
  | .slice elem => elem.reread?.map .slice
  | .reference isMutable inner => inner.reread?.map (.reference isMutable)
  | .tuple elems => (rereadEach? elems).map Rules.parenShape
  | .other _ => none

/-- What the written forms of shapes are read to. -/
def rereadEach? : List TypeShape → Option (List TypeShape)
  | [] => some []
  | s :: rest => s.reread?.bind fun t => (rereadEach? rest).map (t :: ·)

end

mutual

/-- Whether a shape holds neither a tuple of one type nor a path that starts with `try`. -/
def isLasting : TypeShape → Bool
  | .path segments args => segments.head? != some "try" && isLastingEach args
  | .array elem _ => elem.isLasting
  | .slice elem => elem.isLasting
  | .reference _ inner => inner.isLasting
  | .tuple elems => elems.length != 1 && isLastingEach elems
  | .other _ => false

/-- Whether all shapes are such. -/
def isLastingEach : List TypeShape → Bool
  | [] => true
  | s :: rest => s.isLasting && isLastingEach rest

end

theorem isPlainEach_iff {shapes : List TypeShape} :
    isPlainEach shapes = true ↔ ∀ s ∈ shapes, s.isPlain = true := by
  induction shapes with
  | nil => simp [isPlainEach]
  | cons s rest ih => simp [isPlainEach, ih]

theorem mem_lengthsEach {shapes : List TypeShape} {l : String} :
    l ∈ lengthsEach shapes ↔ ∃ s ∈ shapes, l ∈ s.lengths := by
  induction shapes with
  | nil => simp [lengthsEach]
  | cons s rest ih => simp [lengthsEach, ih]

theorem rereadEach?_eq_mapM (shapes : List TypeShape) :
    rereadEach? shapes = shapes.mapM reread? := by
  induction shapes with
  | nil => rfl
  | cons s rest ih =>
    rw [rereadEach?, List.mapM_cons, ih]
    cases s.reread? <;> cases rest.mapM reread? <;> rfl

/-! ### What is kept -/

mutual

theorem reread?_of_isLasting {s : TypeShape} (h : s.isLasting = true) : s.reread? = some s := by
  cases s with
  | path segments args =>
    rw [isLasting, Bool.and_eq_true, bne_iff_ne] at h
    rw [reread?, if_neg h.1, rereadEach?_of_isLastingEach h.2, Option.map_some]
  | array elem length => rw [reread?, reread?_of_isLasting (s := elem) h, Option.map_some]
  | slice elem => rw [reread?, reread?_of_isLasting (s := elem) h, Option.map_some]
  | reference isMutable inner =>
    rw [reread?, reread?_of_isLasting (s := inner) h, Option.map_some]
  | tuple elems =>
    rw [isLasting, Bool.and_eq_true, bne_iff_ne] at h
    rw [reread?, rereadEach?_of_isLastingEach h.2, Option.map_some]
    match elems, h.1 with
    | [], _ => rfl
    | _ :: _ :: _, _ => rfl
  | other text => cases h

theorem rereadEach?_of_isLastingEach {shapes : List TypeShape} (h : isLastingEach shapes = true) :
    rereadEach? shapes = some shapes := by
  cases shapes with
  | nil => rfl
  | cons s rest =>
    rw [isLastingEach, Bool.and_eq_true] at h
    rw [rereadEach?, reread?_of_isLasting h.1, rereadEach?_of_isLastingEach h.2]
    rfl

end

mutual

/-- What a written form is read to comes back the same from then on. -/
theorem isLasting_of_reread? {s t : TypeShape} (h : s.reread? = some t) : t.isLasting = true := by
  cases s with
  | path segments args =>
    rw [reread?] at h
    split at h
    · cases h
    · next hhead =>
      obtain ⟨types, htypes, rfl⟩ := Option.map_eq_some_iff.mp h
      rw [isLasting, Bool.and_eq_true, bne_iff_ne]
      exact ⟨hhead, isLastingEach_of_rereadEach? htypes⟩
  | array elem length =>
    rw [reread?] at h
    obtain ⟨e, he, rfl⟩ := Option.map_eq_some_iff.mp h
    rw [isLasting]
    exact isLasting_of_reread? he
  | slice elem =>
    rw [reread?] at h
    obtain ⟨e, he, rfl⟩ := Option.map_eq_some_iff.mp h
    rw [isLasting]
    exact isLasting_of_reread? he
  | reference isMutable inner =>
    rw [reread?] at h
    obtain ⟨e, he, rfl⟩ := Option.map_eq_some_iff.mp h
    rw [isLasting]
    exact isLasting_of_reread? he
  -- a tuple of one type is read as that type
  | tuple elems =>
    rw [reread?] at h
    obtain ⟨es, hes, rfl⟩ := Option.map_eq_some_iff.mp h
    have hall := isLastingEach_of_rereadEach? hes
    match es, hall with
    | [], _ => rfl
    | [e], hall => exact (Bool.and_eq_true_iff.mp hall).1
    | _ :: _ :: _, hall => exact hall
  | other text => cases h

theorem isLastingEach_of_rereadEach? {shapes types : List TypeShape}
    (h : rereadEach? shapes = some types) : isLastingEach types = true := by
  cases shapes with
  | nil => cases h; rfl
  | cons s rest =>
    rw [rereadEach?] at h
    obtain ⟨t, ht, h⟩ := Option.bind_eq_some_iff.mp h
    obtain ⟨ts, hts, rfl⟩ := Option.map_eq_some_iff.mp h
    rw [isLastingEach, isLasting_of_reread? ht, isLastingEach_of_rereadEach? hts, Bool.and_true]

end

theorem reread?_eq_self_iff {s : TypeShape} : s.reread? = some s ↔ s.isLasting = true :=
  ⟨isLasting_of_reread?, reread?_of_isLasting⟩

end TypeShape

end TypedSheets
