import TypedSheets.Cell.Type
import TypedSheets.Property.Node

/-!
# Parts of a value

* `Lens` — a part of a value, seen and replaced
* `Lens.Lawful` — what is written is seen, and nothing else changes
-/

namespace TypedSheets

/-- A part of a value: how it is seen and how it is replaced. -/
structure Lens (ρ α : Type) where
  get : ρ → α
  set : ρ → α → ρ

namespace Lens

variable {ρ α β : Type}

/-- The whole value. -/
def whole : Lens ρ ρ := ⟨id, fun _ x => x⟩

/-- The first part of a pair. -/
def first (l : Lens ρ (α × β)) : Lens ρ α :=
  ⟨fun row => (l.get row).1, fun row x => l.set row (x, (l.get row).2)⟩

/-- The second part of a pair. -/
def second (l : Lens ρ (α × β)) : Lens ρ β :=
  ⟨fun row => (l.get row).2, fun row y => l.set row ((l.get row).1, y)⟩

/-- The rows in a holder. -/
def elements (form : RowsForm) (l : Lens ρ (form.Holder α)) : Elements ρ α :=
  ⟨fun row => form.items (l.get row), fun row i x => l.set row (form.set (l.get row) i x)⟩

/-- What is written is seen; writing what is seen changes nothing; the last write counts. -/
structure Lawful (l : Lens ρ α) : Prop where
  get_set : ∀ row x, l.get (l.set row x) = x
  set_get : ∀ row, l.set row (l.get row) = row
  set_set : ∀ row x y, l.set (l.set row x) y = l.set row y

theorem whole_lawful : (whole : Lens ρ ρ).Lawful :=
  ⟨fun _ _ => rfl, fun _ => rfl, fun _ _ _ => rfl⟩

theorem Lawful.first {l : Lens ρ (α × β)} (h : l.Lawful) : l.first.Lawful where
  get_set row x := by simp [Lens.first, h.get_set]
  set_get row := by simp [Lens.first, h.set_get]
  set_set row x y := by simp [Lens.first, h.get_set, h.set_set]

theorem Lawful.second {l : Lens ρ (α × β)} (h : l.Lawful) : l.second.Lawful where
  get_set row x := by simp [Lens.second, h.get_set]
  set_get row := by simp [Lens.second, h.set_get]
  set_set row x y := by simp [Lens.second, h.get_set, h.set_set]

end Lens

end TypedSheets
