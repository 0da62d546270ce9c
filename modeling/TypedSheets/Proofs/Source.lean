import TypedSheets.Proofs.Cell.Origin
import TypedSheets.Proofs.Sorted
import TypedSheets.Source

/-!
# Where raw rows come from

The raw rows of files, and of sheets that are made of JSON, are rows of JSON objects. A source that
gives only such rows gives rows without references: those are put in by reading and linking.

## Main definitions

* `SheetSource.FromJson` — every raw row of a source is made of JSON
* `SheetSource.Unresolved` — no reference in the raw rows of a source is resolved

## Main results

* `MemorySource.fromJson_source`, `DirectorySource.fromJson_source` — the sources that read JSON
-/

namespace TypedSheets

/-- Every raw row that a source gives is made of JSON. -/
def SheetSource.FromJson (source : SheetSource) : Prop :=
  ∀ sheet raws, source sheet = .ok (some raws) →
    ∀ raw ∈ raws, ∃ json, RawRow.ofJson json = .ok raw

/-- No reference in the raw rows that a source gives is resolved. -/
def SheetSource.Unresolved (source : SheetSource) : Prop :=
  ∀ sheet raws, source sheet = .ok (some raws) → ∀ raw ∈ raws, ∀ column,
    (RawRow.cell raw column).EveryRef TargetRef.IsUnresolved AssetRef.IsUnresolved

/-- Rows that are made of JSON hold no references at all. -/
theorem SheetSource.FromJson.unresolved {source : SheetSource} (h : source.FromJson) :
    source.Unresolved := by
  intro sheet raws hraws raw hraw column
  obtain ⟨json, hjson⟩ := h sheet raws hraws raw hraw
  exact Value.everyRef_cell_ofJson hjson column

theorem exists_of_mem_rowsOfItems {sheet : String} {items : List Json} {raws : List RawRow}
    (h : rowsOfItems sheet items = .ok raws) :
    ∀ raw ∈ raws, ∃ json, RawRow.ofJson json = .ok raw := by
  induction items generalizing raws with
  | nil =>
    cases h
    exact fun raw hraw => absurd hraw List.not_mem_nil
  | cons item rest ih =>
    rw [rowsOfItems] at h
    split at h
    · cases h
    · next row hrow =>
      split at h
      · cases h
      · next rows hrows =>
        cases h
        exact List.forall_mem_cons.mpr ⟨⟨item, hrow⟩, ih hrows⟩

/-- The raw rows of a JSON array are made of its items. -/
theorem exists_of_mem_rowsOfJson {sheet : String} {json : Json} {raws : List RawRow}
    (h : rowsOfJson sheet json = .ok raws) :
    ∀ raw ∈ raws, ∃ json, RawRow.ofJson json = .ok raw := by
  rw [rowsOfJson.eq_def] at h
  split at h
  · exact exists_of_mem_rowsOfItems h
  · cases h

/-- A source that gives the rows of one JSON array for every sheet. -/
theorem SheetSource.fromJson_rowsOfJson (json : Json) :
    SheetSource.FromJson fun sheet => (rowsOfJson sheet json).map some := by
  intro sheet raws h
  cases hrows : rowsOfJson sheet json with
  | error e => simp [hrows, Except.map] at h
  | ok rows =>
    simp only [hrows, Except.map, Except.ok.injEq, Option.some.injEq] at h
    exact h ▸ exists_of_mem_rowsOfJson hrows

namespace MemorySource

theorem exists_of_ofMembers {members : List (String × Json)} {m : MemorySource}
    (h : ofMembers members = .ok m) {raws : List RawRow} (hraws : raws ∈ m.map Prod.snd) :
    ∀ raw ∈ raws, ∃ json, RawRow.ofJson json = .ok raw := by
  induction members generalizing m with
  | nil =>
    cases h
    exact absurd hraws List.not_mem_nil
  | cons first rest ih =>
    rw [ofMembers] at h
    split at h
    · cases h
    · next rows hrows =>
      split at h
      · cases h
      · next source hsource =>
        cases h
        obtain ⟨e, he, rfl⟩ := List.mem_map.mp hraws
        rcases Entries.snd_mem_of_mem_insert he with heq | hmem
        · exact heq ▸ exists_of_mem_rowsOfJson hrows
        · exact ih hsource hmem

/-- Sheets that are made of a JSON object are made of JSON. -/
theorem fromJson_source {json : Json} {m : MemorySource} (h : ofJson json = .ok m) :
    SheetSource.FromJson m.source := by
  intro sheet raws hraws
  rw [ofJson.eq_def] at h
  split at h
  · obtain ⟨name, hmem⟩ := Entries.exists_mem_of_get? (Except.ok.inj hraws)
    exact exists_of_ofMembers h (List.mem_map_of_mem hmem)
  · cases h

end MemorySource

/-- Sheets that are read from files are made of JSON. -/
theorem DirectorySource.fromJson_source (d : DirectorySource) (files : FileNode) :
    (d.source files).FromJson := by
  intro sheet raws h
  rw [source] at h
  split at h
  · cases h
  · split at h
    · cases h
    · split at h
      · cases h
      · rw [rowsOfText] at h
        split at h
        · cases h
        · next json _ => exact SheetSource.fromJson_rowsOfJson json sheet raws h

end TypedSheets
