import TypedSheets.Proofs.Link.Linker

/-!
# What linking a value comes to

Linking goes through a value from left to right, a key of a map before its value. However the value
is nested, this is the same as linking the references in it one after the other: each is replaced by
what is looked up for it, one that is to something and is not found is reported, and what changes is
what some reference changes. Since only references change, and what is looked up for them does not
depend on what they were resolved to, linking again finds and reports the same.

## Main definitions

* `Reference` — a reference to a row or to an asset
* `Value.references` — the references in a value, from left to right
* `Linker.linkReferences` — links references one after the other
* `Linker.misses` — a reference is to something and is not found

## Main results

* `Linker.link_references` — linking a value is linking its references
* `Linker.changed_linkReferences` — something changes exactly if some reference does
* `Linker.refMap_comp_refMap` — what a linker makes of references it leaves
* `Linker.link_outcome` — the outcome of linking a value
-/

namespace TypedSheets

/-! ### References in values -/

/-- A reference to a row or to an asset. -/
inductive Reference where
  | row (r : TargetRef)
  | asset (a : AssetRef)
  deriving DecidableEq

namespace Reference

/-- Whether the reference is to nothing. -/
def isEmpty : Reference → Bool
  | .row r => r.ref.isEmpty
  | .asset a => a.isEmpty

/-- The error for a reference that is not found. -/
def error (site : ReferenceSite) : Reference → ReferenceError
  | .row r => .notFound site r.target r.ref.key
  | .asset a => .assetMissing site a.text

end Reference

/-- What becomes of a reference. -/
def RefMap.reference (f : RefMap) : Reference → Reference
  | .row r => .row (f.targetRef r)
  | .asset a => .asset (f.asset a)

namespace Value

mutual

/-- The references in a value, from left to right. -/
def references : Value → List Reference
  | .sheetRef r => [.row r]
  | .assetRef a => [.asset a]
  | .list items => referencesItems items
  | .map entries => referencesEntries entries
  | .record cells => referencesCells cells
  | .null => []
  | .bool _ => []
  | .int _ => []
  | .float _ => []
  | .text _ => []

/-- The references in the items of a list. -/
def referencesItems : List Value → List Reference
  | [] => []
  | v :: rest => references v ++ referencesItems rest

/-- The references in the entries of a map, those of a key before those of its value. -/
def referencesEntries : List (Value × Value) → List Reference
  | [] => []
  | (k, v) :: rest => references k ++ references v ++ referencesEntries rest

/-- The references in the cells of a row. -/
def referencesCells : List (String × Value) → List Reference
  | [] => []
  | (_, v) :: rest => references v ++ referencesCells rest

end

end Value

namespace Linker

variable {l : Linker} {site : ReferenceSite}

/-! ### Linking references -/

/-- Links a reference. -/
def linkReference (l : Linker) (site : ReferenceSite) : Reference → Linked Reference
  | .row r => (l.linkRow site r).map .row
  | .asset a => (l.linkAsset site a).map .asset

/-- Links references one after the other. -/
def linkReferences (l : Linker) (site : ReferenceSite) : List Reference → Linked (List Reference)
  | [] => .same []
  | r :: rest => (l.linkReference site r).both (· :: ·) (l.linkReferences site rest)

/-- A linker looks up something for the reference. -/
def finds (l : Linker) : Reference → Bool
  | .row r => (l.row r.target r.ref.key).isSome
  | .asset a => (l.asset a.path a.sub).isSome

/-- The reference is to something, and nothing is looked up for it. -/
def misses (l : Linker) (r : Reference) : Bool := !r.isEmpty && !l.finds r

theorem linkReferences_singleton (r : Reference) :
    l.linkReferences site [r] = (l.linkReference site r).map fun r => [r] := by
  rw [linkReferences, linkReferences, Linked.both, Linked.map]
  simp [Linked.same]

theorem linkReferences_append (rs rs' : List Reference) :
    l.linkReferences site (rs ++ rs') =
      (l.linkReferences site rs).both (· ++ ·) (l.linkReferences site rs') := by
  induction rs with
  | nil => simp [linkReferences, Linked.both, Linked.same]
  | cons r rest ih =>
    rw [List.cons_append, linkReferences, linkReferences, ih]
    simp [Linked.both, Bool.or_assoc]

mutual

/-- Linking a value is linking its references one after the other. -/
theorem link_references : (v : Value) →
    (l.link site v).map Value.references = l.linkReferences site v.references
  | .sheetRef r => (linkReferences_singleton (.row r)).symm
  | .assetRef a => (linkReferences_singleton (.asset a)).symm
  | .list items => linkItems_references items
  | .map entries => linkEntries_references entries
  | .record cells => linkCells_references cells
  | .null => rfl
  | .bool _ => rfl
  | .int _ => rfl
  | .float _ => rfl
  | .text _ => rfl

theorem linkItems_references : (vs : List Value) →
    (l.linkItems site vs).map Value.referencesItems =
      l.linkReferences site (Value.referencesItems vs)
  | [] => rfl
  | v :: rest => by
    rw [Value.referencesItems, linkReferences_append, ← link_references v,
      ← linkItems_references rest]
    rfl

theorem linkEntries_references : (es : List (Value × Value)) →
    (l.linkEntries site es).map Value.referencesEntries =
      l.linkReferences site (Value.referencesEntries es)
  | [] => rfl
  | (k, v) :: rest => by
    rw [Value.referencesEntries, linkReferences_append, linkReferences_append,
      ← link_references k, ← link_references v, ← linkEntries_references rest]
    rfl

theorem linkCells_references : (cells : List (String × Value)) →
    (l.linkCells site cells).map Value.referencesCells =
      l.linkReferences site (Value.referencesCells cells)
  | [] => rfl
  | (_, v) :: rest => by
    rw [Value.referencesCells, linkReferences_append, ← link_references v,
      ← linkCells_references rest]
    rfl

end

/-! ### One reference -/

theorem value_linkReference (r : Reference) :
    (l.linkReference site r).value = l.refMap.reference r := by
  cases r with
  | row r => rfl
  | asset a => exact congrArg Reference.asset (linkAsset_value a)

theorem errors_linkReference (r : Reference) :
    (l.linkReference site r).errors = if l.misses r then [r.error site] else [] := by
  cases r with
  | row r =>
    simp only [linkReference, Linked.map, linkRow, misses, Reference.isEmpty, finds]
    by_cases hempty : r.ref.isEmpty
    · simp [hempty]
    · by_cases hfound : (l.row r.target r.ref.key).isSome <;> simp [hempty, hfound, Reference.error]
  | asset a =>
    simp only [linkReference, Linked.map, linkAsset, misses, Reference.isEmpty, finds]
    by_cases hempty : a.isEmpty
    · simp [hempty, Linked.same]
    · by_cases hfound : (l.asset a.path a.sub).isSome <;> simp [hempty, hfound, Reference.error]

/-- A reference that is linked to what it is resolved to does not change. -/
theorem changed_linkReference (r : Reference) :
    (l.linkReference site r).changed = false ↔ l.refMap.reference r = r := by
  cases r with
  | row r =>
    rw [RefMap.reference, Reference.row.injEq]
    have hchanged : (l.linkReference site (.row r)).changed = (l.linkRow site r).changed := rfl
    rw [hchanged]
    refine ⟨linkRow_changed_eq_false, fun h => ?_⟩
    have hresolved : (l.refMap.targetRef r).ref.resolved = r.ref.resolved := by rw [h]
    exact decide_eq_false (not_not_intro hresolved.symm)
  | asset a =>
    rw [RefMap.reference, Reference.asset.injEq]
    have hchanged : (l.linkReference site (.asset a)).changed = (l.linkAsset site a).changed := rfl
    rw [hchanged]
    refine ⟨linkAsset_changed_eq_false, fun h => ?_⟩
    have hlinked : l.linkedAsset a = a := h
    rw [linkAsset]
    split
    · rfl
    · next hpath =>
      rw [linkedAsset, if_neg hpath] at hlinked
      exact decide_eq_false (not_not_intro (congrArg AssetRef.handle hlinked).symm)

/-! ### All references -/

theorem value_linkReferences (rs : List Reference) :
    (l.linkReferences site rs).value = rs.map l.refMap.reference := by
  induction rs with
  | nil => rfl
  | cons r rest ih =>
    have hcons : (l.linkReferences site (r :: rest)).value =
        (l.linkReference site r).value :: (l.linkReferences site rest).value := rfl
    rw [hcons, ih, value_linkReference, List.map_cons]

/-- There is an error for each reference that is missed, in order, and no other. -/
theorem errors_linkReferences (rs : List Reference) :
    (l.linkReferences site rs).errors = (rs.filter l.misses).map (Reference.error site) := by
  induction rs with
  | nil => rfl
  | cons r rest ih =>
    have hcons : (l.linkReferences site (r :: rest)).errors =
        (l.linkReference site r).errors ++ (l.linkReferences site rest).errors := rfl
    rw [hcons, ih, errors_linkReference, List.filter_cons]
    cases l.misses r <;> rfl

/-- Something changes exactly if some reference does. -/
theorem changed_linkReferences (rs : List Reference) :
    (l.linkReferences site rs).changed = false ↔ ∀ r ∈ rs, l.refMap.reference r = r := by
  induction rs with
  | nil => exact iff_of_true rfl fun _ h => absurd h List.not_mem_nil
  | cons r rest ih =>
    have hcons : (l.linkReferences site (r :: rest)).changed =
        ((l.linkReference site r).changed || (l.linkReferences site rest).changed) := rfl
    rw [hcons, Bool.or_eq_false_iff, changed_linkReference, ih, List.forall_mem_cons]

/-! ### Values -/

/-- The references of a value that was linked are the linked references, in their places. -/
theorem references_link (v : Value) :
    (l.link site v).value.references = v.references.map l.refMap.reference := by
  have hlinked : (l.link site v).value.references =
      (l.linkReferences site v.references).value := by
    rw [← link_references]
    rfl
  rw [hlinked, value_linkReferences]

theorem errors_link (v : Value) :
    (l.link site v).errors = (v.references.filter l.misses).map (Reference.error site) := by
  rw [← errors_linkReferences, ← link_references]
  rfl

/-- Linking says that nothing changed exactly if nothing did. -/
theorem changed_link (v : Value) :
    (l.link site v).changed = false ↔ (l.link site v).value = v := by
  refine ⟨fun h => (link_value v).trans (link_changed_eq_false v h), fun h => ?_⟩
  -- a value that stays as it is keeps its references, so none of them has changed
  have hreferences : v.references.map l.refMap.reference = v.references.map id := by
    have hlinked : (l.link site v).value.references = _ := references_link v
    rw [← hlinked, h, List.map_id]
  have hchanged : (l.link site v).changed = (l.linkReferences site v.references).changed := by
    rw [← link_references]
    rfl
  rw [hchanged, changed_linkReferences]
  exact List.map_inj_left.mp hreferences

/-! ### Linking again -/

/-- What a linker makes of references it leaves. -/
theorem refMap_comp_refMap (l : Linker) : l.refMap.comp l.refMap = l.refMap := by
  have hasset : ∀ a, l.linkedAsset (l.linkedAsset a) = l.linkedAsset a := by
    intro a
    by_cases hempty : a.isEmpty
    · simp only [linkedAsset, if_pos hempty]
    · have hnext : ¬ (l.linkedAsset a).isEmpty = true := by
        rwa [linkedAsset, if_neg hempty]
      rw [linkedAsset, if_neg hnext, linkedAsset, if_neg hempty]
  rw [RefMap.comp, refMap]
  exact congrArg (RefMap.mk l.linkedRef) (funext hasset)

/-- What a reference is resolved to makes no difference to whether it is missed. -/
theorem misses_reference (r : Reference) : l.misses (l.refMap.reference r) = l.misses r := by
  cases r with
  | row r => rfl
  | asset a =>
    change l.misses (.asset (l.linkedAsset a)) = _
    rw [linkedAsset]
    split <;> rfl

theorem error_reference (r : Reference) :
    (l.refMap.reference r).error site = r.error site := by
  cases r with
  | row r => rfl
  | asset a =>
    change Reference.error site (.asset (l.linkedAsset a)) = _
    rw [linkedAsset]
    split <;> rfl

/-- Linking a value replaces the references in it and nothing else. A reference to a row that is to
something is resolved to what is looked up for its key, and one to nothing is not resolved any more;
a reference to an asset that is to something gets the handle that is found for it. So the references
of the outcome are the linked ones, in their places. It says that something changed exactly if the
outcome is another value. There is one error for each reference that is to something and for which
nothing is found, from left to right, a key of a map before its value. Linking the outcome again
leaves it, says that nothing changed, and reports the same errors. -/
theorem link_outcome (l : Linker) (site : ReferenceSite) (v : Value) :
    (l.link site v).value = v.mapRefs l.refMap ∧
      (l.link site v).value.references = v.references.map l.refMap.reference ∧
      ((l.link site v).changed = true ↔ (l.link site v).value ≠ v) ∧
      (l.link site v).errors = (v.references.filter l.misses).map (Reference.error site) ∧
      l.link site (l.link site v).value =
        ⟨(l.link site v).value, (l.link site v).errors, false⟩ := by
  refine ⟨link_value v, references_link v, ?_, errors_link v, ?_⟩
  · rw [Ne, ← changed_link, Bool.not_eq_false]
  · have hvalue : (l.link site (l.link site v).value).value = (l.link site v).value := by
      rw [link_value, link_value, Value.mapRefs_mapRefs, refMap_comp_refMap]
    -- errors depend on keys and paths only, and these stay
    have herrors : (l.link site (l.link site v).value).errors = (l.link site v).errors := by
      have hmisses : l.misses ∘ l.refMap.reference = l.misses := funext misses_reference
      have herror : Reference.error site ∘ l.refMap.reference = Reference.error site :=
        funext error_reference
      rw [errors_link, references_link, List.filter_map, hmisses, List.map_map, herror, errors_link]
    have hchanged := (changed_link _).mpr hvalue
    calc l.link site (l.link site v).value
        = ⟨(l.link site (l.link site v).value).value, (l.link site (l.link site v).value).errors,
            (l.link site (l.link site v).value).changed⟩ := rfl
      _ = ⟨(l.link site v).value, (l.link site v).errors, false⟩ := by
        rw [hvalue, herrors, hchanged]

/-- What a key of a map misses is reported before what its value does. -/
example (site : ReferenceSite) :
    (link ⟨fun _ _ => none, fun _ _ => none⟩ site (.map
      [(.sheetRef ⟨"Quest", ⟨"1", none⟩⟩, .assetRef ⟨"icons.png", some "sword", none⟩)])).errors =
      [.notFound site "Quest" "1", .assetMissing site "icons.png[sword]"] := by
  rfl

end Linker

end TypedSheets
