import TypedSheets.Link.Linker
import TypedSheets.Proofs.Link.References

/-!
# What a linker does

A linker replaces references in a value, wherever the value stands. Where it stands only shows in
the errors.

## Main definitions

* `Linker.refMap` — what a linker makes of references

## Main results

* `Linker.link_value` — a linker replaces references and nothing else
* `Linker.link_changed_eq_false` — it says that nothing changed only if nothing did
* `Linker.link_of_everyRef_false` — in a value without references there is nothing to link
-/

namespace TypedSheets

namespace Linker

/-- What a linker makes of a reference to a row. -/
def linkedRef (l : Linker) (target : String) (r : SheetRef) : SheetRef :=
  { r with resolved := if r.isEmpty then none else l.row target r.key }

/-- What a linker makes of a reference to an asset. -/
def linkedAsset (l : Linker) (a : AssetRef) : AssetRef :=
  if a.isEmpty then a else { a with handle := l.asset a.path a.sub }

/-- What a linker makes of references. -/
def refMap (l : Linker) : RefMap := ⟨l.linkedRef, l.linkedAsset⟩

variable {l : Linker} {site : ReferenceSite}

theorem linkRow_value (r : TargetRef) : (l.linkRow site r).value = l.refMap.targetRef r := rfl

theorem linkAsset_value (a : AssetRef) : (l.linkAsset site a).value = l.linkedAsset a := by
  rw [linkAsset, linkedAsset]
  split <;> rfl

theorem linkRow_changed_eq_false {r : TargetRef} (h : (l.linkRow site r).changed = false) :
    l.refMap.targetRef r = r := by
  have hsame : r.ref.resolved = if r.ref.isEmpty then none else l.row r.target r.ref.key := by
    simpa [linkRow] using h
  obtain ⟨target, key, resolved⟩ := r
  simp only [RefMap.targetRef, refMap, linkedRef, ← hsame]

theorem linkAsset_changed_eq_false {a : AssetRef} (h : (l.linkAsset site a).changed = false) :
    l.linkedAsset a = a := by
  rw [linkAsset] at h
  rw [linkedAsset]
  split at h
  · next hempty => rw [if_pos hempty]
  · next hempty =>
    have hsame : a.handle = l.asset a.path a.sub := by simpa using h
    rw [if_neg hempty, ← hsame]

mutual

/-- A linker replaces references and nothing else. -/
theorem link_value : (v : Value) → (l.link site v).value = v.mapRefs l.refMap
  | .sheetRef r => congrArg Value.sheetRef (linkRow_value r)
  | .assetRef a => congrArg Value.assetRef (linkAsset_value a)
  | .list items => congrArg Value.list (linkItems_value items)
  | .map entries => congrArg Value.map (linkEntries_value entries)
  | .record cells => congrArg Value.record (linkCells_value cells)
  | .null => rfl
  | .bool _ => rfl
  | .int _ => rfl
  | .float _ => rfl
  | .text _ => rfl

theorem linkItems_value : (vs : List Value) →
    (l.linkItems site vs).value = Value.mapRefsItems l.refMap vs
  | [] => rfl
  | v :: rest => congrArg₂ List.cons (link_value v) (linkItems_value rest)

theorem linkEntries_value : (es : List (Value × Value)) →
    (l.linkEntries site es).value = Value.mapRefsEntries l.refMap es
  | [] => rfl
  | (k, v) :: rest =>
    congrArg₂ List.cons (congrArg₂ Prod.mk (link_value k) (link_value v)) (linkEntries_value rest)

theorem linkCells_value : (cells : List (String × Value)) →
    (l.linkCells site cells).value = Value.mapRefsCells l.refMap cells
  | [] => rfl
  | (name, v) :: rest =>
    congrArg₂ List.cons (congrArg (Prod.mk name) (link_value v)) (linkCells_value rest)

end

section Congr

variable {l' : Linker} {site' : ReferenceSite} {R : TargetRef → Prop} {A : AssetRef → Prop}

mutual

/-- Something changes in a value exactly if something does for another linker, or at another place,
given that this is so for the references in it. -/
theorem link_changed_congr
    (hrow : ∀ r, R r → (l.linkRow site r).changed = (l'.linkRow site' r).changed)
    (hasset : ∀ a, A a → (l.linkAsset site a).changed = (l'.linkAsset site' a).changed) :
    (v : Value) → v.EveryRef R A → (l.link site v).changed = (l'.link site' v).changed
  | .sheetRef r, h => hrow r h
  | .assetRef a, h => hasset a h
  | .list items, h => linkItems_changed_congr hrow hasset items h
  | .map entries, h => linkEntries_changed_congr hrow hasset entries h
  | .record cells, h => linkCells_changed_congr hrow hasset cells h
  | .null, _ => rfl
  | .bool _, _ => rfl
  | .int _, _ => rfl
  | .float _, _ => rfl
  | .text _, _ => rfl

theorem linkItems_changed_congr
    (hrow : ∀ r, R r → (l.linkRow site r).changed = (l'.linkRow site' r).changed)
    (hasset : ∀ a, A a → (l.linkAsset site a).changed = (l'.linkAsset site' a).changed) :
    (vs : List Value) → Value.EveryRefItems R A vs →
    (l.linkItems site vs).changed = (l'.linkItems site' vs).changed
  | [], _ => rfl
  | v :: rest, h => congrArg₂ or (link_changed_congr hrow hasset v h.1)
    (linkItems_changed_congr hrow hasset rest h.2)

theorem linkEntries_changed_congr
    (hrow : ∀ r, R r → (l.linkRow site r).changed = (l'.linkRow site' r).changed)
    (hasset : ∀ a, A a → (l.linkAsset site a).changed = (l'.linkAsset site' a).changed) :
    (es : List (Value × Value)) → Value.EveryRefEntries R A es →
    (l.linkEntries site es).changed = (l'.linkEntries site' es).changed
  | [], _ => rfl
  | (k, v) :: rest, h => congrArg₂ or
    (congrArg₂ or (link_changed_congr hrow hasset k h.1.1) (link_changed_congr hrow hasset v h.1.2))
    (linkEntries_changed_congr hrow hasset rest h.2)

theorem linkCells_changed_congr
    (hrow : ∀ r, R r → (l.linkRow site r).changed = (l'.linkRow site' r).changed)
    (hasset : ∀ a, A a → (l.linkAsset site a).changed = (l'.linkAsset site' a).changed) :
    (cells : List (String × Value)) → Value.EveryRefCells R A cells →
    (l.linkCells site cells).changed = (l'.linkCells site' cells).changed
  | [], _ => rfl
  | (_, v) :: rest, h => congrArg₂ or (link_changed_congr hrow hasset v h.1)
    (linkCells_changed_congr hrow hasset rest h.2)

end

end Congr

/-- Where a value stands does not matter for what changes. -/
theorem link_changed_site (site site' : ReferenceSite) (v : Value) :
    (l.link site v).changed = (l.link site' v).changed := by
  have hrow : ∀ r, True → (l.linkRow site r).changed = (l.linkRow site' r).changed :=
    fun _ _ => rfl
  have hasset : ∀ a, True → (l.linkAsset site a).changed = (l.linkAsset site' a).changed := by
    intro a _
    rw [linkAsset, linkAsset]
    split <;> rfl
  exact link_changed_congr hrow hasset v
    (Value.everyRef_of_forall (fun _ => trivial) (fun _ => trivial) v)

mutual

/-- What is reported as unchanged is the same. -/
theorem link_changed_eq_false : (v : Value) → (l.link site v).changed = false →
    v.mapRefs l.refMap = v
  | .sheetRef r, h =>
    have hrow : (l.linkRow site r).changed = false := h
    congrArg Value.sheetRef (linkRow_changed_eq_false hrow)
  | .assetRef a, h =>
    have hasset : (l.linkAsset site a).changed = false := h
    congrArg Value.assetRef (linkAsset_changed_eq_false hasset)
  | .list items, h => congrArg Value.list (linkItems_changed_eq_false items h)
  | .map entries, h => congrArg Value.map (linkEntries_changed_eq_false entries h)
  | .record cells, h => congrArg Value.record (linkCells_changed_eq_false cells h)
  | .null, _ => rfl
  | .bool _, _ => rfl
  | .int _, _ => rfl
  | .float _, _ => rfl
  | .text _, _ => rfl

theorem linkItems_changed_eq_false : (vs : List Value) → (l.linkItems site vs).changed = false →
    Value.mapRefsItems l.refMap vs = vs
  | [], _ => rfl
  | v :: rest, h =>
    have hor := Bool.or_eq_false_iff.mp h
    congrArg₂ List.cons (link_changed_eq_false v hor.1) (linkItems_changed_eq_false rest hor.2)

theorem linkEntries_changed_eq_false : (es : List (Value × Value)) →
    (l.linkEntries site es).changed = false → Value.mapRefsEntries l.refMap es = es
  | [], _ => rfl
  | (k, v) :: rest, h =>
    have hor := Bool.or_eq_false_iff.mp h
    have hentry := Bool.or_eq_false_iff.mp hor.1
    congrArg₂ List.cons
      (congrArg₂ Prod.mk (link_changed_eq_false k hentry.1) (link_changed_eq_false v hentry.2))
      (linkEntries_changed_eq_false rest hor.2)

theorem linkCells_changed_eq_false : (cells : List (String × Value)) →
    (l.linkCells site cells).changed = false → Value.mapRefsCells l.refMap cells = cells
  | [], _ => rfl
  | (name, v) :: rest, h =>
    have hor := Bool.or_eq_false_iff.mp h
    congrArg₂ List.cons (congrArg (Prod.mk name) (link_changed_eq_false v hor.1))
      (linkCells_changed_eq_false rest hor.2)

end

mutual

/-- In a value without references there is nothing to link. -/
theorem link_of_everyRef_false : (v : Value) → v.EveryRef (fun _ => False) (fun _ => False) →
    l.link site v = .same v
  | .sheetRef _, h => h.elim
  | .assetRef _, h => h.elim
  | .list items, h => by
    rw [link, linkItems_of_everyRef_false items h]
    rfl
  | .map entries, h => by
    rw [link, linkEntries_of_everyRef_false entries h]
    rfl
  | .record cells, h => by
    rw [link, linkCells_of_everyRef_false cells h]
    rfl
  | .null, _ => rfl
  | .bool _, _ => rfl
  | .int _, _ => rfl
  | .float _, _ => rfl
  | .text _, _ => rfl

theorem linkItems_of_everyRef_false : (vs : List Value) →
    Value.EveryRefItems (fun _ => False) (fun _ => False) vs → l.linkItems site vs = .same vs
  | [], _ => rfl
  | v :: rest, h => by
    rw [linkItems, link_of_everyRef_false v h.1, linkItems_of_everyRef_false rest h.2]
    rfl

theorem linkEntries_of_everyRef_false : (es : List (Value × Value)) →
    Value.EveryRefEntries (fun _ => False) (fun _ => False) es → l.linkEntries site es = .same es
  | [], _ => rfl
  | (k, v) :: rest, h => by
    rw [linkEntries, link_of_everyRef_false k h.1.1, link_of_everyRef_false v h.1.2,
      linkEntries_of_everyRef_false rest h.2]
    rfl

theorem linkCells_of_everyRef_false : (cells : List (String × Value)) →
    Value.EveryRefCells (fun _ => False) (fun _ => False) cells →
      l.linkCells site cells = .same cells
  | [], _ => rfl
  | (name, v) :: rest, h => by
    rw [linkCells, link_of_everyRef_false v h.1, linkCells_of_everyRef_false rest h.2]
    rfl

end

end Linker

end TypedSheets
