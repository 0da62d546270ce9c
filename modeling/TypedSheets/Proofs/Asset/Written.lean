import TypedSheets.Proofs.Text.Parts
import TypedSheets.Reference

/-!
# The written form of asset references

A reference to an asset is written as a path, perhaps with the name of an item in brackets behind
it. The brackets that count are the last opening one and a closing one at the very end, and what
stands between them must not be blank: `a[]` and `a[b]c` are paths. White space around the whole
text, the path and the item is dropped, so what is written is read as it was.

## Main definitions

* `AssetRef.NamesItem` — a text is a path with the name of an item behind it

## Main results

* `AssetRef.splitLast?_eq_some_iff` — the parts before and after the last occurrence
* `AssetRef.parts?_eq_some_iff` — the texts that have a path and an item
* `AssetRef.NamesItem.parse`, `AssetRef.parse_of_not_namesItem` — what is read from either form
* `AssetRef.parse_outcome` — which texts name an item, what is read, and that it is read again
-/

namespace TypedSheets.AssetRef

/-! ### The last opening bracket -/

section SplitLast

variable {sep : Char} {s before after : List Char}

theorem splitLast?_append (h : sep ∉ after) :
    splitLast? sep (before ++ sep :: after) = some (before, after) := by
  have hbehind : ((before ++ sep :: after).reverse.takeWhile (· != sep)).reverse = after := by
    have hpos : ∀ c ∈ after.reverse, (c != sep) = true := by
      intro c hc
      rw [bne_iff_ne]
      rintro rfl
      exact h (List.mem_reverse.mp hc)
    rw [List.reverse_append, List.reverse_cons, List.append_assoc,
      List.takeWhile_append_of_pos hpos, List.singleton_append,
      List.takeWhile_cons_of_neg (by simp), List.append_nil, List.reverse_reverse]
  rw [splitLast?]
  rw [hbehind, if_pos (by simp; omega)]
  have hlength : (before ++ sep :: after).length - after.length - 1 = before.length := by
    rw [List.length_append, List.length_cons]
    omega
  rw [hlength, List.take_left]

theorem splitLast?_of_not_mem (h : sep ∉ s) : splitLast? sep s = none := by
  have hbehind : s.reverse.takeWhile (· != sep) = s.reverse := by
    rw [List.takeWhile_eq_self_iff]
    intro c hc
    rw [bne_iff_ne]
    rintro rfl
    exact h (List.mem_reverse.mp hc)
  rw [splitLast?]
  rw [hbehind, List.reverse_reverse, if_neg (lt_irrefl _)]

/-- The part behind the last occurrence holds none, and there is no other way to split so. -/
theorem splitLast?_eq_some_iff :
    splitLast? sep s = some (before, after) ↔ s = before ++ sep :: after ∧ sep ∉ after := by
  constructor
  · intro h
    by_cases hmem : sep ∈ s
    · -- the last occurrence is the first one from behind
      obtain ⟨behind, front, hs, hnot⟩ := List.eq_append_cons_of_mem (List.mem_reverse.mpr hmem)
      have hsplit : s = front.reverse ++ sep :: behind.reverse := by
        rw [← List.reverse_reverse s, hs]
        simp
      have hnot' : sep ∉ behind.reverse := fun hc => hnot (List.mem_reverse.mp hc)
      rw [hsplit, splitLast?_append hnot'] at h
      obtain ⟨rfl, rfl⟩ := Prod.mk.inj (Option.some.inj h)
      exact ⟨hsplit, hnot'⟩
    · rw [splitLast?_of_not_mem hmem] at h
      cases h
  · rintro ⟨rfl, hnot⟩
    exact splitLast?_append hnot

end SplitLast

/-- The texts that have a path and an item. -/
theorem parts?_eq_some_iff {s path item : List Char} : parts? s = some (path, item) ↔
    s = path ++ '[' :: item ++ [']'] ∧ '[' ∉ item ∧ item.all Text.isBlankChar = false := by
  constructor
  · intro h
    -- the text is read from its end: the closing bracket, then the last opening one
    rw [parts?] at h
    split at h
    · next front hs =>
      split at h
      · next path' item' hsplit =>
        obtain ⟨hfront, hnot⟩ := splitLast?_eq_some_iff.mp hsplit
        split at h
        · cases h
        · next hblank =>
          obtain ⟨rfl, rfl⟩ := Prod.mk.inj (Option.some.inj h)
          refine ⟨?_, hnot, Bool.eq_false_iff.mpr hblank⟩
          rw [← hfront, ← List.reverse_cons, ← hs, List.reverse_reverse]
      · cases h
    · cases h
  · rintro ⟨rfl, hnot, hblank⟩
    have hreverse : (path ++ '[' :: item ++ [']']).reverse =
        ']' :: (path ++ '[' :: item).reverse := by
      simp
    rw [parts?, hreverse]
    simp only [List.reverse_reverse, splitLast?_append hnot, hblank, Bool.false_eq_true, if_false]

/-! ### What is read -/

/-- A text is a path with the name of an item in brackets behind it. The item is what stands between
the last opening bracket and the closing one at the end, and it is not blank. -/
structure NamesItem (t path item : String) : Prop where
  text : t = path ++ "[" ++ item ++ "]"
  last : '[' ∉ item.toList
  named : Text.isBlank item = false

variable {raw t path item : String}

theorem namesItem_iff : NamesItem t path item ↔
    parts? t.toList = some (path.toList, item.toList) := by
  have htext : t = path ++ "[" ++ item ++ "]" ↔
      t.toList = path.toList ++ '[' :: item.toList ++ [']'] := by
    rw [← String.toList_inj, String.toList_append, String.toList_append, String.toList_append]
    simp
  rw [parts?_eq_some_iff, ← htext]
  exact ⟨fun h => ⟨h.text, h.last, h.named⟩, fun ⟨h₁, h₂, h₃⟩ => ⟨h₁, h₂, h₃⟩⟩

theorem NamesItem.parse (h : NamesItem (Text.trim raw) path item) :
    parse raw = ⟨Text.trim path, some (Text.trim item), none⟩ := by
  have hparts := namesItem_iff.mp h
  rw [Text.toList_trim] at hparts
  rw [AssetRef.parse, hparts]
  simp only [of, String.ofList_toList, Option.map_some]

theorem parse_of_not_namesItem (h : ¬ ∃ path item, NamesItem (Text.trim raw) path item) :
    parse raw = ⟨Text.trim raw, none, none⟩ := by
  have hparts : parts? (Text.trimChars raw.toList) = none := by
    rw [← Text.toList_trim, Option.eq_none_iff_forall_not_mem]
    rintro ⟨path, item⟩ hmem
    refine h ⟨String.ofList path, String.ofList item, namesItem_iff.mpr ?_⟩
    rw [String.toList_ofList, String.toList_ofList]
    exact hmem
  rw [AssetRef.parse, hparts]
  simp only [of, Text.trim_trim, Option.map_none]

/-! ### What is written -/

/-- A trimmed path with an item behind it is a trimmed text. -/
theorem trimmed_item (path item : String) :
    Text.trim (Text.trim path ++ "[" ++ item ++ "]") = Text.trim path ++ "[" ++ item ++ "]" := by
  obtain ⟨hhead, -⟩ := (Text.trim_eq_self_iff (Text.trim path)).mp (Text.trim_trim path)
  rw [Text.trim_eq_self_iff]
  -- it starts with the path or the opening bracket, and it ends with the closing one
  constructor
  · intro c hc
    rw [String.toList_append, String.toList_append, String.toList_append, List.append_assoc,
      List.append_assoc] at hc
    cases hpath : (Text.trim path).toList with
    | nil =>
      rw [hpath] at hc
      cases hc
      rfl
    | cons d rest =>
      rw [hpath] at hc hhead
      exact hhead c hc
  · intro c hc
    rw [String.toList_append, show "]".toList = [']'] from rfl, List.getLast?_concat] at hc
    cases hc
    rfl

/-- What is written for a path and an item names them, trimmed. -/
theorem NamesItem.written (h : NamesItem t path item) :
    NamesItem (Text.trim (AssetRef.text ⟨Text.trim path, some (Text.trim item), none⟩))
      (Text.trim path) (Text.trim item) where
  text := trimmed_item path (Text.trim item)
  last hmem := by
    rw [Text.toList_trim] at hmem
    exact h.last (Text.mem_of_mem_trimChars hmem)
  named := by rw [Text.isBlank_trim, h.named]

/-- A reference is read again from what is written for it. -/
theorem parse_text (raw : String) : parse (parse raw).text = parse raw := by
  by_cases h : ∃ path item, NamesItem (Text.trim raw) path item
  · obtain ⟨path, item, hitem⟩ := h
    rw [hitem.parse, hitem.written.parse, Text.trim_trim, Text.trim_trim]
  · have htext : (parse raw).text = Text.trim raw := by
      rw [parse_of_not_namesItem h]
      rfl
    have hagain : ¬ ∃ path item, NamesItem (Text.trim (Text.trim raw)) path item := by
      rwa [Text.trim_trim]
    rw [htext, parse_of_not_namesItem hagain, parse_of_not_namesItem h, Text.trim_trim]

/-- A text names an item if, trimmed, it ends with a closing bracket and what stands between the
last opening bracket and the end is not blank. Then path and item are what stands before and behind
that bracket, trimmed; else the whole trimmed text is the path. What is written for the reference is
read as the same reference. -/
theorem parse_outcome (raw : String) :
    ((parse raw).sub.isSome = true ↔ ∃ path item, NamesItem (Text.trim raw) path item) ∧
    (∀ path item, NamesItem (Text.trim raw) path item →
      parse raw = ⟨Text.trim path, some (Text.trim item), none⟩) ∧
    ((parse raw).sub = none → parse raw = ⟨Text.trim raw, none, none⟩) ∧
    parse (parse raw).text = parse raw := by
  have hnamed : (parse raw).sub.isSome = true ↔
      ∃ path item, NamesItem (Text.trim raw) path item := by
    constructor
    · intro hsome
      by_contra hnot
      rw [parse_of_not_namesItem hnot] at hsome
      cases hsome
    · rintro ⟨path, item, hitem⟩
      rw [hitem.parse]
      rfl
  refine ⟨hnamed, fun path item hitem => hitem.parse, fun hnone => ?_, parse_text raw⟩
  refine parse_of_not_namesItem fun hitem => ?_
  have hsome := hnamed.mpr hitem
  rw [hnone] at hsome
  cases hsome

/-- Of several brackets the last ones count, and white space at every seam is dropped. -/
theorem parse_outcome_brackets :
    NamesItem (Text.trim "\t icons [16] [ sword]] ") "icons [16] " " sword]" ∧
    parse "\t icons [16] [ sword]] " = ⟨"icons [16]", some "sword]", none⟩ ∧
    (parse "icons[ ]").sub = none ∧ parse "icons[ ]" = ⟨"icons[ ]", none, none⟩ := by
  have hitem : NamesItem (Text.trim "\t icons [16] [ sword]] ") "icons [16] " " sword]" :=
    ⟨by decide, by decide, by decide⟩
  have hpath : Text.trim "icons [16] " = "icons [16]" := by decide
  have hname : Text.trim " sword]" = "sword]" := by decide
  have hnone : (parse "icons[ ]").sub = none := by decide
  have hplain : Text.trim "icons[ ]" = "icons[ ]" := by decide
  refine ⟨hitem, ?_, hnone, ?_⟩
  · have hread := (parse_outcome "\t icons [16] [ sword]] ").2.1 _ _ hitem
    rwa [hpath, hname] at hread
  · have hread := (parse_outcome "icons[ ]").2.2.1 hnone
    rwa [hplain] at hread

end TypedSheets.AssetRef
