import TypedSheets.Proofs.Link.InPlace

/-!
# Reading what has its references replaced

A reader takes over the references that stand in a cell and makes new ones of keys and paths. It
never looks at what a reference is resolved to, except for the order of sets and maps. So a value
with its references replaced is read if the value is, and what is read is the same with the
references replaced, each element in its place. This needs that the replacement keeps new references
and the order of those in the value.

## Main definitions

* `ReadAlike` — two readings that fail both, or give a value and what becomes of it
* `RefMap.KeepsNew` — references that were never looked up stay
* `RefMap.Unnoticed` — a replacement that reading does not depend on

## Main results

* `CellType.read_mapRefs`, `Members.read_mapRefs` — replaced references are read in their places
-/

namespace TypedSheets

/-! ### Readings that end alike -/

/-- Both readings fail, or the second gives what `g` makes of the outcome of the first. -/
inductive ReadAlike {α β : Type} (g : α → β) : Except CellError α → Except CellError β → Prop
  | ok (x : α) : ReadAlike g (.ok x) (.ok (g x))
  | error (e e' : CellError) : ReadAlike g (.error e) (.error e')

namespace ReadAlike

variable {α β γ δ : Type} {g : α → β} {g' : γ → δ} {r : Except CellError α}
  {r' : Except CellError β}

theorem refl (r : Except CellError α) : ReadAlike (fun x => x) r r := by
  cases r with
  | error e => exact .error e e
  | ok x => exact .ok x

theorem outcomes (h : ReadAlike g r r') :
    (∃ e e', r = .error e ∧ r' = .error e') ∨ ∃ x, r = .ok x ∧ r' = .ok (g x) := by
  cases h with
  | error e e' => exact Or.inl ⟨e, e', rfl, rfl⟩
  | ok x => exact Or.inr ⟨x, rfl, rfl⟩

theorem map (h : ReadAlike g r r') {k : α → γ} {k' : β → δ}
    (hk : ∀ x, r = .ok x → k' (g x) = g' (k x)) : ReadAlike g' (r.map k) (r'.map k') := by
  cases h with
  | error e e' => exact .error e e'
  | ok x =>
    have hok : ReadAlike g' (.ok (k x)) (.ok (g' (k x))) := .ok (k x)
    rwa [← hk x rfl] at hok

theorem mapError (h : ReadAlike g r r') (k k' : CellError → CellError) :
    ReadAlike g (r.mapError k) (r'.mapError k') := by
  cases h with
  | error e e' => exact .error (k e) (k' e')
  | ok x => exact .ok x

end ReadAlike

/-! ### Items and entries -/

namespace Value

variable (f : RefMap)

theorem items_mapRefs (expected : String) (v : Value) :
    ReadAlike (List.map (mapRefs f)) (v.items expected) ((v.mapRefs f).items expected) := by
  cases v with
  | null => exact .ok []
  | list items =>
    rw [mapRefs, mapRefsItems_eq_map]
    exact .ok items
  | text s =>
    rw [mapRefs, items]
    split
    · next vs hvs =>
      -- the items of a text hold no references
      have hsame : vs.map (mapRefs f) = vs := map_eq_self fun w hw =>
        mapRefs_eq_self w (everyRef_of_mem_textItems? hvs hw)
      have hok : ReadAlike (List.map (mapRefs f)) (.ok vs) (.ok (vs.map (mapRefs f))) := .ok vs
      rwa [hsame] at hok
    · exact .error _ _
  | map entries => exact .error _ _
  | record cells => exact .error _ _
  | bool b => exact .ok [Value.bool b]
  | int i => exact .ok [Value.int i]
  | float d => exact .ok [Value.float d]
  | sheetRef r => exact .ok [Value.sheetRef r]
  | assetRef a => exact .ok [Value.assetRef a]

/-- An entry with the references in its key and in its value replaced. -/
def mapRefsEntry (e : Value × Value) : Value × Value := (e.1.mapRefs f, e.2.mapRefs f)

theorem pair_mapRefs (v : Value) :
    ReadAlike (mapRefsEntry f) v.pair (v.mapRefs f).pair := by
  cases v with
  | list items =>
    -- only two items are a pair
    match items with
    | [k, w] => exact .ok (k, w)
    | [] => exact .error _ _
    | [_] => exact .error _ _
    | _ :: _ :: _ :: _ => exact .error _ _
  | _ => exact .error _ _

theorem pairs_mapRefs (items : List Value) :
    ReadAlike (List.map (mapRefsEntry f)) (pairs items) (pairs (items.map (mapRefs f))) := by
  induction items with
  | nil => exact .ok []
  | cons v rest ih =>
    -- the first item that is no pair ends both
    rw [List.map_cons, pairs, pairs]
    obtain ⟨_, _, hv, hv'⟩ | ⟨p, hv, hv'⟩ := (pair_mapRefs f v).outcomes
    · simp only [hv, hv']
      exact .error _ _
    · obtain ⟨_, _, hrest, hrest'⟩ | ⟨ps, hrest, hrest'⟩ := ih.outcomes
      · simp only [hv, hv', hrest, hrest']
        exact .error _ _
      · simp only [hv, hv', hrest, hrest']
        exact .ok (p :: ps)

theorem cellEntries_mapRefsCells (cells : RawRow) :
    cellEntries (mapRefsCells f cells) = (cellEntries cells).map (mapRefsEntry f) := by
  induction cells with
  | nil => rfl
  | cons c rest ih => exact congrArg (List.cons _) ih

theorem entries_mapRefs (expected : String) (v : Value) :
    ReadAlike (List.map (mapRefsEntry f)) (v.entries expected)
      ((v.mapRefs f).entries expected) := by
  cases v with
  | null => exact .ok []
  | map entries =>
    rw [mapRefs, mapRefsEntries_eq_map]
    exact .ok entries
  | record cells =>
    rw [mapRefs, entries, entries, cellEntries_mapRefsCells]
    exact .ok (cellEntries cells)
  | list items =>
    rw [mapRefs, mapRefsItems_eq_map]
    exact pairs_mapRefs f items
  | text s =>
    rw [mapRefs, entries]
    split
    · exact .ok []
    · -- a text that is an object has cells, which hold no references either
      split
      · next members _ =>
        have hsame : (cellEntries (RawRow.ofList (ofJsonMembers members))).map (mapRefsEntry f) =
            cellEntries (RawRow.ofList (ofJsonMembers members)) := by
          apply map_eq_self
          intro e he
          obtain ⟨hkey, hvalue⟩ := everyRef_of_mem_cellEntries
            (everyRefCells_ofList (everyRefCells_ofJson members)) e he
          exact Prod.ext (mapRefs_eq_self e.1 hkey) (mapRefs_eq_self e.2 hvalue)
        have hok : ReadAlike (List.map (mapRefsEntry f)) (.ok _) (.ok (_)) :=
          .ok (cellEntries (RawRow.ofList (ofJsonMembers members)))
        rwa [hsame] at hok
      · exact .error _ _
  | _ => exact .error _ _

end Value

/-! ### Collections -/

section Collections

variable {α β : Type} {read : Value → Except CellError α} {readKey : Value → Except CellError α}
  {readValue : Value → Except CellError β} {g : α → α} {g' : β → β} {f : RefMap}
  {V : Value → Prop}

theorem readEach_mapRefs {vs : List Value}
    (h : ∀ v ∈ vs, ReadAlike g (read v) (read (v.mapRefs f))) :
    ReadAlike (List.map g) (readEach read vs) (readEach read (vs.map (Value.mapRefs f))) := by
  induction vs with
  | nil => exact .ok []
  | cons v rest ih =>
    obtain ⟨hfirst, hothers⟩ := List.forall_mem_cons.mp h
    rw [List.map_cons, readEach, readEach]
    obtain ⟨_, _, hv, hv'⟩ | ⟨x, hv, hv'⟩ := hfirst.outcomes
    · simp only [hv, hv']
      exact .error _ _
    · obtain ⟨_, _, hrest, hrest'⟩ | ⟨xs, hrest, hrest'⟩ := (ih hothers).outcomes
      · simp only [hv, hv', hrest, hrest']
        exact .error _ _
      · simp only [hv, hv', hrest, hrest']
        exact .ok (x :: xs)

theorem readEntries_mapRefs {vs : List (Value × Value)}
    (hkey : ∀ v ∈ vs, ReadAlike g (readKey v.1) (readKey (v.1.mapRefs f)))
    (hvalue : ∀ v ∈ vs, ReadAlike g' (readValue v.2) (readValue (v.2.mapRefs f))) :
    ReadAlike (List.map fun e => (g e.1, g' e.2)) (readEntries readKey readValue vs)
      (readEntries readKey readValue (vs.map (Value.mapRefsEntry f))) := by
  induction vs with
  | nil => exact .ok []
  | cons v rest ih =>
    obtain ⟨hfirstKey, hkeys⟩ := List.forall_mem_cons.mp hkey
    obtain ⟨hfirstValue, hvalues⟩ := List.forall_mem_cons.mp hvalue
    rw [List.map_cons, Value.mapRefsEntry, readEntries, readEntries]
    obtain ⟨_, _, hk, hk'⟩ | ⟨x, hk, hk'⟩ := hfirstKey.outcomes
    · simp only [hk, hk']
      exact .error _ _
    · obtain ⟨_, _, hw, hw'⟩ | ⟨y, hw, hw'⟩ := hfirstValue.outcomes
      · simp only [hk, hk', hw, hw']
        exact .error _ _
      · obtain ⟨_, _, hrest, hrest'⟩ | ⟨es, hrest, hrest'⟩ := (ih hkeys hvalues).outcomes
        · simp only [hk, hk', hw, hw', hrest, hrest']
          exact .error _ _
        · simp only [hk, hk', hw, hw', hrest, hrest']
          exact .ok ((x, y) :: es)

theorem readOption_alike {v : Value} (h : ReadAlike g (read v) (read (v.mapRefs f))) :
    ReadAlike (Option.map g) (readOption read v) (readOption read (v.mapRefs f)) := by
  -- what is nothing stays nothing
  cases hv : v.isFilled with
  | false =>
    rw [readOption_of_not_isFilled read hv,
      readOption_of_not_isFilled read ((v.isFilled_mapRefs f).trans hv)]
    exact .ok none
  | true =>
    rw [readOption_of_isFilled read hv,
      readOption_of_isFilled read ((v.isFilled_mapRefs f).trans hv)]
    exact h.map fun _ _ => rfl

section Closed

variable (hV : Value.PartClosed V) (hread : ∀ w, V w → ReadAlike g (read w) (read (w.mapRefs f)))

include hV hread

theorem readSequence_alike (expected : String) {v : Value} (hv : V v) :
    ReadAlike (List.map g) (readSequence expected read v)
      (readSequence expected read (v.mapRefs f)) := by
  rw [readSequence, readSequence]
  obtain ⟨_, _, hitems, hitems'⟩ | ⟨vs, hitems, hitems'⟩ := (v.items_mapRefs f expected).outcomes
  · simp only [hitems, hitems']
    exact .error _ _
  · simp only [hitems, hitems']
    exact readEach_mapRefs fun w hw => hread w (hV.items hv hitems w hw)

theorem readArray_alike (length : Nat) {v : Value} (hv : V v) :
    ReadAlike
      (fun xs : ListOf α length => (⟨xs.val.map g, by simp [xs.property]⟩ : ListOf α length))
      (readArray read length v) (readArray read length (v.mapRefs f)) := by
  rw [readArray, readArray]
  obtain ⟨_, _, hitems, hitems'⟩ | ⟨vs, hitems, hitems'⟩ := (v.items_mapRefs f "array").outcomes
  · simp only [hitems, hitems']
    exact .error _ _
  · -- the nulls that stand for no items hold no references
    have hfilled : (if (vs.map (Value.mapRefs f)).isEmpty then List.replicate length .null
        else vs.map (Value.mapRefs f)) =
        (if vs.isEmpty then List.replicate length .null else vs).map (Value.mapRefs f) := by
      rw [List.isEmpty_map]
      split
      · rw [List.map_replicate, Value.mapRefs]
      · rfl
    have hitem : ∀ w ∈ if vs.isEmpty then List.replicate length .null else vs, V w := by
      intro w hw
      split at hw
      · rw [List.eq_of_mem_replicate hw]
        exact hV.null
      · exact hV.items hv hitems w hw
    simp only [hitems, hitems', hfilled]
    obtain ⟨_, _, heach, heach'⟩ | ⟨xs, heach, heach'⟩ :=
      (readEach_mapRefs fun w hw => hread w (hitem w hw)).outcomes
    · simp only [heach, heach']
      exact .error _ _
    · simp only [heach, heach', List.length_map]
      by_cases hlength : xs.length = length
      · rw [dif_pos hlength, dif_pos hlength]
        exact .ok (⟨xs, hlength⟩ : ListOf α length)
      · rw [dif_neg hlength, dif_neg hlength]
        exact .error _ _

theorem readSet_alike {cmp : α → α → Ordering} {v : Value} (hv : V v)
    (hcmp : ∀ w w' x y, V w → V w' → read w = .ok x → read w' = .ok y →
      cmp (g x) (g y) = cmp x y) :
    ReadAlike (List.map g) (readSet cmp read v) (readSet cmp read (v.mapRefs f)) := by
  refine (readSequence_alike hV hread "set" hv).map fun xs hxs => keysOfList_map ?_
  -- every element was read from an item, and such elements stay in order
  intro x hx y hy
  obtain ⟨_, hitems, w, hw, hreadx⟩ := exists_of_mem_readSequence hxs hx
  obtain ⟨_, hitems', w', hw', hready⟩ := exists_of_mem_readSequence hxs hy
  exact hcmp w w' x y (hV.items hv hitems w hw) (hV.items hv hitems' w' hw') hreadx hready

theorem RowsForm.read_alike (form : RowsForm) {v : Value} (hv : V v) :
    ReadAlike (form.map g) (form.read read v) (form.read read (v.mapRefs f)) := by
  cases form with
  | list => exact readSequence_alike hV hread "list" hv
  | boxedSlice => exact readSequence_alike hV hread "list" hv
  | array length => exact readArray_alike hV hread length hv

end Closed

theorem readMap_alike {cmp : α → α → Ordering} (hV : Value.PartClosed V)
    (hkey : ∀ w, V w → ReadAlike g (readKey w) (readKey (w.mapRefs f)))
    (hvalue : ∀ w, V w → ReadAlike g' (readValue w) (readValue (w.mapRefs f))) {v : Value}
    (hv : V v)
    (hcmp : ∀ w w' x y, V w → V w' → readKey w = .ok x → readKey w' = .ok y →
      cmp (g x) (g y) = cmp x y) :
    ReadAlike (List.map fun e => (g e.1, g' e.2)) (readMap cmp readKey readValue v)
      (readMap cmp readKey readValue (v.mapRefs f)) := by
  rw [readMap, readMap]
  obtain ⟨_, _, hentries, hentries'⟩ | ⟨vs, hentries, hentries'⟩ :=
    (v.entries_mapRefs f "map").outcomes
  · simp only [hentries, hentries']
    exact .error _ _
  · simp only [hentries, hentries']
    have hparts := fun w hw => hV.entries hv hentries w hw
    refine (readEntries_mapRefs (fun w hw => hkey w.1 (hparts w hw).1)
      fun w hw => hvalue w.2 (hparts w hw).2).map fun es hes => Entries.ofList_map ?_
    -- every key was read from the key of an entry
    have hread : ∀ a ∈ es.map Prod.fst, ∃ w, V w ∧ readKey w = .ok a := by
      refine List.forall_mem_map.mpr fun e he => ?_
      obtain ⟨w, hw, hwk, -⟩ := exists_of_mem_forall₂ (readEntries_eq_ok_iff.mp hes) he
      exact ⟨w.1, (hparts w hw).1, hwk⟩
    intro a ha b hb
    obtain ⟨w, hw, hwa⟩ := hread a ha
    obtain ⟨w', hw', hwb⟩ := hread b hb
    exact hcmp w w' a b hw hw' hwa hwb

theorem readRecord_alike {read : RawRow → Except CellError α} (hV : Value.PartClosed V)
    (hread : ∀ cells : RawRow, (∀ column, V (cells.cell column)) →
      ReadAlike g (read cells) (read (Value.mapRefsCells f cells))) (name : String) {v : Value}
    (hv : V v) : ReadAlike g (readRecord name read v) (readRecord name read (v.mapRefs f)) := by
  cases v with
  | null => exact hread .empty hV.cell_empty
  | record cells => exact hread cells (hV.cell hv)
  | _ => exact .error _ _

end Collections

/-! ### Values without references -/

section Plain

variable (f : RefMap)

theorem ScalarType.read_alike (s : ScalarType) (v : Value) :
    ReadAlike (fun x => x) (s.read v) (s.read (v.mapRefs f)) := by
  cases v with
  | list items => cases s <;> exact .error _ _
  | map entries => cases s <;> exact .error _ _
  | record cells => cases s <;> exact .error _ _
  | sheetRef r => cases s <;> exact .error _ _
  | assetRef a => cases s <;> exact .error _ _
  | _ => exact .refl _

theorem InputType.read_alike : (i : InputType) → (v : Value) →
    ReadAlike (fun x => x) (i.read v) (i.read (v.mapRefs f))
  | .scalar s, v => s.read_alike f v
  | .option i, v => by
    have h := readOption_alike (i.read_alike v)
    rwa [show Option.map (fun x : i.El => x) = fun x => x from Option.map_id] at h

theorem Converter.read_alike (c : Converter) (v : Value) :
    ReadAlike (fun x => x) (c.read v) (c.read (v.mapRefs f)) := by
  rw [Converter.read, Converter.read]
  obtain ⟨_, _, hv, hv'⟩ | ⟨x, hv, hv'⟩ := (c.input.read_alike f v).outcomes
  · simp only [hv, hv']
    exact .error _ _
  · simp only [hv, hv']
    exact .refl _

/-- What a converter makes of rows stays if what it makes is not touched. -/
theorem RowsConverter.read_alike {α : Type} {g : α → α} (c : RowsConverter) {make : Datum → α}
    (hg : ∀ d, g (make d) = make d) (v : Value) :
    ReadAlike g (c.read make v) (c.read make (v.mapRefs f)) := by
  rw [RowsConverter.read, RowsConverter.read]
  obtain ⟨_, _, hv, hv'⟩ | ⟨x, hv, hv'⟩ := (c.input.read_alike f v).outcomes
  · simp only [hv, hv']
    exact .error _ _
  · simp only [hv, hv']
    cases c.convert x with
    | error e => exact .error e e
    | ok d =>
      have hok : ReadAlike g (.ok (make d)) (.ok (g (make d))) := .ok (make d)
      rwa [hg d] at hok

end Plain

/-! ### Typed values -/

/-- References that were never looked up stay as they are. -/
structure RefMap.KeepsNew (f : RefMap) : Prop where
  row : ∀ target key, f.row target ⟨key, none⟩ = ⟨key, none⟩
  asset : ∀ path sub, f.asset ⟨path, sub, none⟩ = ⟨path, sub, none⟩

theorem SheetRef.read_alike {f : RefMap} (hf : f.KeepsNew) (target : String) (v : Value) :
    ReadAlike (f.row target) (SheetRef.read target v) (SheetRef.read target (v.mapRefs f)) := by
  have hnew : ∀ key, ReadAlike (f.row target) (.ok ⟨key, none⟩) (.ok ⟨key, none⟩) := by
    intro key
    have hok : ReadAlike (f.row target) (.ok ⟨key, none⟩) (.ok (f.row target ⟨key, none⟩)) := .ok _
    rwa [hf.row] at hok
  cases v with
  | sheetRef r =>
    rw [Value.mapRefs, SheetRef.read, SheetRef.read]
    by_cases htarget : r.target = target
    · -- what a reference is to is kept, so it is taken over or refused as before
      subst htarget
      simp only [RefMap.targetRef, beq_self_eq_true, if_true]
      exact .ok r.ref
    · simp only [RefMap.targetRef, beq_iff_eq, if_neg htarget]
      exact .error _ _
  | null => exact hnew _
  | bool b => exact hnew _
  | int i => exact hnew _
  | float d => exact hnew _
  | text s => exact hnew _
  | _ => exact .error _ _

theorem AssetRef.read_alike {f : RefMap} (hf : f.KeepsNew) (v : Value) :
    ReadAlike f.asset (AssetRef.read v) (AssetRef.read (v.mapRefs f)) := by
  have hnew : ∀ a : AssetRef, a.handle = none → ReadAlike f.asset (.ok a) (.ok a) := by
    rintro ⟨path, sub, _⟩ rfl
    have hok : ReadAlike f.asset (.ok ⟨path, sub, none⟩) (.ok (f.asset ⟨path, sub, none⟩)) := .ok _
    rwa [hf.asset] at hok
  cases v with
  | null => exact hnew _ rfl
  | assetRef a => exact .ok a
  | text s => exact hnew _ (AssetRef.handle_parse s)
  | _ => exact .error _ _

section Read

variable {f : RefMap} {R : TargetRef → Prop} {A : AssetRef → Prop}

/-- Reading does not depend on what this does to references with these properties, which those that
are made while reading have. -/
structure RefMap.Unnoticed (f : RefMap) (R : TargetRef → Prop) (A : AssetRef → Prop) : Prop where
  keepsNew : f.KeepsNew
  keepsOrder : f.KeepsOrder R A
  row_new : ∀ target key, R ⟨target, ⟨key, none⟩⟩
  asset_new : ∀ path sub, A ⟨path, sub, none⟩

/-- The keys that are read stay in order. -/
theorem RefMap.Unnoticed.cmp_read (hf : f.Unnoticed R A) (t : CellType) (n : Naming)
    (v w : Value) (x y : t.El) (hv : v.EveryRef R A) (hw : w.EveryRef R A) (hx : t.read n v = .ok x)
    (hy : t.read n w = .ok y) : t.cmp (t.mapInPlace f x) (t.mapInPlace f y) = t.cmp x y :=
  t.cmp_mapInPlace hf.keepsOrder (CellType.everyRef_of_read hf.row_new hf.asset_new hv hx)
    (CellType.everyRef_of_read hf.row_new hf.asset_new hw hy)

mutual

/-- A value with its references replaced is read if the value is, as what is read from the value
with the references replaced where they stand. -/
theorem CellType.read_mapRefs (hf : f.Unnoticed R A) : (t : CellType) → (n : Naming) → (v : Value) →
    v.EveryRef R A →
    ReadAlike (t.mapInPlace f) (t.read n v) (t.read n (v.mapRefs f))
  | .scalar s, _, v, _ => s.read_alike f v
  | .option t, n, v, hv => readOption_alike (t.read_mapRefs hf n v hv)
  | .sequence form t, n, _, hv => readSequence_alike (Value.partClosed_everyRef R A)
    (fun w hw => t.read_mapRefs hf n w hw) form.word hv
  | .array t length, n, _, hv => readArray_alike (Value.partClosed_everyRef R A)
    (fun w hw => t.read_mapRefs hf n w hw) length hv
  | .set _ t, n, _, hv => readSet_alike (Value.partClosed_everyRef R A)
    (fun w hw => t.read_mapRefs hf n w hw) hv (hf.cmp_read t n)
  | .map _ _ k w, n, _, hv => readMap_alike (Value.partClosed_everyRef R A)
    (fun v hw => k.read_mapRefs hf n v hw) (fun v hw => w.read_mapRefs hf n v hw) hv
    (hf.cmp_read k n)
  | .sheetRef target, _, v, _ => SheetRef.read_alike hf.keepsNew target v
  | .assetRef, _, v, _ => AssetRef.read_alike hf.keepsNew v
  | .record head ms, n, _, hv => readRecord_alike (Value.partClosed_everyRef R A)
    (fun cells hcells => ms.read_mapRefs hf (head.effectiveNaming n) cells hcells) head.name hv
  | .any, _, v, _ => .ok v

theorem MemberType.read_mapRefs (hf : f.Unnoticed R A) : (t : MemberType) → (name : String) →
    (n : Naming) → (row : RawRow) → (∀ column, (row.cell column).EveryRef R A) →
    ReadAlike (t.mapInPlace f) (t.read name n row) (t.read name n (Value.mapRefsCells f row))
  | .cell t, name, n, row, hrow => by
    simp only [MemberType.read, Value.cell_mapRefsCells]
    exact (t.read_mapRefs hf n _ (hrow _)).mapError _ _
  | .rows form head ms (some c), name, n, row, _ => by
    simp only [MemberType.read, Value.cell_mapRefsCells]
    -- the references that a converter makes are new, so they stay
    have hnew : ∀ d, (MemberType.rows form head ms c).mapInPlace f
        ((MemberType.rows form head ms c).ofDatum d) =
          (MemberType.rows form head ms c).ofDatum d := fun d =>
      MemberType.mapInPlace_eq_self _ (MemberType.everyRef_ofDatum
        (fun target key => congrArg (TargetRef.mk target) (hf.keepsNew.row target key))
        hf.keepsNew.asset _ d)
    exact (c.read_alike f hnew _).mapError _ _
  | .rows form head ms none, name, n, row, hrow => by
    simp only [MemberType.read, Value.cell_mapRefsCells]
    have hclosed := Value.partClosed_everyRef R A
    have hread : ∀ w : Value, w.EveryRef R A → ReadAlike (ms.mapInPlace f)
        (readRecord head.name (ms.read (head.effectiveNaming n)) w)
        (readRecord head.name (ms.read (head.effectiveNaming n)) (w.mapRefs f)) := fun w hw =>
      readRecord_alike hclosed
        (fun cells hcells => ms.read_mapRefs hf (head.effectiveNaming n) cells hcells) head.name hw
    exact (RowsForm.read_alike hclosed hread form (hrow _)).mapError _ _
  | .converted c, name, n, row, _ => by
    simp only [MemberType.read, Value.cell_mapRefsCells]
    exact (c.read_alike f _).mapError _ _
  | .ignored d, _, _, _, _ => .ok d.default

theorem Members.read_mapRefs (hf : f.Unnoticed R A) : (ms : Members) → (n : Naming) →
    (row : RawRow) → (∀ column, (row.cell column).EveryRef R A) →
    ReadAlike (ms.mapInPlace f) (ms.read n row) (ms.read n (Value.mapRefsCells f row))
  | .nil, _, _, _ => .ok ()
  | .cons info t rest, n, row, hrow => by
    simp only [Members.read]
    obtain ⟨_, _, hfirst, hfirst'⟩ | ⟨x, hfirst, hfirst'⟩ :=
      (t.read_mapRefs hf info.name n row hrow).outcomes
    · simp only [hfirst, hfirst']
      exact .error _ _
    · obtain ⟨_, _, hothers, hothers'⟩ | ⟨xs, hothers, hothers'⟩ :=
        (rest.read_mapRefs hf n row hrow).outcomes
      · simp only [hfirst, hfirst', hothers, hothers']
        exact .error _ _
      · simp only [hfirst, hfirst', hothers, hothers']
        exact .ok (x, xs)

end

end Read

end TypedSheets
