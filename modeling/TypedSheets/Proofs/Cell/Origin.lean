import TypedSheets.Proofs.Cell.Values

/-!
# Where references come from

Reading makes references of texts and numbers, which are unresolved, as those are that a converter
makes, and takes over those that stand in the cells. A value made of JSON holds none. So what all
unresolved references have and the references in the cells have, all references have in what is
read.

## Main results

* `Value.everyRef_ofJson` — a value made of JSON holds no references
* `Value.partClosed_everyRef` — parts are read from values that hold no other references
* `MemberType.everyRef_ofDatum` — the references in what a converter makes
* `MemberType.reverts_ofRows` — converters that functions on rows give
* `CellType.everyRef_of_read`, `Members.everyRef_of_read` — the references in what is read
-/

namespace TypedSheets

variable {R : TargetRef → Prop} {A : AssetRef → Prop}

namespace Value

/-! ### Values made of JSON -/

theorem everyRefCells_ofList {cells : List (String × Value)} (h : EveryRefCells R A cells) :
    EveryRefCells R A (RawRow.ofList cells) := by
  rw [everyRefCells_iff] at h ⊢
  intro c hc
  obtain ⟨c', hc', heq⟩ := List.mem_map.mp (Entries.mem_of_mem_ofList hc).2
  rw [← heq]
  exact h c' hc'

mutual

/-- A value made of JSON holds no references. -/
theorem everyRef_ofJson : (j : Json) → (ofJson j).EveryRef R A
  | .null => trivial
  | .bool _ => trivial
  | .number (.int i) => by
    rw [ofJson]
    split <;> trivial
  | .number (.float _) => trivial
  | .string _ => trivial
  | .array items => everyRefItems_ofJson items
  | .object members => everyRefCells_ofList (everyRefCells_ofJson members)

theorem everyRefItems_ofJson : (js : List Json) → EveryRefItems R A (ofJsonItems js)
  | [] => trivial
  | j :: rest => ⟨everyRef_ofJson j, everyRefItems_ofJson rest⟩

theorem everyRefCells_ofJson : (js : List (String × Json)) → EveryRefCells R A (ofJsonMembers js)
  | [] => trivial
  | (_, j) :: rest => ⟨everyRef_ofJson j, everyRefCells_ofJson rest⟩

end

/-! ### Parts of values -/

theorem everyRef_cell {cells : RawRow} (h : EveryRefCells R A cells) (column : String) :
    (cells.cell column).EveryRef R A := by
  rw [RawRow.cell]
  cases hget : cells.get? column with
  | none => trivial
  | some v =>
    obtain ⟨column', hmem⟩ := Entries.exists_mem_of_get? hget
    exact everyRefCells_iff.mp h _ hmem

theorem everyRef_of_mem_textItems? {s : List Char} {vs : List Value} {w : Value}
    (h : textItems? s = some vs) (hw : w ∈ vs) : w.EveryRef R A := by
  rw [textItems?.eq_def] at h
  split at h
  · cases h
    exact absurd hw List.not_mem_nil
  · split at h
    · next items _ =>
      cases h
      exact everyRefItems_iff.mp (everyRefItems_ofJson items) w hw
    · cases h
  · cases h
    obtain ⟨part, -, rfl⟩ := List.mem_map.mp hw
    trivial

theorem everyRef_of_items {expected : String} {v : Value} {vs : List Value} (hv : v.EveryRef R A)
    (h : v.items expected = .ok vs) : ∀ w ∈ vs, w.EveryRef R A := by
  intro w hw
  cases v with
  | null =>
    cases h
    exact absurd hw List.not_mem_nil
  | list items =>
    cases h
    exact everyRefItems_iff.mp hv w hw
  | text s =>
    -- the items of a text are pieces of it, or come from JSON
    rw [items] at h
    split at h
    · next items hitems =>
      cases h
      exact everyRef_of_mem_textItems? hitems hw
    · cases h
  | map entries => cases h
  | record cells => cases h
  | _ =>
    cases h
    obtain rfl := List.mem_singleton.mp hw
    exact hv

theorem everyRef_of_pairs {items : List Value} {es : List (Value × Value)}
    (hitems : EveryRefItems R A items) (h : pairs items = .ok es) :
    ∀ e ∈ es, e.1.EveryRef R A ∧ e.2.EveryRef R A := by
  induction items generalizing es with
  | nil =>
    cases h
    exact fun e he => absurd he List.not_mem_nil
  | cons item rest ih =>
    rw [pairs] at h
    split at h
    · cases h
    · next p hp =>
      split at h
      · cases h
      · next ps hps =>
        cases h
        have hpair : p.1.EveryRef R A ∧ p.2.EveryRef R A := by
          rw [pair.eq_def] at hp
          split at hp
          · cases hp
            exact ⟨hitems.1.1, hitems.1.2.1⟩
          · cases hp
        exact List.forall_mem_cons.mpr ⟨hpair, ih hitems.2 hps⟩

theorem everyRef_of_mem_cellEntries {cells : RawRow} (h : EveryRefCells R A cells) :
    ∀ e ∈ cellEntries cells, e.1.EveryRef R A ∧ e.2.EveryRef R A :=
  List.forall_mem_map.mpr fun c hc => ⟨trivial, everyRefCells_iff.mp h c hc⟩

theorem everyRef_of_entries {expected : String} {v : Value} {es : List (Value × Value)}
    (hv : v.EveryRef R A) (h : v.entries expected = .ok es) :
    ∀ e ∈ es, e.1.EveryRef R A ∧ e.2.EveryRef R A := by
  cases v with
  | null =>
    cases h
    exact fun e he => absurd he List.not_mem_nil
  | list items => exact everyRef_of_pairs hv h
  | map entries =>
    cases h
    exact everyRefEntries_iff.mp hv
  | record cells =>
    cases h
    exact everyRef_of_mem_cellEntries hv
  | text s =>
    -- a blank text has no entries, and any other is read as JSON
    rw [entries] at h
    split at h
    · cases h
      exact fun e he => absurd he List.not_mem_nil
    · split at h
      · next members _ =>
        cases h
        exact everyRef_of_mem_cellEntries (everyRefCells_ofList (everyRefCells_ofJson members))
      · cases h
  | _ => cases h

/-- Parts are read from values that hold no other references. -/
theorem partClosed_everyRef (R : TargetRef → Prop) (A : AssetRef → Prop) :
    PartClosed (EveryRef R A) :=
  ⟨trivial, everyRef_of_items, everyRef_of_entries, everyRef_cell⟩

/-- The cells of a row made of JSON hold no references. -/
theorem everyRef_cell_ofJson {j : Json} {row : RawRow} (h : RawRow.ofJson j = .ok row)
    (column : String) : (row.cell column).EveryRef R A := by
  rw [RawRow.ofJson] at h
  split at h
  · next cells hcells =>
    cases h
    have hrecord : (Value.record row).EveryRef R A := hcells ▸ everyRef_ofJson j
    exact everyRef_cell hrecord column
  · cases h

end Value

/-! ### What is read -/

/-- A reference to a row is read from a value that holds it, or is new. -/
theorem SheetRef.of_read (hR : ∀ target key, R ⟨target, ⟨key, none⟩⟩) {target : String} {v : Value}
    {r : SheetRef} (hv : v.EveryRef R A) (h : SheetRef.read target v = .ok r) : R ⟨target, r⟩ := by
  cases v with
  | sheetRef r' =>
    rw [SheetRef.read] at h
    split at h
    · next heq =>
      cases h
      obtain rfl := beq_iff_eq.mp heq
      exact hv
    · cases h
  | list items => cases h
  | map entries => cases h
  | record cells => cases h
  | assetRef a => cases h
  | _ =>
    -- what is read from a scalar is a key that was not looked up yet
    rw [← Except.ok.inj h]
    exact hR _ _

theorem AssetRef.handle_parse (s : String) : (AssetRef.parse s).handle = none := by
  rw [AssetRef.parse]
  split <;> rfl

/-- A reference to an asset is read from a value that holds it, or is new. -/
theorem AssetRef.of_read (hA : ∀ path sub, A ⟨path, sub, none⟩) {v : Value} {a : AssetRef}
    (hv : v.EveryRef R A) (h : AssetRef.read v = .ok a) : A a := by
  have hnew : ∀ a : AssetRef, a.handle = none → A a := by
    rintro ⟨path, sub, handle⟩ rfl
    exact hA path sub
  cases v with
  | null =>
    cases h
    exact hnew _ rfl
  | assetRef a' =>
    cases h
    exact hv
  | text s =>
    rw [← Except.ok.inj h]
    exact hnew _ (AssetRef.handle_parse s)
  | _ => cases h

section Read

variable (hR : ∀ target key, R ⟨target, ⟨key, none⟩⟩) (hA : ∀ path sub, A ⟨path, sub, none⟩)

include hR hA

/-- A converter makes new references. -/
theorem CellType.refsHere_ofDatum (t : CellType) (d : Datum) : t.RefsHere R A (t.ofDatum d) := by
  cases t with
  | sheetRef target => cases d <;> exact hR _ _
  | assetRef => cases d <;> exact hA _ _
  | any => exact trivial
  | _ => trivial

theorem makingGives_everyRef : MakingGives (fun _ => True) (fun _ => True) (CellType.RefsHere R A)
    fun _ _ => True :=
  ⟨fun {t} d _ => t.refsHere_ofDatum hR hA d, fun _ _ => trivial⟩

/-- The references in what a converter makes are new. -/
theorem MemberType.everyRef_ofDatum (t : MemberType) (d : Datum) : t.EveryRef R A (t.ofDatum d) :=
  t.every_ofDatum (makingGives_everyRef hR hA) d t.all_true

/-- Reading gives references that the values hold, or new ones. -/
theorem readGives_everyRef : ReadGives (Value.EveryRef R A) (fun _ => True) (fun _ => True)
    (CellType.RefsHere R A) fun _ _ => True := by
  refine ⟨Value.partClosed_everyRef R A, ?_, fun _ _ _ => trivial, makingGives_everyRef hR hA⟩
  intro t n v x _ hv hread
  cases t with
  | sheetRef target => exact SheetRef.of_read hR hv hread
  | assetRef => exact AssetRef.of_read hA hv hread
  | any =>
    cases hread
    exact hv
  | _ => trivial

/-- The references in a cell that is read are those of its value, or new. -/
theorem CellType.everyRef_of_read {t : CellType} {n : Naming} {v : Value} {x : t.El}
    (hv : v.EveryRef R A) (h : t.read n v = .ok x) : t.EveryRef R A x :=
  t.every_of_read (readGives_everyRef hR hA) t.all_true hv h

/-- The references in members that are read are those of the cells, or new. -/
theorem Members.everyRef_of_read {ms : Members} {n : Naming} {row : RawRow} {x : ms.El}
    (hrow : ∀ column, (row.cell column).EveryRef R A) (h : ms.read n row = .ok x) :
    ms.EveryRef R A x :=
  ms.every_of_read (readGives_everyRef hR hA) ms.all_true hrow h

end Read

/-! ### Converters of rows -/

/-- Functions between an input and rows give a converter that reads back what it writes, if the
inputs that they give read back and are converted to the rows that they stand for. Only rows that
can be made are asked for: their sets and maps are sorted, and their references lead nowhere yet. -/
theorem MemberType.reverts_ofRows {form : RowsForm} {head : RecordHead} {ms : Members}
    (hms : ms.Static) {name : String} {input : InputType}
    {convert : input.El → Except CellError (form.Holder ms.El)}
    {revert : form.Holder ms.El → input.El}
    (h : ∀ xs, (∀ y ∈ form.items xs, ms.Canonical y ∧
        ms.EveryRef TargetRef.IsUnresolved AssetRef.IsUnresolved y) →
      input.read (input.print (revert xs)) = .ok (revert xs) ∧ convert (revert xs) = .ok xs) :
    (MemberType.rows form head ms (some (.ofRows form ms name input convert revert))).Reverts := by
  intro d
  have hmade : ∀ y ∈ form.items (form.ofDatum (fun d => ms.ofDatum d.items) d), ms.Canonical y ∧
      ms.EveryRef TargetRef.IsUnresolved AssetRef.IsUnresolved y := by
    intro y hy
    obtain ⟨w, rfl⟩ := form.exists_of_mem_ofDatum hy
    exact ⟨ms.every_ofDatum readGives_isSorted.made w.items (ms.staticKeys_of_static hms),
      ms.every_ofDatum (makingGives_everyRef (fun _ _ => rfl) fun _ _ => rfl) w.items ms.all_true⟩
  generalize form.ofDatum (fun d => ms.ofDatum d.items) d = xs at hmade ⊢
  -- nothing is lost where these rows are taken apart
  have hparts : form.ofDatum (fun d => ms.ofDatum d.items)
      (form.toDatum (fun x => .list (ms.toDatum x)) xs) = xs :=
    RowsForm.ofDatum_toDatum fun y hy => ms.ofDatum_toDatum hms (hmade y hy).1 (hmade y hy).2
  obtain ⟨hread, hconvert⟩ := h xs hmade
  simp only [RowsConverter.read, RowsConverter.print, RowsConverter.ofRows, hparts, hread, hconvert]
  exact congrArg Except.ok hparts

end TypedSheets
