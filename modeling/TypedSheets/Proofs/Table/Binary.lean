import TypedSheets.Cell.Binary
import TypedSheets.Proofs.Bytes.Codec
import TypedSheets.Proofs.Cell.Values
import TypedSheets.Proofs.Table.Keys
import TypedSheets.Table.Binary

/-!
# Reading rows back from their bytes

A typed value is read back from its bytes, whatever stands behind them. Sets and maps come back as
they were because they were sorted before. Dynamic values have no binary form, and numbers of
64 bits count what a value holds.

## Main definitions

* `CellType.Fits`, `Members.Fits` — no text and no collection in a value is longer than a length
  can tell
* `Table.KeptAs` — bytes under a key are those of a row with that key

## Main results

* `DataType.readsBack` — plain data is read back
* `CellType.readsBack`, `Members.readsBack` — so are typed values
* `RecordType.decode_encode` — so are rows
* `Table.Indexed.restoreFrom_eq_ok`, `Table.Indexed.of_restoreFrom` — when kept rows are added, and
  which rows they are
* `Table.Indexed.restore_encode` — a table is restored from the bytes of its rows
-/

namespace TypedSheets

open Bytes

/-! ### Lengths -/

/-- A list has no more items than a length can tell. -/
def ListFits {α : Type} (xs : List α) : Prop := xs.length < UInt64.size

instance {α : Type} (xs : List α) : Decidable (ListFits xs) :=
  inferInstanceAs (Decidable (xs.length < UInt64.size))

theorem listFits_nil {α : Type} : ListFits ([] : List α) := by
  change 0 < UInt64.size
  decide

/-- The text of a scalar is not too long. -/
def ScalarType.Fits : (s : ScalarType) → s.El → Prop
  | .text, s => TextFits s
  | _, _ => True

/-- Nothing in plain data is too long, and the numbers of choices have 32 bits. -/
def DataType.Fits : (d : DataType) → d.El → Prop
  | .scalar s => s.Fits
  | .choice _ last => fun (i : Fin (last + 1)) => i.val < UInt32.size
  | .option d => fun (x : Option d.El) => ∀ y, x = some y → d.Fits y
  | .list d => fun (xs : List d.El) => ListFits xs ∧ ∀ y ∈ xs, d.Fits y
  | .pair a b => fun (x : a.El × b.El) => a.Fits x.1 ∧ b.Fits x.2

/-- The texts of a handle are not too long. -/
structure AssetHandle.Fits (h : AssetHandle) : Prop where
  path : TextFits h.path
  sub : ∀ sub, h.sub = some sub → TextFits sub
  location : TextFits h.location

/-- The texts of a reference to an asset are not too long. -/
structure AssetRef.Fits (a : AssetRef) : Prop where
  path : TextFits a.path
  sub : ∀ sub, a.sub = some sub → TextFits sub
  handle : ∀ h, a.handle = some h → h.Fits

/-- The texts or the items that a value consists of are not too long or too many. -/
def CellType.FitsHere : (t : CellType) → t.El → Prop
  | .scalar s, x => s.Fits x
  | .sequence _ t, xs => @ListFits t.El xs
  | .set _ t, xs => @ListFits t.El xs
  | .map _ _ k v, es => @ListFits (k.El × v.El) es
  | .sheetRef _, (r : SheetRef) => TextFits r.key
  | .assetRef, (a : AssetRef) => a.Fits
  | _, _ => True

/-- The same for a member. -/
def MemberType.FitsHere : (t : MemberType) → t.El → Prop
  | .cell _, _ => True
  | .rows form _ _ _, xs => ListFits (form.items xs)
  | .converted c, y => c.output.Fits y
  | .ignored d, y => d.Fits y

/-- No text and no collection in a value is too long. -/
def CellType.Fits (t : CellType) (x : t.El) : Prop :=
  t.Every CellType.FitsHere MemberType.FitsHere x

/-- No text and no collection in the value of a member is too long. -/
def MemberType.Fits (t : MemberType) (x : t.El) : Prop :=
  t.Every CellType.FitsHere MemberType.FitsHere x

/-- No text and no collection in the values of members is too long. -/
def Members.Fits (ms : Members) (x : ms.El) : Prop :=
  ms.Every CellType.FitsHere MemberType.FitsHere x

/-! ### Values without parts -/

theorem ScalarType.readsBack : (s : ScalarType) → {x : s.El} → s.Fits x →
    ReadsBack s.encode s.decode x
  | .bool, b, _ => readsBack_bool b
  | .int k, x, _ => readsBack_int k x
  | .single, x, _ => readsBack_binary (f := .single) (by decide) x
  | .double, x, _ => readsBack_binary (f := .double) (by decide) x
  | .text, _, h => readsBack_string h

theorem DataType.readsBack_choice {last : Nat} {i : Fin (last + 1)} (h : i.val < UInt32.size) :
    ReadsBack (encodeChoice last) (decodeChoice last) i := by
  intro rest
  have hi : decodeNat 4 (encodeNat i.val ++ rest) = some (i.val, rest) :=
    decodeNat_encodeNat (by decide) h rest
  simp only [encodeChoice, decodeChoice, hi, i.isLt, dif_pos, Fin.eta]

/-- Plain data is read back. -/
theorem DataType.readsBack : (d : DataType) → {x : d.El} → d.Fits x → ReadsBack d.encode d.decode x
  | .scalar s, _, h => s.readsBack h
  | .choice _ _, _, h => readsBack_choice h
  | .option d, _, h => readsBack_option fun y hy => d.readsBack (h y hy)
  | .list d, _, h => readsBack_list h.1 fun y hy => d.readsBack (h.2 y hy)
  | .pair a b, _, h => readsBack_pair (a.readsBack h.1) (b.readsBack h.2)

theorem RowKey.readsBack (k : RowKey) : ReadsBack RowKey.encode RowKey.decode k := by
  intro rest
  have hk : decodeNat 8 (encodeNat k.packed.toNat ++ rest) = some (k.packed.toNat, rest) :=
    decodeNat_length k.packed.toNat_lt rest
  simp only [RowKey.encode, RowKey.decode, hk, Option.map_some, UInt64.ofNat_toNat]

theorem SheetRef.readsBack {r : SheetRef} (h : TextFits r.key) :
    ReadsBack SheetRef.encode SheetRef.decode r := by
  intro rest
  have hr := readsBack_pair (p := (r.key, r.resolved)) (readsBack_string h)
    (readsBack_option fun k _ => k.readsBack) rest
  rw [encodePair] at hr
  simp only [SheetRef.encode, SheetRef.decode, hr, Option.map_some]

theorem AssetHandle.readsBack {a : AssetHandle} (h : a.Fits) :
    ReadsBack AssetHandle.encode AssetHandle.decode a := by
  intro rest
  have ha := readsBack_pair (p := (a.path, a.sub, a.location)) (readsBack_string h.path)
    (readsBack_pair (readsBack_option fun sub hsub => readsBack_string (h.sub sub hsub))
      (readsBack_string h.location)) rest
  simp only [encodePair] at ha
  simp only [AssetHandle.encode, AssetHandle.decode, ha, Option.map_some]

theorem AssetRef.readsBack {a : AssetRef} (h : a.Fits) :
    ReadsBack AssetRef.encode AssetRef.decode a := by
  intro rest
  have ha := readsBack_pair (p := (a.path, a.sub, a.handle)) (readsBack_string h.path)
    (readsBack_pair (readsBack_option fun sub hsub => readsBack_string (h.sub sub hsub))
      (readsBack_option fun handle hhandle => AssetHandle.readsBack (h.handle handle hhandle)))
    rest
  simp only [encodePair] at ha
  simp only [AssetRef.encode, AssetRef.decode, ha, Option.map_some]

/-! ### Nested values -/

section Collections

variable {α : Type} {encode : α → List UInt8} {decode : Decoder α}

theorem readsBack_array {length : Nat} {xs : ListOf α length}
    (h : ∀ y ∈ xs.val, ReadsBack encode decode y) :
    ReadsBack (fun xs : ListOf α length => encodeItems encode xs.val)
      (decodeArray decode length) xs := by
  intro rest
  have hxs := decodeItems_encodeItems h rest
  rw [xs.property] at hxs
  simp only [decodeArray, hxs, xs.property, dif_pos, Subtype.coe_eta]

theorem RowsForm.readsBack {form : RowsForm} {xs : form.Holder α}
    (hfits : ListFits (form.items xs)) (h : ∀ y ∈ form.items xs, ReadsBack encode decode y) :
    ReadsBack (form.encode encode) (form.decode decode) xs := by
  cases form with
  | list => exact readsBack_list hfits h
  | boxedSlice => exact readsBack_list hfits h
  | array length => exact readsBack_array h

/-- A set is read back: it is sorted again, which changes nothing. -/
theorem readsBack_set {cmp : α → α → Ordering} [Std.OrientedCmp cmp] {xs : List α}
    (hsorted : Increasing cmp xs) (hfits : ListFits xs)
    (h : ∀ y ∈ xs, ReadsBack encode decode y) :
    ReadsBack (encodeList encode)
      (fun bytes => (decodeList decode bytes).map fun (ys, rest) => (keysOfList cmp ys, rest))
      xs := by
  intro rest
  simp only [readsBack_list hfits h rest, Option.map_some, keysOfList_eq_self hsorted]

/-- A map is read back. -/
theorem readsBack_map {β : Type} {encode' : β → List UInt8} {decode' : Decoder β}
    {cmp : α → α → Ordering} [Std.OrientedCmp cmp] {es : List (α × β)}
    (hsorted : Increasing cmp (es.map Prod.fst)) (hfits : ListFits es)
    (h : ∀ e ∈ es, ReadsBack encode decode e.1 ∧ ReadsBack encode' decode' e.2) :
    ReadsBack (encodeList (encodePair encode encode'))
      (fun bytes => (decodeList (decodePair decode decode') bytes).map
        fun (es, rest) => (Entries.ofList cmp es, rest)) es := by
  intro rest
  have hes := readsBack_list hfits (fun e he => readsBack_pair (h e he).1 (h e he).2) rest
  simp only [hes, Option.map_some, Entries.ofList_eq_self hsorted]

end Collections

mutual

/-- A typed value that is sorted and not too long is read back. -/
theorem CellType.readsBack : (t : CellType) → {x : t.El} → t.Static → t.Canonical x → t.Fits x →
    ReadsBack t.encode t.decode x
  | .scalar s, _, _, _, hf => s.readsBack hf
  | .option t, _, hs, hc, hf => readsBack_option fun y hy =>
    t.readsBack hs.2 (hc.2 y hy) (hf.2 y hy)
  | .sequence _ t, _, hs, hc, hf => readsBack_list hf.1 fun y hy =>
    t.readsBack hs.2 (hc.2 y hy) (hf.2 y hy)
  | .array t _, _, hs, hc, hf => readsBack_array fun y hy =>
    t.readsBack hs.2 (hc.2 y hy) (hf.2 y hy)
  | .set _ t, _, hs, hc, hf => by
    have := t.cmp_lawful hs.2
    exact readsBack_set hc.1 hf.1 fun y hy => t.readsBack hs.2 (hc.2 y hy) (hf.2 y hy)
  | .map _ _ k v, _, hs, hc, hf => by
    have := k.cmp_lawful hs.2.1
    exact readsBack_map hc.1 hf.1 fun e he =>
      ⟨k.readsBack hs.2.1 (hc.2 e he).1 (hf.2 e he).1,
        v.readsBack hs.2.2 (hc.2 e he).2 (hf.2 e he).2⟩
  | .sheetRef _, _, _, _, hf => SheetRef.readsBack hf
  | .assetRef, _, _, _, hf => AssetRef.readsBack hf
  | .record _ ms, _, hs, hc, hf => ms.readsBack hs.2 hc.2 hf.2
  | .any, _, hs, _, _ => hs.elim

theorem MemberType.readsBack : (t : MemberType) → {x : t.El} →
    t.All CellType.IsStatic (fun _ => True) → t.Every CellType.IsSorted (fun _ _ => True) x →
    t.Fits x → ReadsBack t.encode t.decode x
  | .cell t, _, hs, hc, hf => t.readsBack hs.2 hc.2 hf.2
  | .rows _ _ ms _, _, hs, hc, hf => RowsForm.readsBack hf.1 fun y hy =>
    ms.readsBack hs.2 (hc.2 y hy) (hf.2 y hy)
  | .converted c, _, _, _, hf => c.output.readsBack hf
  | .ignored d, _, _, _, hf => d.readsBack hf

theorem Members.readsBack : (ms : Members) → {x : ms.El} → ms.Static → ms.Canonical x →
    ms.Fits x → ReadsBack ms.encode ms.decode x
  | .nil, _, _, _, _ => fun _ => rfl
  | .cons _ t rest, _, hs, hc, hf =>
    readsBack_pair (t.readsBack hs.1 hc.1 hf.1) (rest.readsBack hs.2 hc.2 hf.2)

end

/-- A row is read back from its bytes. -/
theorem RecordType.decode_encode {r : RecordType} {x : r.Row} (hs : r.members.Static)
    (hc : r.members.Canonical x) (hf : r.members.Fits x) : r.decode? (r.encode x) = some x := by
  have hx := r.members.readsBack hs hc hf []
  rw [List.append_nil] at hx
  rw [decode?, encode, hx, Option.map_some]

end TypedSheets

/-! ## Restoring tables from their bytes -/

namespace TypedSheets

namespace Table

variable {t : TableType} {table : Table t}

theorem map_fst_encode (table : Table t) : table.encode.map Prod.fst = table.keys := by
  rw [encode, List.map_map, keys]
  rfl

theorem Indexed.ext {other : Table t} (h : table.Indexed) (h' : other.Indexed)
    (hname : table.name = other.name) (hrows : table.rows.toList = other.rows.toList) :
    table = other := by
  have hkeys : table.keys = other.keys := by rw [keys, keys, hrows]
  have hindex : table.index = other.index := by rw [h.index_eq, h'.index_eq, hkeys]
  obtain ⟨name, rows, index⟩ := table
  obtain ⟨name', rows', index'⟩ := other
  obtain rfl : name = name' := hname
  obtain rfl : rows = rows' := Array.toList_inj.mp hrows
  obtain rfl : index = index' := hindex
  rfl

/-- Bytes that are kept under a key are those of a row with that key. -/
def KeptAs (t : TableType) (entry : String × List UInt8) (row : t.Row) : Prop :=
  t.record.decode? entry.2 = some row ∧ t.key row = entry.1

/-- Kept rows are added to a table if no two of its rows have one key then. -/
theorem Indexed.restoreFrom_eq_ok (h : table.Indexed) {kept : List (String × List UInt8)}
    {rows : List t.Row} (hrows : List.Forall₂ (KeptAs t) kept rows)
    (hnodup : (table.keys ++ kept.map Prod.fst).Nodup) :
    ∃ next, table.restoreFrom kept = .ok next ∧ next.Indexed ∧ next.name = table.name ∧
      next.rows.toList = table.rows.toList ++ rows := by
  -- on the rows still to be put back; those put back are in the table
  induction hrows generalizing table with
  | nil => exact ⟨table, rfl, h, rfl, (List.append_nil _).symm⟩
  | @cons entry row kept rows hrow _ ih =>
    obtain ⟨key, bytes⟩ := entry
    obtain ⟨hdecode, rfl⟩ := hrow
    rw [List.map_cons] at hnodup
    have hnew : t.key row ∉ table.keys := fun hmem =>
      (List.nodup_cons.mp (List.perm_middle.nodup_iff.mp hnodup)).1 (List.mem_append_left _ hmem)
    have hpush := h.push_eq_ok_iff.mpr ⟨hnew, rfl⟩
    generalize Table.mk table.name _ _ = next at hpush
    obtain ⟨last, hlast, hindexed, hname, hlist⟩ :=
      ih (h.push hpush) (by rwa [keys_push hpush, List.append_assoc])
    refine ⟨last, ?_, hindexed, hname.trans (name_push hpush), ?_⟩
    · rw [restoreFrom, hdecode]
      simp only [ne_eq, not_true_eq_false, if_false, hpush]
      exact hlast
    · rw [hlist, rows_push hpush, Array.toList_push, List.append_assoc]
      rfl

/-- Rows that are added are those that the bytes under their keys are read as. -/
theorem Indexed.of_restoreFrom (h : table.Indexed) {kept : List (String × List UInt8)}
    {next : Table t} (hrestore : table.restoreFrom kept = .ok next) : next.Indexed ∧
      ∃ rows, next.rows.toList = table.rows.toList ++ rows ∧
        List.Forall₂ (KeptAs t) kept rows := by
  induction kept generalizing table with
  | nil =>
    cases hrestore
    exact ⟨h, [], (List.append_nil _).symm, .nil⟩
  | cons entry rest ih =>
    rw [restoreFrom] at hrestore
    split at hrestore
    · cases hrestore
    · next row hdecode =>
      split at hrestore
      · cases hrestore
      · next hkey =>
        split at hrestore
        · cases hrestore
        · next pushed hpush =>
          obtain ⟨hindexed, rows, hrows, hkept⟩ := ih (h.push hpush) hrestore
          refine ⟨hindexed, row :: rows, ?_, .cons ⟨hdecode, not_not.mp hkey⟩ hkept⟩
          rw [hrows, rows_push hpush, Array.toList_push, List.append_assoc]
          rfl

/-- A table is restored from the bytes of its rows. -/
theorem Indexed.restore_encode (h : table.Indexed)
    (hrows : ∀ row ∈ table.rows.toList, t.record.decode? (t.record.encode row) = some row) :
    restore t table.name table.encode = .ok table := by
  have hkept : List.Forall₂ (KeptAs t) table.encode table.rows.toList := by
    rw [encode, List.forall₂_map_left_iff, List.forall₂_same]
    exact fun row hrow => ⟨hrows row hrow, rfl⟩
  have hnodup : (table.encode.map Prod.fst).Nodup := by
    rw [map_fst_encode]
    exact h.nodup
  obtain ⟨next, hnext, hindexed, hname, hlist⟩ :=
    (indexed_empty t table.name).restoreFrom_eq_ok hkept hnodup
  rw [restore, hnext, hindexed.ext h hname hlist]

end Table

end TypedSheets
