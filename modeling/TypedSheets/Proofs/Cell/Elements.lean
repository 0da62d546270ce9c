import TypedSheets.Proofs.Cell.RoundTrip

/-!
# Collections with one element replaced

A printed list or map in which one element is replaced by some value is read again. All other
elements and all keys of a map are what they were printed from, and the new element is what the
type of the elements reads from the value. This is so for sequences, arrays and maps that keep
their keys in order. A set puts its elements in order and drops those that it has already, so there
is no such thing as its third element.

## Main definitions

* `Value.elements`, `Value.keys` — the elements of a printed collection, and the keys of a map
* `Value.putElement` — the collection with another element
* `CellType.element?` — the type of the elements that are replaced one by one

## Main results

* `Value.elements_putElement`, `Value.keys_putElement` — one element is replaced, and no key
* `readEach_set`, `readArray_set`, `readMap_modify` — reading with one element replaced
* `CellType.read_putElement` — the same for a collection that was read from something before
-/

namespace TypedSheets

/-! ### Elements of printed collections -/

theorem map_modify {α β : Type} {f : α → β} {g : α → α} (h : β → β)
    (hcomm : ∀ a, f (g a) = h (f a)) (xs : List α) (i : Nat) :
    (xs.modify i g).map f = (xs.map f).modify i h := by
  induction xs generalizing i with
  | nil => cases i <;> rfl
  | cons x rest ih =>
    cases i with
    | zero => simp [hcomm]
    | succ i => simp [ih]

theorem map_fst_modify {α β : Type} (es : List (α × β)) (i : Nat) (y : β) :
    (es.modify i fun e => (e.1, y)).map Prod.fst = es.map Prod.fst :=
  (map_modify (f := Prod.fst) (g := fun e : α × β => (e.1, y)) id (fun _ => rfl) es i).trans
    (List.modify_id i _)

namespace Value

/-- A list or a map. -/
def IsCollection : Value → Prop
  | .list _ => True
  | .map _ => True
  | _ => False

/-- The elements of a list, or the values of a map. -/
def elements : Value → List Value
  | .list items => items
  | .map entries => entries.map Prod.snd
  | _ => []

/-- The keys of a map. -/
def keys : Value → List Value
  | .map entries => entries.map Prod.fst
  | _ => []

/-- The collection with another element; in a map the key of the entry stays. -/
def putElement (whole : Value) (i : Nat) (v : Value) : Value :=
  match whole with
  | .list items => .list (items.set i v)
  | .map entries => .map (entries.modify i fun e => (e.1, v))
  | other => other

variable (whole : Value) (i : Nat) (v : Value)

theorem elements_putElement : (whole.putElement i v).elements = whole.elements.set i v := by
  cases whole with
  | map entries =>
    change (entries.modify i fun e => (e.1, v)).map Prod.snd = (entries.map Prod.snd).set i v
    rw [map_modify (fun _ => v) fun e : Value × Value => rfl, List.set_eq_modify]
  | _ => rfl

theorem keys_putElement : (whole.putElement i v).keys = whole.keys := by
  cases whole with
  | map entries => exact map_fst_modify entries i v
  | _ => rfl

variable {whole}

theorem IsCollection.putElement (h : whole.IsCollection) :
    (whole.putElement i v).IsCollection := by
  cases whole with
  | list items => trivial
  | map entries => trivial
  | _ => cases h

end Value

/-! ### Reading a collection with one element replaced -/

section Read

variable {α β : Type} {read : Value → Except CellError α} {i : Nat}

/-- The items before the replaced one are read as before, so an error is that of the new one. -/
theorem readEach_set {vs : List Value} {xs : List α} (h : readEach read vs = .ok xs)
    (hi : i < vs.length) (v : Value) :
    readEach read (vs.set i v) = (read v).map (xs.set i) := by
  induction vs generalizing xs i with
  | nil => simp at hi
  | cons w rest ih =>
    obtain ⟨x, ys, hw, hrest, rfl⟩ := List.forall₂_cons_left_iff.mp (readEach_eq_ok_iff.mp h)
    have hread : readEach read rest = .ok ys := readEach_eq_ok_iff.mpr hrest
    cases i with
    | zero =>
      rw [List.set_cons_zero, readEach, hread]
      cases read v <;> rfl
    | succ i =>
      rw [List.set_cons_succ, readEach, hw, ih hread (Nat.lt_of_succ_lt_succ hi)]
      cases read v <;> rfl

/-- The same for entries, of which one gets another value under its key. -/
theorem readEntries_modify {readKey : Value → Except CellError β} {vs : List (Value × Value)}
    {es : List (β × α)} (h : readEntries readKey read vs = .ok es) (hi : i < vs.length)
    (v : Value) :
    readEntries readKey read (vs.modify i fun e => (e.1, v)) =
      (read v).map fun x => es.modify i fun e => (e.1, x) := by
  -- on the entries up to the one that is modified; those behind it are read as before
  induction vs generalizing es i with
  | nil => simp at hi
  | cons w rest ih =>
    obtain ⟨e, fs, ⟨hkey, hvalue⟩, hrest, rfl⟩ :=
      List.forall₂_cons_left_iff.mp (readEntries_eq_ok_iff.mp h)
    have hread : readEntries readKey read rest = .ok fs := readEntries_eq_ok_iff.mpr hrest
    cases i with
    | zero =>
      rw [List.modify_zero_cons, readEntries, hkey, hread]
      cases read v <;> rfl
    | succ i =>
      rw [List.modify_succ_cons, readEntries, hkey, hvalue, ih hread (Nat.lt_of_succ_lt_succ hi)]
      cases read v <;> rfl

theorem readArray_set {length : Nat} {vs : List Value} {xs : ListOf α length}
    (h : readArray read length (.list vs) = .ok xs) (hi : i < vs.length) (v : Value) :
    readArray read length (.list (vs.set i v)) =
      (read v).map fun x => ⟨xs.val.set i x, by simp [xs.property]⟩ := by
  obtain ⟨_, ⟨⟩, heach⟩ := readArray_eq_ok h
  -- an array with an element to replace is not filled up with nulls
  have hfull : ∀ ws : List Value, ws.length = vs.length →
      (if ws.isEmpty then List.replicate length .null else ws) = ws := by
    intro ws hws
    apply if_neg
    rw [List.isEmpty_iff]
    rintro rfl
    rw [← hws] at hi
    simp at hi
  rw [hfull vs rfl] at heach
  have hset := readEach_set heach hi v
  rw [readArray, Value.items]
  simp only [hfull (vs.set i v) List.length_set, hset]
  cases read v with
  | error e => rfl
  | ok x => simp [Except.map, xs.property]

theorem readMap_modify {cmp : β → β → Ordering} [Std.OrientedCmp cmp]
    {readKey : Value → Except CellError β} {vs : List (Value × Value)} {es : List (β × α)}
    (h : readEntries readKey read vs = .ok es) (hkeys : Increasing cmp (es.map Prod.fst))
    (hi : i < vs.length) (v : Value) :
    readMap cmp readKey read (.map (vs.modify i fun e => (e.1, v))) =
      (read v).map fun x => es.modify i fun e => (e.1, x) := by
  rw [readMap, Value.entries]
  simp only [readEntries_modify h hi v]
  cases read v with
  | error e => rfl
  | ok x =>
    -- the keys are those of before, so they still increase
    apply congrArg Except.ok
    exact Entries.ofList_eq_self (by rwa [map_fst_modify])

end Read

/-! ### Collections of a cell type -/

namespace CellType

/-- The type of the elements where they are replaced one by one: in sequences, in arrays and in
maps that keep their keys in order. -/
def element? : CellType → Option CellType
  | .sequence _ e => some e
  | .array e _ => some e
  | .map .sorted _ _ e => some e
  | _ => none

/-- The entries of a map that was read are read back one by one. -/
theorem readEntries_print {form : KeyedForm} {shared : Bool} {k e : CellType} {n : Naming}
    {v : Value} {es : List (k.El × e.El)} (hkeys : (map form shared k e).StaticKeys)
    (hreverts : (map form shared k e).Reverting) (hcolumns : (map form shared k e).DistinctColumns)
    (hread : (map form shared k e).read n v = .ok es) :
    readEntries (k.read .pascal) (e.read .pascal)
      (es.map fun a => (k.print .pascal a.1, e.print .pascal a.2)) = .ok es := by
  refine (readEntries_map fun a ha => ?_).trans (congrArg Except.ok (List.map_id es))
  obtain ⟨_, -, ⟨_, -, hkey⟩, _, -, hvalue⟩ := exists_of_mem_readMap hread ha
  exact ⟨read_print hkeys.2.1 hreverts.2.1 hcolumns.2.1 .pascal hkey,
    read_print hkeys.2.2 hreverts.2.2 hcolumns.2.2 .pascal hvalue⟩

variable {t e : CellType} (he : t.element? = some e)

include he

theorem isCollection_print (n : Naming) (x : t.El) : (t.print n x).IsCollection := by
  cases t with
  | sequence form t => trivial
  | array t length => trivial
  | map form shared k v => trivial
  | _ => cases he

/-- A collection that was read from something is read again with one of its printed elements
replaced. It is then the collection with what the type of the elements reads in that place; if that
type does not read the new element, the error is the same. -/
theorem read_putElement {n : Naming} {v : Value} {y : t.El} (hkeys : t.StaticKeys)
    (hreverts : t.Reverting) (hcolumns : t.DistinctColumns) (hread : t.read n v = .ok y) {i : Nat}
    (hi : i < (t.print .pascal y).elements.length) (new : Value) :
    (t.read .pascal ((t.print .pascal y).putElement i new)).map (t.print .pascal) =
      ((e.read .pascal new).map (e.print .pascal)).map ((t.print .pascal y).putElement i) := by
  have hback := read_print hkeys hreverts hcolumns .pascal hread
  cases t with
  | sequence form t =>
    cases he
    have hset : (sequence form e).read .pascal
        (((sequence form e).print .pascal y).putElement i new) =
      (e.read .pascal new).map (y.set i) := readEach_set hback hi new
    rw [hset]
    cases e.read .pascal new with
    | error cause => rfl
    | ok x => exact congrArg (fun xs => Except.ok (Value.list xs)) List.map_set
  | array t length =>
    cases he
    have hset : (array e length).read .pascal
        (((array e length).print .pascal y).putElement i new) =
      (e.read .pascal new).map fun x =>
        (⟨y.val.set i x, by simp [y.property]⟩ : ListOf e.El length) := readArray_set hback hi new
    rw [hset]
    cases e.read .pascal new with
    | error cause => rfl
    | ok x => exact congrArg (fun xs => Except.ok (Value.list xs)) List.map_set
  | map form shared k t =>
    cases form with
    | hashed => cases he
    | sorted =>
      cases he
      -- the keys of a map that was read increase, which takes that they are ordered at all
      have horder := k.cmp_lawful hkeys.1
      have hincreasing : Increasing k.cmp (y.map Prod.fst) := by
        obtain ⟨_, es, -, -, rfl⟩ := readMap_eq_ok hread
        exact Entries.increasing_ofList es
      have hlt : i < (y.map fun a => (k.print .pascal a.1, e.print .pascal a.2)).length := by
        rwa [← List.length_map (f := Prod.snd)]
      have hput : (map .sorted shared k e).read .pascal
          (((map .sorted shared k e).print .pascal y).putElement i new) =
        (e.read .pascal new).map fun x => y.modify i fun a => (a.1, x) :=
        readMap_modify (readEntries_print hkeys hreverts hcolumns hread) hincreasing hlt new
      rw [hput]
      cases e.read .pascal new with
      | error cause => rfl
      | ok x =>
        apply congrArg (fun es => Except.ok (Value.map es))
        exact map_modify (fun a => (a.1, e.print .pascal x)) (fun _ => rfl) y i
  | _ => cases he

end CellType

end TypedSheets
