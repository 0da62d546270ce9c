import TypedSheets.Schema.Shape

/-!
# Collection kinds

How a member collects its values, as far as its declared type shows it. Known types are recognised
exactly, others by the end of their name and the number of their arguments, and everything else is
a scalar.

* `CollectionKind` — the kinds
* `CollectionKind.of` — the kind of a shape
* `CollectionKind.elementShapes` — the shapes of keys and elements
-/

namespace TypedSheets

/-- How a member collects its values. -/
inductive CollectionKind where
  | scalar
  | array
  | list
  | dictionary
  | set
  | queue
  | stack
  | readOnlyMemoryView
  | memoryView
  | readOnlySpanView
  | spanView
  | readOnlyList
  | readOnlyDictionary
  deriving DecidableEq, Repr

namespace CollectionKind

/-- The kinds in the order in which they are listed. -/
def all : List CollectionKind :=
  [.scalar, .array, .list, .dictionary, .set, .queue, .stack, .readOnlyMemoryView, .memoryView,
    .readOnlySpanView, .spanView, .readOnlyList, .readOnlyDictionary]

/-- The kind's name. -/
def name : CollectionKind → String
  | .scalar => "Scalar"
  | .array => "Array"
  | .list => "List"
  | .dictionary => "Dictionary"
  | .set => "Set"
  | .queue => "Queue"
  | .stack => "Stack"
  | .readOnlyMemoryView => "ReadOnlyMemoryView"
  | .memoryView => "MemoryView"
  | .readOnlySpanView => "ReadOnlySpanView"
  | .spanView => "SpanView"
  | .readOnlyList => "ReadOnlyList"
  | .readOnlyDictionary => "ReadOnlyDictionary"

/-- A view through which nothing is replaced. -/
def isReadOnly : CollectionKind → Bool
  | .readOnlyMemoryView | .readOnlySpanView | .readOnlyList | .readOnlyDictionary => true
  | _ => false

/-- A collection with keys. -/
def isKeyed : CollectionKind → Bool
  | .dictionary | .readOnlyDictionary => true
  | _ => false

/-- A collection whose elements have positions, as a vertical list needs. -/
def isSequence : CollectionKind → Bool
  | .array | .list | .memoryView => true
  | _ => false

/-- The kind of a path by its last segment, where no pointer is involved. -/
def ofPath? (ident : String) (args : List TypeShape) : Option CollectionKind :=
  match args with
  | [] => none
  | [_] =>
    if ident == "Vec" then some .list
    else if ident == "HashSet" || ident == "BTreeSet" then some .set
    else if ident == "VecDeque" then some .queue
    else if ident == "Stack" then some .stack
    else none
  | _ :: _ :: _ =>
    if ident == "HashMap" || ident == "BTreeMap" then some .dictionary
    else if ident == "HashSet" || ident == "BTreeSet" then some .set
    else none

/-- Whether a last segment names a shared pointer. -/
def isShared (ident : String) : Bool := ident == "Arc" || ident == "Rc"

/-- The kind of a view of a collection that is shared. -/
def shared? : Option CollectionKind → Option CollectionKind
  | some .list => some .readOnlyList
  | some .dictionary => some .readOnlyDictionary
  | _ => none

/-- The kind of a shape that is known exactly. -/
def known? : TypeShape → Option CollectionKind
  | .array _ _ => some .array
  | .reference isMutable inner =>
    if inner.isSlice then some (if isMutable then .spanView else .readOnlySpanView) else none
  | .path segments [inner] =>
    match segments.getLast? with
    | none => none
    | some ident =>
      if ident == "Box" && inner.isSlice then some .memoryView
      else if isShared ident then
        if inner.isSlice then some .readOnlyMemoryView else shared? (known? inner)
      else ofPath? ident [inner]
  | .path segments args => segments.getLast?.bind fun ident => ofPath? ident args
  | _ => none

/-- Whether a text ends so. -/
def endsWith (s ending : String) : Bool := ending.toList.isSuffixOf s.toList

/-- The kind that a name suggests by its end, with the right number of arguments. -/
def structural? (s : TypeShape) : Option CollectionKind :=
  match s.ident?, s.args with
  | some ident, [_, _] => if endsWith ident "Map" then some .dictionary else none
  | some ident, [_] =>
    if endsWith ident "Set" then some .set
    else if endsWith ident "List" || endsWith ident "Vec" then some .list
    else if endsWith ident "Queue" || endsWith ident "Deque" then some .queue
    else if endsWith ident "Stack" then some .stack
    else none
  | _, _ => none

/-- The kind of a shape; what is not recognised is a scalar. -/
def of (s : TypeShape) : CollectionKind := ((known? s).or (structural? s)).getD .scalar

/-- The shape of the elements of a slice. -/
def sliceElement? : TypeShape → Option TypeShape
  | .slice elem => some elem
  | _ => none

/-- The shapes of the keys and of the elements of a shape of that kind. A sequence has elements
only, a scalar neither. -/
def elementShapes (kind : CollectionKind) (s : TypeShape) :
    Option TypeShape × Option TypeShape :=
  match kind, s with
  | .scalar, _ => (none, none)
  | .array, .array elem _ => (none, some elem)
  | .readOnlySpanView, .reference _ inner => (none, sliceElement? inner)
  | .spanView, .reference _ inner => (none, sliceElement? inner)
  | .memoryView, s => (none, s.args.head?.bind sliceElement?)
  | .readOnlyMemoryView, s => (none, s.args.head?.bind sliceElement?)
  | .readOnlyList, s => (none, s.args.head?.bind fun inner => inner.args.head?)
  | .readOnlyDictionary, s =>
    match s.args with
    | inner :: _ => entryShapes inner
    | [] => (none, none)
  | .dictionary, s => entryShapes s
  | _, s => (none, s.args.head?)
where
  /-- The shapes of the keys and values of a map. -/
  entryShapes (s : TypeShape) : Option TypeShape × Option TypeShape :=
    match s.args with
    | key :: value :: _ => (some key, some value)
    | _ => (none, none)

theorem sizeOf_lt_of_mem_args {x s : TypeShape} (h : x ∈ s.args) : sizeOf x < sizeOf s := by
  cases s <;> simp only [TypeShape.args, List.not_mem_nil] at h
  next segments args =>
    have := List.sizeOf_lt_of_mem h
    simp only [TypeShape.path.sizeOf_spec]
    omega

theorem sizeOf_lt_of_sliceElement? {x s : TypeShape} (h : sliceElement? s = some x) :
    sizeOf x < sizeOf s := by
  cases s <;> simp only [sliceElement?, reduceCtorEq, Option.some.injEq] at h
  subst h
  simp

theorem sizeOf_lt_of_slice_arg {x s : TypeShape}
    (h : s.args.head?.bind sliceElement? = some x) : sizeOf x < sizeOf s := by
  obtain ⟨y, hy, hx⟩ := Option.bind_eq_some_iff.mp h
  exact Nat.lt_trans (sizeOf_lt_of_sliceElement? hx)
    (sizeOf_lt_of_mem_args (List.mem_of_head? hy))

theorem sizeOf_lt_of_entryShapes {x s : TypeShape}
    (h : (elementShapes.entryShapes s).1 = some x ∨ (elementShapes.entryShapes s).2 = some x) :
    sizeOf x < sizeOf s := by
  unfold elementShapes.entryShapes at h
  split at h
  · next key value rest hs =>
    rcases h with h | h <;> cases h <;> exact sizeOf_lt_of_mem_args (by simp [hs])
  · simp at h

/-- The shapes of keys and elements are parts of the shape. -/
theorem sizeOf_lt_of_elementShapes {kind : CollectionKind} {x s : TypeShape}
    (h : (elementShapes kind s).1 = some x ∨ (elementShapes kind s).2 = some x) :
    sizeOf x < sizeOf s := by
  unfold elementShapes at h
  split at h
  · simp at h
  · next elem length => simp at h; subst h; simp; omega
  · next m inner =>
    simp only [reduceCtorEq, false_or] at h
    have := sizeOf_lt_of_sliceElement? h
    simp only [TypeShape.reference.sizeOf_spec]
    omega
  · next m inner =>
    simp only [reduceCtorEq, false_or] at h
    have := sizeOf_lt_of_sliceElement? h
    simp only [TypeShape.reference.sizeOf_spec]
    omega
  · simp only [reduceCtorEq, false_or] at h
    exact sizeOf_lt_of_slice_arg h
  · simp only [reduceCtorEq, false_or] at h
    exact sizeOf_lt_of_slice_arg h
  · simp only [reduceCtorEq, false_or] at h
    obtain ⟨y, hy, hx⟩ := Option.bind_eq_some_iff.mp h
    exact Nat.lt_trans (sizeOf_lt_of_mem_args (List.mem_of_head? hx))
      (sizeOf_lt_of_mem_args (List.mem_of_head? hy))
  · split at h
    · next inner rest hs =>
      exact Nat.lt_trans (sizeOf_lt_of_entryShapes h) (sizeOf_lt_of_mem_args (by simp [hs]))
    · simp at h
  · exact sizeOf_lt_of_entryShapes h
  · simp only [reduceCtorEq, false_or] at h
    exact sizeOf_lt_of_mem_args (List.mem_of_head? h)

end CollectionKind

end TypedSheets
