/-!
# Sorted entries

A finite map as the list of its entries in the order of their keys. The order is given by a
comparison of keys, and equal keys share one entry.

* `Entries.insert` — replaces the value of a key, or adds an entry in its place
* `Entries.get?`, `Entries.erase` — look up and remove
* `Entries.ofList` — the map of a list of entries, the last of several with one key
* `insertKey`, `keysOfList` — the same for sets
-/

namespace TypedSheets

/-- The entries of a finite map, sorted by key. -/
abbrev Entries (α β : Type) := List (α × β)

namespace Entries

variable {α β : Type}

/-- Replaces the value of a key, or adds an entry at the place of the key. A key that is there
stays as it is. -/
def insert (cmp : α → α → Ordering) (k : α) (v : β) : Entries α β → Entries α β
  | [] => [(k, v)]
  | (k', v') :: rest =>
    match cmp k k' with
    | .lt => (k, v) :: (k', v') :: rest
    | .eq => (k', v) :: rest
    | .gt => (k', v') :: insert cmp k v rest

/-- The value of a key. -/
def get? (cmp : α → α → Ordering) (k : α) : Entries α β → Option β
  | [] => none
  | (k', v) :: rest => if cmp k k' == .eq then some v else get? cmp k rest

/-- Removes the entry of a key. -/
def erase (cmp : α → α → Ordering) (k : α) (entries : Entries α β) : Entries α β :=
  entries.filter (fun e => cmp k e.1 != .eq)

/-- The map of a list of entries; of several with one key the last gives the value. -/
def ofList (cmp : α → α → Ordering) (entries : List (α × β)) : Entries α β :=
  entries.foldl (fun done e => insert cmp e.1 e.2 done) []

variable {cmp : α → α → Ordering}

@[simp] theorem get?_nil (cmp : α → α → Ordering) (k : α) :
    get? cmp k ([] : Entries α β) = none := rfl

theorem get?_insert [Std.LawfulEqCmp cmp] (k a : α) (v : β)
    (es : Entries α β) :
    get? cmp k (insert cmp a v es) = if cmp k a == .eq then some v else get? cmp k es := by
  induction es with
  | nil => rfl
  | cons e rest ih =>
    obtain ⟨k', v'⟩ := e
    rw [insert]
    split
    · rfl
    · next h =>
      obtain rfl := Std.LawfulEqCmp.eq_of_compare h
      by_cases hk : cmp k a == .eq <;> simp [get?, hk]
    · next h =>
      rw [get?, ih, get?]
      by_cases hk : cmp k k' == .eq
      · -- the key looked up stands first, so it is not the one inserted behind it
        have hne : ¬ (cmp k a == .eq) := by
          intro ha
          obtain rfl := Std.LawfulEqCmp.eq_of_compare (beq_iff_eq.mp hk)
          obtain rfl := Std.LawfulEqCmp.eq_of_compare (beq_iff_eq.mp ha)
          simp [Std.ReflCmp.compare_self] at h
        simp [hk, hne]
      · simp [hk]

theorem get?_erase [Std.LawfulEqCmp cmp] (k a : α) (es : Entries α β) :
    get? cmp k (erase cmp a es) = if cmp k a == .eq then none else get? cmp k es := by
  induction es with
  | nil => simp [erase]
  | cons e rest ih =>
    obtain ⟨k', v'⟩ := e
    simp only [erase, List.filter_cons] at ih ⊢
    by_cases ha : cmp a k' = .eq
    · -- the entry in front goes
      obtain rfl := Std.LawfulEqCmp.eq_of_compare ha
      by_cases hk : cmp k a = .eq
      · simp_all
      · simp_all [get?]
    · by_cases hk : cmp k k' = .eq
      · -- the entry in front stays and is the one looked up
        obtain rfl := Std.LawfulEqCmp.eq_of_compare hk
        have hka : cmp k a ≠ .eq := fun h => by
          obtain rfl := Std.LawfulEqCmp.eq_of_compare h
          exact ha Std.ReflCmp.compare_self
        simp_all [get?]
      · simp_all [get?]

end Entries

/-- Adds an element to a sorted list of distinct elements. -/
def insertKey {α : Type} (cmp : α → α → Ordering) (k : α) : List α → List α
  | [] => [k]
  | k' :: rest =>
    match cmp k k' with
    | .lt => k :: k' :: rest
    | .eq => k' :: rest
    | .gt => k' :: insertKey cmp k rest

/-- The distinct elements of a list, sorted. -/
def keysOfList {α : Type} (cmp : α → α → Ordering) (keys : List α) : List α :=
  keys.foldl (fun done k => insertKey cmp k done) []

/-- Texts are ordered by their code points, which is the order of their UTF-8 bytes. -/
def compareText (a b : String) : Ordering := compare a b

instance : Std.ReflCmp compareText := inferInstanceAs (Std.ReflCmp (compare (α := String)))

instance : Std.LawfulEqCmp compareText :=
  inferInstanceAs (Std.LawfulEqCmp (compare (α := String)))

theorem compareText_eq_iff {a b : String} : compareText a b = .eq ↔ a = b :=
  ⟨Std.LawfulEqCmp.eq_of_compare, fun h => h ▸ Std.ReflCmp.compare_self⟩

end TypedSheets
