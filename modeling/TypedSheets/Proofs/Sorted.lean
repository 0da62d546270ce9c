import Mathlib.Data.List.Basic
import Mathlib.Data.List.Nodup
import TypedSheets.Entries

/-!
# Sorted sets and maps

Sets and maps are lists that are sorted by insertion. Nothing gets into such a list but what was
inserted, whatever the comparison is. If the comparison is an order, the keys of the list increase,
and a list whose keys increase is left as it is.

A sorted map is known by its answers, and each change of a map changes the answers as it should.

## Main definitions

* `Increasing` — every key stands before the greater ones, and none stands twice

## Main results

* `mem_keysOfList`, `Entries.mem_of_mem_ofList` — what is in a sorted list was inserted
* `increasing_keysOfList`, `Entries.increasing_ofList` — sorted lists increase
* `keysOfList_eq_self`, `Entries.ofList_eq_self` — lists that increase are sorted already
* `keysOfList_map`, `Entries.ofList_map` — images in the same order are sorted alike
* `Entries.mem_iff_get?` — the entries of a sorted map are what it answers
* `Entries.get?_filter`, `Entries.get?_foldl_erase` — the answers after entries are removed
* `Entries.get?_foldl_insert`, `Entries.get?_foldl_insert_of_notMem` — those after entries with
  distinct keys are inserted
* `Entries.ext_get?` — sorted maps with the same answers are the same
* `Entries.ofList_perm` — the map of entries with distinct keys has just these entries
-/

namespace TypedSheets

variable {α β γ δ : Type} {cmp : α → α → Ordering} {cmp' : γ → γ → Ordering}

/-- The keys of a list stand in strictly increasing order. -/
def Increasing (cmp : α → α → Ordering) (keys : List α) : Prop :=
  keys.Pairwise fun a b => cmp a b = .lt

@[simp] theorem increasing_nil : Increasing cmp [] := List.Pairwise.nil

theorem increasing_cons {a : α} {keys : List α} :
    Increasing cmp (a :: keys) ↔ (∀ b ∈ keys, cmp a b = .lt) ∧ Increasing cmp keys :=
  List.pairwise_cons

theorem Increasing.nodup [Std.ReflCmp cmp] {keys : List α} (h : Increasing cmp keys) :
    keys.Nodup := by
  refine h.imp fun {a b} hab => ?_
  rintro rfl
  have hself : cmp a a = .eq := Std.ReflCmp.compare_self
  exact absurd (hab.symm.trans hself) (by decide)

/-! ### Keys -/

theorem mem_of_mem_insertKey {k x : α} {keys : List α} (h : x ∈ insertKey cmp k keys) :
    x = k ∨ x ∈ keys := by
  induction keys with
  | nil => exact Or.inl (List.mem_singleton.mp h)
  | cons k' rest ih =>
    rw [insertKey] at h
    split at h
    · exact List.mem_cons.mp h
    · exact Or.inr h
    · rcases List.mem_cons.mp h with rfl | h
      · exact Or.inr List.mem_cons_self
      · exact (ih h).imp_right (List.mem_cons_of_mem _)

theorem mem_foldl_insertKey {x : α} {keys done : List α}
    (h : x ∈ keys.foldl (fun done k => insertKey cmp k done) done) : x ∈ keys ∨ x ∈ done := by
  induction keys generalizing done with
  | nil => exact Or.inr h
  | cons k rest ih =>
    rcases ih h with h | h
    · exact Or.inl (List.mem_cons_of_mem _ h)
    · rcases mem_of_mem_insertKey h with rfl | h
      · exact Or.inl List.mem_cons_self
      · exact Or.inr h

/-- Every element of a set is one of the elements it was made of. -/
theorem mem_keysOfList {x : α} {keys : List α} (h : x ∈ keysOfList cmp keys) : x ∈ keys := by
  rcases mem_foldl_insertKey h with h | h
  · exact h
  · exact absurd h List.not_mem_nil

theorem increasing_insertKey [Std.TransCmp cmp] {k : α} {keys : List α}
    (h : Increasing cmp keys) : Increasing cmp (insertKey cmp k keys) := by
  induction keys with
  | nil => exact List.pairwise_singleton _ _
  | cons k' rest ih =>
    obtain ⟨hfirst, hrest⟩ := increasing_cons.mp h
    rw [insertKey]
    split
    · next hlt =>
      refine increasing_cons.mpr ⟨?_, h⟩
      intro b hb
      rcases List.mem_cons.mp hb with rfl | hb
      · exact hlt
      · exact Std.TransCmp.lt_trans hlt (hfirst b hb)
    · exact h
    · next hgt =>
      -- the key goes somewhere behind the first one
      refine increasing_cons.mpr ⟨?_, ih hrest⟩
      intro b hb
      rcases mem_of_mem_insertKey hb with rfl | hb
      · exact Std.OrientedCmp.gt_iff_lt.mp hgt
      · exact hfirst b hb

/-- The elements of a set increase. -/
theorem increasing_keysOfList [Std.TransCmp cmp] (keys : List α) :
    Increasing cmp (keysOfList cmp keys) := by
  suffices h : ∀ done, Increasing cmp done →
      Increasing cmp (keys.foldl (fun done k => insertKey cmp k done) done) from
    h [] increasing_nil
  induction keys with
  | nil => exact fun _ h => h
  | cons k rest ih => exact fun done h => ih _ (increasing_insertKey h)

/-- A key beyond all others is added at the end. -/
theorem insertKey_of_forall_lt [Std.OrientedCmp cmp] {k : α} {keys : List α}
    (h : ∀ a ∈ keys, cmp a k = .lt) : insertKey cmp k keys = keys ++ [k] := by
  induction keys with
  | nil => rfl
  | cons a rest ih =>
    have hgt : cmp k a = .gt := Std.OrientedCmp.gt_iff_lt.mpr (h a List.mem_cons_self)
    rw [insertKey, hgt]
    simp only [ih fun b hb => h b (List.mem_cons_of_mem _ hb), List.cons_append]

/-- Elements that increase are a set as they are. -/
theorem keysOfList_eq_self [Std.OrientedCmp cmp] {keys : List α} (h : Increasing cmp keys) :
    keysOfList cmp keys = keys := by
  suffices hf : ∀ done, Increasing cmp (done ++ keys) →
      keys.foldl (fun done k => insertKey cmp k done) done = done ++ keys from
    hf [] h
  clear h
  induction keys with
  | nil => exact fun done _ => (List.append_nil done).symm
  | cons k rest ih =>
    intro done hdone
    -- each key is beyond all that are there already
    have hlt : ∀ a ∈ done, cmp a k = .lt := fun a ha =>
      (List.pairwise_append.mp hdone).2.2 a ha k List.mem_cons_self
    rw [List.foldl_cons, insertKey_of_forall_lt hlt, ih _ (by simpa using hdone)]
    simp

theorem insertKey_map {g : α → γ} {k : α} {keys : List α}
    (h : ∀ a ∈ keys, cmp' (g k) (g a) = cmp k a) :
    insertKey cmp' (g k) (keys.map g) = (insertKey cmp k keys).map g := by
  induction keys with
  | nil => rfl
  | cons a rest ih =>
    have hothers := ih fun b hb => h b (List.mem_cons_of_mem a hb)
    rw [List.map_cons, insertKey, insertKey, h a List.mem_cons_self]
    cases cmp k a with
    | lt => rfl
    | eq => rfl
    | gt => simp [hothers]

/-- The set of the images are the images of the set if they are in the same order. -/
theorem keysOfList_map {g : α → γ} {keys : List α}
    (h : ∀ a ∈ keys, ∀ b ∈ keys, cmp' (g a) (g b) = cmp a b) :
    keysOfList cmp' (keys.map g) = (keysOfList cmp keys).map g := by
  suffices hf : ∀ todo ⊆ keys, ∀ done ⊆ keys,
      (todo.map g).foldl (fun done k => insertKey cmp' k done) (done.map g) =
        (todo.foldl (fun done k => insertKey cmp k done) done).map g from
    hf keys (List.Subset.refl keys) [] (List.nil_subset keys)
  intro todo htodo
  induction todo with
  | nil => exact fun _ _ => rfl
  | cons k rest ih =>
    intro done hdone
    obtain ⟨hk, hrest⟩ := List.cons_subset.mp htodo
    rw [List.map_cons, List.foldl_cons, List.foldl_cons,
      insertKey_map fun a ha => h k hk a (hdone ha)]
    -- what is inserted is one of the keys, like all that are there already
    apply ih hrest
    intro a ha
    rcases mem_of_mem_insertKey ha with rfl | ha
    · exact hk
    · exact hdone ha

namespace Entries

/-! ### Entries -/

/-- The keys of a map are a set of keys. -/
theorem map_fst_insert (k : α) (v : β) (es : Entries α β) :
    (insert cmp k v es).map Prod.fst = insertKey cmp k (es.map Prod.fst) := by
  induction es with
  | nil => rfl
  | cons e rest ih =>
    rw [insert, List.map_cons, insertKey]
    cases hc : cmp k e.1 with
    | lt => rfl
    | eq => rfl
    | gt => simp [ih]

theorem map_fst_foldl_insert (es : List (α × β)) (done : Entries α β) :
    (es.foldl (fun done e => insert cmp e.1 e.2 done) done).map Prod.fst =
      (es.map Prod.fst).foldl (fun done k => insertKey cmp k done) (done.map Prod.fst) := by
  induction es generalizing done with
  | nil => rfl
  | cons e rest ih => rw [List.foldl_cons, ih, map_fst_insert, List.map_cons, List.foldl_cons]

theorem map_fst_ofList (es : List (α × β)) :
    (ofList cmp es).map Prod.fst = keysOfList cmp (es.map Prod.fst) :=
  map_fst_foldl_insert es []

theorem snd_mem_of_mem_insert {k : α} {v : β} {e : α × β} {es : Entries α β}
    (h : e ∈ insert cmp k v es) : e.2 = v ∨ e.2 ∈ es.map Prod.snd := by
  induction es with
  | nil =>
    obtain rfl := List.mem_singleton.mp h
    exact Or.inl rfl
  | cons e' rest ih =>
    rw [insert] at h
    split at h
    · rcases List.mem_cons.mp h with rfl | h
      · exact Or.inl rfl
      · exact Or.inr (List.mem_map_of_mem h)
    · -- the key that is there takes the value that is inserted
      rcases List.mem_cons.mp h with rfl | h
      · exact Or.inl rfl
      · exact Or.inr (List.mem_map_of_mem (List.mem_cons_of_mem _ h))
    · rcases List.mem_cons.mp h with rfl | h
      · exact Or.inr List.mem_cons_self
      · exact (ih h).imp_right (List.mem_cons_of_mem _)

theorem snd_mem_of_mem_foldl_insert {e : α × β} {es : List (α × β)} {done : Entries α β}
    (h : e ∈ es.foldl (fun done e => insert cmp e.1 e.2 done) done) :
    e.2 ∈ es.map Prod.snd ∨ e.2 ∈ done.map Prod.snd := by
  induction es generalizing done with
  | nil => exact Or.inr (List.mem_map_of_mem h)
  | cons first rest ih =>
    rcases ih h with h | h
    · exact Or.inl (List.mem_cons_of_mem _ h)
    · obtain ⟨e', he', heq⟩ := List.mem_map.mp h
      rw [← heq]
      exact (snd_mem_of_mem_insert he').imp_left fun hv => List.mem_cons.mpr (Or.inl hv)

/-- The key and the value of an entry of a map are among those it was made of. -/
theorem mem_of_mem_ofList {e : α × β} {es : List (α × β)} (h : e ∈ ofList cmp es) :
    e.1 ∈ es.map Prod.fst ∧ e.2 ∈ es.map Prod.snd := by
  constructor
  · have hkey : e.1 ∈ (ofList cmp es).map Prod.fst := List.mem_map_of_mem h
    rw [map_fst_ofList] at hkey
    exact mem_keysOfList hkey
  · exact (snd_mem_of_mem_foldl_insert h).resolve_right List.not_mem_nil

/-- The same where the entries are images, key by key and value by value. -/
theorem exists_of_mem_ofList_map {γ δ : Type} {g : γ → α} {g' : δ → β} {e : α × β}
    {es : List (γ × δ)} (h : e ∈ ofList cmp (es.map fun e => (g e.1, g' e.2))) :
    (∃ z ∈ es, e.1 = g z.1) ∧ ∃ z ∈ es, e.2 = g' z.2 := by
  obtain ⟨hkey, hvalue⟩ := mem_of_mem_ofList h
  rw [List.map_map] at hkey hvalue
  obtain ⟨z, hz, hzk⟩ := List.mem_map.mp hkey
  obtain ⟨w, hw, hwv⟩ := List.mem_map.mp hvalue
  exact ⟨⟨z, hz, hzk.symm⟩, w, hw, hwv.symm⟩

/-- The keys of a map increase. -/
theorem increasing_ofList [Std.TransCmp cmp] (es : List (α × β)) :
    Increasing cmp ((ofList cmp es).map Prod.fst) := by
  rw [map_fst_ofList]
  exact increasing_keysOfList _

theorem insert_of_forall_lt [Std.OrientedCmp cmp] {k : α} {v : β} {es : Entries α β}
    (h : ∀ e ∈ es, cmp e.1 k = .lt) : insert cmp k v es = es ++ [(k, v)] := by
  induction es with
  | nil => rfl
  | cons e rest ih =>
    have hgt : cmp k e.1 = .gt := Std.OrientedCmp.gt_iff_lt.mpr (h e List.mem_cons_self)
    rw [insert, hgt]
    simp only [ih fun b hb => h b (List.mem_cons_of_mem _ hb), List.cons_append]

/-- Entries whose keys increase are a map as they are. -/
theorem ofList_eq_self [Std.OrientedCmp cmp] {es : List (α × β)}
    (h : Increasing cmp (es.map Prod.fst)) : ofList cmp es = es := by
  suffices hf : ∀ done : Entries α β, Increasing cmp ((done ++ es).map Prod.fst) →
      es.foldl (fun done e => insert cmp e.1 e.2 done) done = done ++ es from
    hf [] h
  clear h
  induction es with
  | nil => exact fun done _ => (List.append_nil done).symm
  | cons e rest ih =>
    intro done hdone
    have hlt : ∀ a ∈ done, cmp a.1 e.1 = .lt := by
      intro a ha
      rw [List.map_append] at hdone
      exact (List.pairwise_append.mp hdone).2.2 _ (List.mem_map_of_mem ha) _ List.mem_cons_self
    rw [List.foldl_cons, insert_of_forall_lt hlt, ih _ (by simpa using hdone)]
    simp

theorem insert_map {g : α → γ} {g' : β → δ} {k : α} {v : β} {es : Entries α β}
    (h : ∀ a ∈ es.map Prod.fst, cmp' (g k) (g a) = cmp k a) :
    insert cmp' (g k) (g' v) (es.map fun e => (g e.1, g' e.2)) =
      (insert cmp k v es).map fun e => (g e.1, g' e.2) := by
  induction es with
  | nil => rfl
  | cons e rest ih =>
    have hothers := ih fun a ha => h a (List.mem_cons_of_mem e.1 ha)
    rw [List.map_cons, insert, insert, h e.1 List.mem_cons_self]
    cases cmp k e.1 with
    | lt => rfl
    | eq => rfl
    | gt => simp [hothers]

/-- The map of the images are the images of the map if the keys are in the same order. -/
theorem ofList_map {g : α → γ} {g' : β → δ} {es : List (α × β)}
    (h : ∀ a ∈ es.map Prod.fst, ∀ b ∈ es.map Prod.fst, cmp' (g a) (g b) = cmp a b) :
    ofList cmp' (es.map fun e => (g e.1, g' e.2)) =
      (ofList cmp es).map fun e => (g e.1, g' e.2) := by
  -- on the entries still to be put in; the keys that are there came from the list as well
  suffices hf : ∀ todo ⊆ es, ∀ done : Entries α β, done.map Prod.fst ⊆ es.map Prod.fst →
      (todo.map fun e => (g e.1, g' e.2)).foldl (fun done e => insert cmp' e.1 e.2 done)
          (done.map fun e => (g e.1, g' e.2)) =
        (todo.foldl (fun done e => insert cmp e.1 e.2 done) done).map
          fun e => (g e.1, g' e.2) from
    hf es (List.Subset.refl es) [] (List.nil_subset _)
  intro todo htodo
  induction todo with
  | nil => exact fun _ _ => rfl
  | cons e rest ih =>
    intro done hdone
    obtain ⟨he, hrest⟩ := List.cons_subset.mp htodo
    have hkey : e.1 ∈ es.map Prod.fst := List.mem_map_of_mem he
    rw [List.map_cons, List.foldl_cons, List.foldl_cons,
      insert_map fun a ha => h e.1 hkey a (hdone ha)]
    apply ih hrest
    intro a ha
    rw [map_fst_insert] at ha
    rcases mem_of_mem_insertKey ha with rfl | ha
    · exact hkey
    · exact hdone ha

/-- What a map answers is in it. -/
theorem exists_mem_of_get? {k : α} {v : β} {es : Entries α β} (h : get? cmp k es = some v) :
    ∃ k', (k', v) ∈ es := by
  induction es with
  | nil => cases h
  | cons e rest ih =>
    rw [get?] at h
    split at h
    · cases h
      exact ⟨e.1, List.mem_cons_self⟩
    · obtain ⟨k', hmem⟩ := ih h
      exact ⟨k', List.mem_cons_of_mem _ hmem⟩

/-- In a sorted map the entries are the answers. -/
theorem mem_iff_get? [Std.TransCmp cmp] [Std.LawfulEqCmp cmp] {k : α} {v : β}
    {es : Entries α β} (h : Increasing cmp (es.map Prod.fst)) :
    (k, v) ∈ es ↔ get? cmp k es = some v := by
  induction es with
  | nil => simp
  | cons e rest ih =>
    obtain ⟨k', v'⟩ := e
    obtain ⟨hfirst, hrest⟩ := increasing_cons.mp h
    rw [List.mem_cons, get?, ih hrest]
    by_cases hk : cmp k k' = .eq
    · obtain rfl := Std.LawfulEqCmp.eq_of_compare hk
      -- behind the entry of the key there is no other one
      have hnot : ¬ get? cmp k rest = some v := by
        intro hget
        have hlt : cmp k k = .lt := hfirst k (List.mem_map_of_mem ((ih hrest).mpr hget))
        exact absurd (hlt.symm.trans Std.ReflCmp.compare_self) (by decide)
      simp only [Prod.mk.injEq, true_and, hnot, or_false, hk, beq_self_eq_true, if_true,
        Option.some.injEq]
      exact eq_comm
    · have hne : k ≠ k' := by
        rintro rfl
        exact hk Std.ReflCmp.compare_self
      simp [hk, hne]

end Entries

instance : Std.TransCmp compareText := inferInstanceAs (Std.TransCmp (compare (α := String)))

end TypedSheets

/-! ## What sorted maps answer -/

namespace TypedSheets

namespace Entries

variable {α β : Type} {cmp : α → α → Ordering}

/-! ### Answers after changes -/

section Changes

variable [Std.LawfulEqCmp cmp] {k : α} {v : β} {rows : List (α × β)}

theorem get?_filter (keep : α → Bool) (k : α) (es : Entries α β) :
    get? cmp k (es.filter fun e => keep e.1) = if keep k then get? cmp k es else none := by
  induction es with
  | nil => simp
  | cons e rest ih =>
    rw [List.filter_cons]
    by_cases hk : cmp k e.1 = .eq
    · obtain rfl := Std.LawfulEqCmp.eq_of_compare hk
      cases hkeep : keep e.1 with
      | true => simp [get?, Std.ReflCmp.compare_self]
      | false => simp [ih, hkeep]
    · cases hkeep : keep e.1 <;> simp [get?, hk, ih]

theorem get?_foldl_erase [DecidableEq α] (k : α) (keys : List α) (es : Entries α β) :
    get? cmp k (keys.foldl (fun es key => erase cmp key es) es) =
      if k ∈ keys then none else get? cmp k es := by
  induction keys generalizing es with
  | nil => simp
  | cons key rest ih =>
    rw [List.foldl_cons, ih, get?_erase]
    by_cases hkey : k = key
    · subst hkey
      simp [Std.ReflCmp.compare_self]
    · have hne : cmp k key ≠ .eq := fun h => hkey (Std.LawfulEqCmp.eq_of_compare h)
      simp [hkey, hne]

/-- Inserting entries of other keys does not change an answer. -/
theorem get?_foldl_insert_of_notMem (h : k ∉ rows.map Prod.fst) (es : Entries α β) :
    get? cmp k (rows.foldl (fun es r => insert cmp r.1 r.2 es) es) = get? cmp k es := by
  induction rows generalizing es with
  | nil => rfl
  | cons r rest ih =>
    rw [List.map_cons, List.mem_cons, not_or] at h
    have hne : cmp k r.1 ≠ .eq := fun heq => h.1 (Std.LawfulEqCmp.eq_of_compare heq)
    rw [List.foldl_cons, ih h.2, get?_insert, if_neg (by simpa using hne)]

/-- Inserting entries with distinct keys makes them the answers. -/
theorem get?_foldl_insert (hrows : (rows.map Prod.fst).Nodup) (h : (k, v) ∈ rows)
    (es : Entries α β) :
    get? cmp k (rows.foldl (fun es r => insert cmp r.1 r.2 es) es) = some v := by
  induction rows generalizing es with
  | nil => exact absurd h List.not_mem_nil
  | cons r rest ih =>
    obtain ⟨hfirst, hrest⟩ := List.nodup_cons.mp hrows
    rw [List.foldl_cons]
    rcases List.mem_cons.mp h with rfl | h
    · rw [get?_foldl_insert_of_notMem hfirst, get?_insert, if_pos (by simp)]
    · exact ih hrest h _

theorem insert_perm {es : Entries α β} (h : k ∉ es.map Prod.fst) :
    (insert cmp k v es).Perm ((k, v) :: es) := by
  induction es with
  | nil => exact List.Perm.refl _
  | cons e rest ih =>
    rw [List.map_cons, List.mem_cons, not_or] at h
    rw [insert]
    split
    · exact List.Perm.refl _
    · next heq => exact absurd (Std.LawfulEqCmp.eq_of_compare heq) h.1
    · exact ((ih h.2).cons e).trans (List.Perm.swap _ _ _)

theorem foldl_insert_perm {es : Entries α β} (h : (rows.map Prod.fst ++ es.map Prod.fst).Nodup) :
    (rows.foldl (fun es r => insert cmp r.1 r.2 es) es).Perm (rows ++ es) := by
  induction rows generalizing es with
  | nil => exact List.Perm.refl _
  | cons r rest ih =>
    rw [List.map_cons, List.cons_append] at h
    obtain ⟨hfirst, hrest⟩ := List.nodup_cons.mp h
    have hnew : r.1 ∉ es.map Prod.fst := fun hmem => hfirst (List.mem_append_right _ hmem)
    have hperm : (insert cmp r.1 r.2 es).Perm (r :: es) := insert_perm hnew
    have hkeys : (rest.map Prod.fst ++ (insert cmp r.1 r.2 es).map Prod.fst).Nodup := by
      rw [((hperm.map Prod.fst).append_left _).nodup_iff]
      exact List.perm_middle.nodup_iff.mpr h
    rw [List.foldl_cons]
    exact (ih hkeys).trans ((hperm.append_left rest).trans List.perm_middle)

/-- The map of entries with distinct keys has just these entries. -/
theorem ofList_perm (h : (rows.map Prod.fst).Nodup) : (ofList cmp rows).Perm rows := by
  have hperm := @foldl_insert_perm α β cmp _ rows [] (by simpa using h)
  rwa [List.append_nil] at hperm

end Changes

/-! ### Changes keep maps sorted -/

section Increasing

theorem increasing_insert [Std.TransCmp cmp] {k : α} {v : β} {es : Entries α β}
    (h : Increasing cmp (es.map Prod.fst)) :
    Increasing cmp ((insert cmp k v es).map Prod.fst) := by
  rw [map_fst_insert]
  exact increasing_insertKey h

theorem increasing_foldl_insert [Std.TransCmp cmp] {rows : List (α × β)} {es : Entries α β}
    (h : Increasing cmp (es.map Prod.fst)) :
    Increasing cmp ((rows.foldl (fun es r => insert cmp r.1 r.2 es) es).map Prod.fst) := by
  induction rows generalizing es with
  | nil => exact h
  | cons r rest ih => exact ih (increasing_insert h)

theorem increasing_filter {keep : α × β → Bool} {es : Entries α β}
    (h : Increasing cmp (es.map Prod.fst)) : Increasing cmp ((es.filter keep).map Prod.fst) :=
  h.sublist (List.filter_sublist.map Prod.fst)

theorem increasing_foldl_erase {keys : List α} {es : Entries α β}
    (h : Increasing cmp (es.map Prod.fst)) :
    Increasing cmp ((keys.foldl (fun es key => erase cmp key es) es).map Prod.fst) := by
  induction keys generalizing es with
  | nil => exact h
  | cons key rest ih => exact ih (increasing_filter h)

/-- Sorted maps with the same answers are the same. -/
theorem ext_get? [Std.TransCmp cmp] [Std.LawfulEqCmp cmp] {es es' : Entries α β}
    (h : Increasing cmp (es.map Prod.fst)) (h' : Increasing cmp (es'.map Prod.fst))
    (hget : ∀ k, get? cmp k es = get? cmp k es') : es = es' := by
  have hpairs : ∀ {es : Entries α β}, Increasing cmp (es.map Prod.fst) →
      es.Pairwise fun a b => cmp a.1 b.1 = .lt := fun h => List.pairwise_map.mp h
  have hnodup : ∀ {es : Entries α β}, Increasing cmp (es.map Prod.fst) → es.Nodup :=
    fun h => List.Nodup.of_map Prod.fst h.nodup
  refine List.Perm.eq_of_pairwise ?_ (hpairs h) (hpairs h') ?_
  · intro a b _ _ hab hba
    have hlt : cmp a.1 a.1 = .lt := Std.TransCmp.lt_trans hab hba
    have hself : cmp a.1 a.1 = .eq := Std.ReflCmp.compare_self
    exact absurd (hlt.symm.trans hself) (by decide)
  · refine (List.perm_ext_iff_of_nodup (hnodup h) (hnodup h')).mpr ?_
    rintro ⟨k, v⟩
    rw [mem_iff_get? h, mem_iff_get? h', hget]

/-- Inserting what is there changes nothing. -/
theorem insert_eq_self [Std.TransCmp cmp] [Std.LawfulEqCmp cmp] {k : α} {v : β} {es : Entries α β}
    (h : Increasing cmp (es.map Prod.fst)) (hget : get? cmp k es = some v) :
    insert cmp k v es = es := by
  refine ext_get? (increasing_insert h) h fun k' => ?_
  rw [get?_insert]
  split
  · next heq =>
    obtain rfl := Std.LawfulEqCmp.eq_of_compare (beq_iff_eq.mp heq)
    exact hget.symm
  · rfl

end Increasing

end Entries

end TypedSheets
