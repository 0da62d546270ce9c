import TypedSheets.Proofs.Naming
import TypedSheets.Proofs.Text.Parts

/-!
# How a name begins under a naming

The underscores in front of a name belong to no word, so under a naming the name begins with a form
of the first character behind them. That holds for characters of any kind, in names of any length;
only marks are left out there, for they make one with the underscore in front of them.

## Main definitions

* `Text.leading?` — the first character that is no underscore

## Main results

* `Text.words_of_leading?` — the first word of a name begins with its first character
* `Naming.pascal_of_leading?`, `Naming.snake_cons` — what a name begins with under a naming
* `Naming.mem_of_mem_pascal`, `Naming.mem_of_mem_snake` — of what characters it consists
-/

namespace TypedSheets

namespace Text

variable {s : List Char} {c d : Char}

/-- The first character of a text that is no underscore. -/
def leading? (s : List Char) : Option Char := (s.dropWhile (· == '_')).head?

/-! ### The first word -/

theorem exists_clusters_cons (c : Char) (s : List Char) :
    ∃ marks rest, clusters (c :: s) = (c :: marks) :: rest := by
  rw [clusters, List.foldr_cons]
  split
  · split
    · exact ⟨_, _, rfl⟩
    · exact ⟨_, _, rfl⟩
  · exact ⟨_, _, rfl⟩

/-- A character that no mark follows is a cluster by itself. -/
theorem clusters_cons_of_head? (h : ∀ d ∈ s.head?, isMark d = false) :
    clusters (c :: s) = [c] :: clusters s := by
  cases s with
  | nil => rfl
  | cons d rest =>
    obtain ⟨marks, behind, hclusters⟩ := exists_clusters_cons d rest
    have hfold := hclusters
    rw [clusters] at hfold
    rw [clusters, List.foldr_cons, hfold, hclusters]
    simp only [h d rfl, Bool.false_eq_true, if_false]

/-- The open word goes into the first of the words. -/
theorem exists_wordsFrom_eq_append (prev : Option Cluster) (word rest : List Cluster) :
    ∃ more ws, wordsFrom prev word rest = (word ++ more) :: ws := by
  induction rest generalizing prev word with
  | nil => exact ⟨[], [], by rw [wordsFrom, List.append_nil]⟩
  | cons c rest ih =>
    rw [wordsFrom]
    split
    · exact ⟨[], _, by rw [List.append_nil]⟩
    · split
      · exact ⟨[], _, by rw [List.append_nil]⟩
      · obtain ⟨more, ws, heq⟩ := ih (some c) (word ++ [c])
        exact ⟨c :: more, ws, by rw [heq, List.append_assoc, List.singleton_append]⟩

/-- The words of a name behind another cluster, none of them empty. -/
def wordsBehind (prev : Option Cluster) (s : List Char) : List (List Cluster) :=
  (wordsFrom prev [] (clusters s)).filter fun w => !w.isEmpty

theorem isSeparator_cons (hc : isSeparator [c] = false) (marks : List Char) :
    isSeparator (c :: marks) = false := by
  cases marks with
  | nil => exact hc
  | cons m marks => simp [isSeparator]

theorem wordsBehind_cons (hc : isSeparator [c] = false) (prev : Option Cluster) (s : List Char) :
    ∃ marks more ws, wordsBehind prev (c :: s) = ((c :: marks) :: more) :: ws := by
  obtain ⟨marks, behind, hclusters⟩ := exists_clusters_cons c s
  obtain ⟨more, ws, hwords⟩ := exists_wordsFrom_eq_append (some (c :: marks)) [c :: marks] behind
  refine ⟨marks, more, ws.filter fun w => !w.isEmpty, ?_⟩
  rw [wordsBehind, hclusters, wordsFrom, if_neg (Bool.eq_false_iff.mp (isSeparator_cons hc marks))]
  split
  · rw [hwords]
    rfl
  · rw [List.nil_append, hwords]
    rfl

theorem leading?_underscore (s : List Char) : leading? ('_' :: s) = leading? s := rfl

theorem leading?_of_ne (hc : c ≠ '_') (s : List Char) : leading? (c :: s) = some c := by
  rw [leading?, List.dropWhile_cons_of_neg (by simpa using hc), List.head?_cons]

/-- A text begins with an underscore or with its first other character. -/
theorem eq_or_leading?_of_mem_head? (h : c ∈ s.head?) : c = '_' ∨ leading? s = some c := by
  cases s with
  | nil => cases h
  | cons d rest =>
    obtain rfl := Option.some.inj h
    by_cases hd : d = '_'
    · exact .inl hd
    · exact .inr (leading?_of_ne hd rest)

/-- An underscore is in no word. -/
theorem wordsBehind_underscore (h : ∀ c ∈ leading? s, isMark c = false) (prev : Option Cluster) :
    wordsBehind prev ('_' :: s) = wordsBehind (some ['_']) s := by
  have hhead : ∀ d ∈ s.head?, isMark d = false := by
    intro d hd
    rcases eq_or_leading?_of_mem_head? hd with rfl | hd
    · decide
    · exact h d hd
  rw [wordsBehind, clusters_cons_of_head? hhead, wordsFrom, if_pos (by decide)]
  rfl

/-- Underscores alone have no words. -/
theorem wordsBehind_of_leading?_eq_none (h : leading? s = none) (prev : Option Cluster) :
    wordsBehind prev s = [] := by
  induction s generalizing prev with
  | nil => rfl
  | cons d rest ih =>
    by_cases hd : d = '_'
    · subst hd
      rw [leading?_underscore] at h
      rw [wordsBehind_underscore (by rw [h]; simp), ih h]
    · rw [leading?_of_ne hd] at h
      cases h

/-- Behind underscores the first word begins with the first other character. -/
theorem wordsBehind_of_leading? (h : leading? s = some c) (hc : isSeparator [c] = false)
    (hmark : isMark c = false) (prev : Option Cluster) :
    ∃ marks more ws, wordsBehind prev s = ((c :: marks) :: more) :: ws := by
  induction s generalizing prev with
  | nil => cases h
  | cons d rest ih =>
    by_cases hd : d = '_'
    · subst hd
      rw [leading?_underscore] at h
      rw [wordsBehind_underscore (by rw [h]; simpa using hmark)]
      exact ih h _
    · rw [leading?_of_ne hd] at h
      obtain rfl := Option.some.inj h
      exact wordsBehind_cons hc prev rest

/-! ### The characters of words -/

/-- The words of a name are made of its characters. -/
theorem mem_of_mem_words {w : List Cluster} (hw : w ∈ words s) (hc : c ∈ w.flatten) : c ∈ s := by
  obtain ⟨cluster, hcluster, hmem⟩ := List.mem_flatten.mp hc
  rcases mem_of_mem_wordsFrom (List.mem_filter.mp hw).1 hcluster with h | ⟨h, -⟩
  · cases h
  · rw [← flatten_clusters s]
    exact List.mem_flatten.mpr ⟨cluster, h, hmem⟩

/-- The final small sigma. -/
def finalSigma : Char := Char.ofNat 0x3C2

theorem lowerForm_capitalSigma : lowerForm capitalSigma = [Char.ofNat 0x3C3] := by
  decide

/-- A character of a text in lower case comes from one of its characters, or ends a Greek word. -/
theorem mem_lowerChars (h : d ∈ lowerChars s) : d = finalSigma ∨ ∃ c ∈ s, d ∈ lowerForm c := by
  rw [lowerChars] at h
  generalize ([] : List Char) = before at h
  induction s generalizing before with
  | nil => cases h
  | cons c rest ih =>
    rw [lowerFrom] at h
    rcases List.mem_append.mp h with hform | hrest
    · split at hform
      · next hsigma =>
        split at hform
        · exact .inl (List.mem_singleton.mp hform)
        · rw [eq_of_beq hsigma]
          exact .inr ⟨_, List.mem_cons_self, lowerForm_capitalSigma ▸ hform⟩
      · exact .inr ⟨c, List.mem_cons_self, hform⟩
    · rcases ih _ hrest with hfinal | ⟨c, hc, hd⟩
      · exact .inl hfinal
      · exact .inr ⟨c, List.mem_cons_of_mem _ hc, hd⟩

/-- At the start of a text a capital sigma has its own small letter. -/
theorem exists_lowerChars_cons (c : Char) (s : List Char) :
    ∃ rest, lowerChars (c :: s) = lowerForm c ++ rest := by
  rw [lowerChars, lowerFrom]
  split
  · next hsigma =>
    have hstart : startsCased [] = false := rfl
    rw [eq_of_beq hsigma, hstart, Bool.false_and, if_neg Bool.false_ne_true, lowerForm_capitalSigma]
    exact ⟨_, rfl⟩
  · exact ⟨_, rfl⟩

end Text

namespace Naming

open Text

variable {s : List Char} {c d : Char}

theorem snake_cons (hc : isSeparator [c] = false) (s : List Char) :
    ∃ rest, snake.applyChars (c :: s) = lowerForm c ++ rest := by
  obtain ⟨marks, more, ws, hwords⟩ := wordsBehind_cons hc none s
  have hwords : words (c :: s) = ((c :: marks) :: more) :: ws := hwords
  obtain ⟨rest, hlower⟩ := exists_lowerChars_cons c (marks ++ more.flatten)
  have hword : lowered ((c :: marks) :: more) = lowerForm c ++ rest := by
    rw [lowered, List.flatten_cons, List.cons_append, hlower]
  rw [applyChars, joinWords, hwords, List.map_cons, hword]
  obtain ⟨behind, hbehind⟩ := prefix_intercalate '_' (lowerForm c ++ rest) (ws.map lowered)
  exact ⟨rest ++ behind, by rw [← hbehind, List.append_assoc]⟩

theorem pascal_of_leading? (h : leading? s = some c) (hc : isSeparator [c] = false)
    (hmark : isMark c = false) : ∃ rest, pascal.applyChars s = upperForm c ++ rest := by
  obtain ⟨marks, more, ws, hwords⟩ := wordsBehind_of_leading? h hc hmark none
  have hwords : words s = ((c :: marks) :: more) :: ws := hwords
  rw [applyChars, joinWords, hwords, List.flatMap_cons, capitalized, upperChars, List.flatMap_cons]
  exact ⟨_, by rw [List.append_assoc, List.append_assoc]⟩

/-- Of a name of underscores nothing is left. -/
theorem applyChars_of_leading?_eq_none (n : Naming) (h : leading? s = none) :
    n.applyChars s = [] := by
  have hwords : words s = [] := wordsBehind_of_leading?_eq_none h none
  rw [applyChars, hwords]
  cases n <;> rfl

theorem mem_of_mem_snake (h : d ∈ snake.applyChars s) :
    d = '_' ∨ d = finalSigma ∨ ∃ c ∈ s, d ∈ lowerForm c := by
  rcases mem_intercalate h with rfl | ⟨part, hpart, hd⟩
  · exact .inl rfl
  · obtain ⟨w, hw, rfl⟩ := List.mem_map.mp hpart
    refine .inr ((mem_lowerChars hd).imp_right fun ⟨c, hc, hd⟩ => ?_)
    exact ⟨c, mem_of_mem_words hw hc, hd⟩

theorem mem_of_mem_pascal (h : d ∈ pascal.applyChars s) :
    d = finalSigma ∨ ∃ c ∈ s, d ∈ upperForm c ∨ d ∈ lowerForm c := by
  obtain ⟨w, hw, hd⟩ := List.mem_flatMap.mp h
  have hmem : ∀ c ∈ w.flatten, c ∈ s := fun c hc => mem_of_mem_words hw hc
  cases w with
  | nil => cases hd
  | cons cluster rest =>
    rw [List.flatten_cons, List.forall_mem_append] at hmem
    rcases List.mem_append.mp hd with hd | hd
    · obtain ⟨c, hc, hd⟩ := List.mem_flatMap.mp hd
      exact .inr ⟨c, hmem.1 c hc, .inl hd⟩
    · refine (mem_lowerChars hd).imp_right fun ⟨c, hc, hd⟩ => ?_
      exact ⟨c, hmem.2 c hc, .inr hd⟩

end Naming

end TypedSheets
