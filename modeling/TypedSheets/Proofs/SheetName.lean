import TypedSheets.Proofs.Bake.Outcome
import TypedSheets.Proofs.Text.Parts

/-!
# The files of sheets

A name is read twice: once for whether it is that of a pseudo sheet, by its first and its last
character, and once for the file of its sheet, by the brackets around it. The two readings agree.
The file of a pseudo sheet begins with a dollar sign and so has the name of a pseudo sheet itself,
and every other file has the name of its sheet, without the white space around it.

## Main results

* `SheetName.bracketed?_eq_some_iff` — which texts stand in brackets
* `SheetName.fileName?_cases` — a file has a dollar sign in front, or the trimmed name of its sheet
* `SheetName.fileName?_of_plain` — file names are files of themselves
* `SheetName.isPseudo_of_fileName?` — a file tells whether its sheet is a pseudo sheet
* `SheetName.rowsTable_ne_of_fileFor` — pseudo sheets share no rows with regular ones
* `SheetName.fileName?_tells_sheet` — all that a file name tells of its sheet
-/

namespace TypedSheets

namespace SheetName

open Text

variable {name file : String} {position : Option Nat} {inner : List Char}

/-! ### Brackets -/

/-- A text stands in brackets if it begins with the one and ends with the other. -/
theorem bracketed?_eq_some_iff {s : List Char} :
    bracketed? s = some inner ↔ s = '<' :: (inner ++ ['>']) := by
  constructor
  · intro h
    unfold bracketed? at h
    split at h
    · next rest =>
      split at h
      · next inner' hrest =>
        obtain rfl := Option.some.inj h
        rw [← List.reverse_reverse rest, hrest, List.reverse_cons]
      · cases h
    · cases h
  · rintro rfl
    rw [bracketed?, List.reverse_append, List.reverse_singleton, List.singleton_append]
    exact congrArg some (List.reverse_reverse inner)

/-- A text in brackets is the name of a pseudo sheet. -/
theorem isPseudoChars_of_bracketed? {s : List Char} (h : bracketed? s = some inner) :
    isPseudoChars s = true := by
  rw [bracketed?_eq_some_iff.mp h]
  rfl

/-! ### Files -/

/-- A position is a text without white space around it. -/
theorem trimChars_natChars (n : Nat) :
    trimChars (Number.natText n).toList = (Number.natText n).toList :=
  Number.trimChars_intText n

/-- The file of a sheet is named with a dollar sign if the name of the sheet is blank or that of a
pseudo sheet in brackets, and otherwise it has that name without the white space around it. -/
theorem fileName?_cases (h : fileName? name position = some file) :
    (∃ inner, inner ≠ [] ∧ trimChars inner = inner ∧ file.toList = '$' :: inner ∧
        (isBlank name = true ∨ isPseudo name = true)) ∨
      (file.toList = trimChars name.toList ∧ file.toList ≠ [] ∧
        bracketed? file.toList = none) := by
  -- a file that is named for its position has a dollar sign and a number
  have hposition : positional? position = some file → ∃ inner, inner ≠ [] ∧
      trimChars inner = inner ∧ file.toList = '$' :: inner := by
    intro hfile
    obtain ⟨n, -, rfl⟩ := Option.map_eq_some_iff.mp hfile
    refine ⟨(Number.natText n).toList, Number.intText_ne_nil n, trimChars_natChars n, ?_⟩
    rw [String.toList_append]
    rfl
  rw [fileName?.eq_def] at h
  split at h
  · next hblank =>
    obtain ⟨inner, hne, htrimmed, hfile⟩ := hposition h
    exact Or.inl ⟨inner, hne, htrimmed, hfile, Or.inl (isBlank_of_trimChars_eq_nil hblank)⟩
  · next hfilled =>
    split at h
    · next hplain =>
      obtain rfl := Option.some.inj h
      rw [String.toList_ofList]
      exact Or.inr ⟨rfl, hfilled, hplain⟩
    -- a bracketed name gives its file what is within, or the position if that is blank
    · next inner hinner =>
      have hpseudo : isPseudo name = true := isPseudoChars_of_bracketed? hinner
      split at h
      · obtain ⟨inner, hne, htrimmed, hfile⟩ := hposition h
        exact Or.inl ⟨inner, hne, htrimmed, hfile, Or.inr hpseudo⟩
      · next hfilled =>
        obtain rfl := Option.some.inj h
        exact Or.inl ⟨_, hfilled, trimChars_trimChars inner, String.toList_ofList, Or.inr hpseudo⟩

/-- A name that is trimmed, not blank and not in brackets is its own file name. -/
theorem fileName?_of_plain (htrimmed : trimChars file.toList = file.toList)
    (hfilled : file.toList ≠ []) (hplain : bracketed? file.toList = none)
    (position : Option Nat) : fileName? file position = some file := by
  rw [fileName?.eq_def, htrimmed]
  split
  · next hnil => exact absurd hnil hfilled
  · rw [hplain, String.ofList_toList]

/-- A dollar sign in front keeps a text trimmed. -/
theorem trimChars_dollar (hne : inner ≠ []) (htrimmed : trimChars inner = inner) :
    trimChars ('$' :: inner) = '$' :: inner := by
  rw [trimChars_eq_self_iff]
  obtain ⟨-, hlast⟩ := trimChars_eq_self_iff.mp htrimmed
  refine ⟨?_, ?_⟩
  · rintro c ⟨⟩
    decide
  · rwa [List.getLast?_cons_of_ne_nil hne]

theorem bracketed?_dollar (inner : List Char) : bracketed? ('$' :: inner) = none := by
  rw [Option.eq_none_iff_forall_ne_some]
  intro inner' h
  cases bracketed?_eq_some_iff.mp h

/-- A file name is trimmed, not blank and not in brackets. -/
theorem plain_of_fileName? (h : fileName? name position = some file) :
    trimChars file.toList = file.toList ∧ file.toList ≠ [] ∧ bracketed? file.toList = none := by
  rcases fileName?_cases h with ⟨inner, hne, htrimmed, hfile, -⟩ | ⟨hfile, hfilled, hplain⟩
  · rw [hfile]
    exact ⟨trimChars_dollar hne htrimmed, List.cons_ne_nil _ _, bracketed?_dollar inner⟩
  · exact ⟨by rw [hfile, trimChars_trimChars], hfilled, hplain⟩

/-- A file name is that of a pseudo sheet exactly if the name of its sheet is one or is blank. -/
theorem isPseudo_of_fileName? (h : fileName? name position = some file) :
    isPseudo file = true ↔ isBlank name = true ∨ isPseudo name = true := by
  have htrimmed := (plain_of_fileName? h).1
  rcases fileName?_cases h with ⟨inner, -, -, hfile, hname⟩ | ⟨hfile, hfilled, -⟩
  · refine iff_of_true ?_ hname
    rw [isPseudo, htrimmed, hfile]
    rfl
  · have hname : ¬ isBlank name = true := fun hblank => by
      have hnil := congrArg String.toList (trim_of_isBlank hblank)
      rw [toList_trim, ← hfile] at hnil
      exact hfilled hnil
    rw [isPseudo, isPseudo, htrimmed, hfile]
    exact (or_iff_right hname).symm

/-- A sheet with a file is not skipped, so its name is the one the file is made of. -/
theorem fileName?_of_fileFor {c : Catalog} {b : Baker c} {s : BakeState c} {i : Nat}
    (h : b.fileFor s i name = .ok (some file)) :
    isBlank name = false ∧ fileName? name (some i) = some file := by
  rw [Baker.fileFor] at h
  split at h
  · cases h
  · next hblank =>
    refine ⟨Bool.eq_false_iff.mpr hblank, ?_⟩
    split at h
    · cases h
    · split at h
      · cases h
      · next found hfound =>
        split at h
        · cases h
        · cases h
          exact hfound

/-- The rows of a pseudo sheet and those of a regular one are in different tables. -/
theorem rowsTable_ne_of_fileFor {c c' : Catalog} {b : Baker c} {b' : Baker c'} {s : BakeState c}
    {s' : BakeState c'} {i i' : Nat} {pseudo regular file' : String}
    (hpseudo : isPseudo pseudo = true) (hregular : isValid regular = true)
    (h : b.fileFor s i pseudo = .ok (some file))
    (h' : b'.fileFor s' i' regular = .ok (some file')) :
    ArtifactStore.rowsTable file ≠ ArtifactStore.rowsTable file' := by
  intro htable
  obtain rfl := ArtifactStore.rowsTable_injective htable
  obtain ⟨-, hfound⟩ := fileName?_of_fileFor h
  obtain ⟨hname, hfound'⟩ := fileName?_of_fileFor h'
  -- the one file would be that of a pseudo sheet and that of a regular one
  have hshared := (isPseudo_of_fileName? hfound').mp
    ((isPseudo_of_fileName? hfound).mpr (Or.inr hpseudo))
  rw [isValid, Bool.and_eq_true, Bool.not_eq_true', Bool.not_eq_true'] at hregular
  rcases hshared with h | h
  · exact Bool.false_ne_true (hname.symm.trans h)
  · exact Bool.false_ne_true (hregular.2.symm.trans h)

/-- The name of a file is trimmed and not blank, it is the file name of itself at every position,
and it is that of a pseudo sheet exactly if the name of its sheet is, or is blank. So when pseudo
sheets are baked as well, in one bake or in two, the rows of a pseudo sheet and those of a regular
one are never in one table, whatever the names and positions of the sheets. -/
theorem fileName?_tells_sheet :
    (∀ name position file, fileName? name position = some file →
      isBlank file = false ∧ trim file = file ∧
        (∀ position', fileName? file position' = some file) ∧
        (isPseudo file = true ↔ isBlank name = true ∨ isPseudo name = true)) ∧
    ∀ {c c' : Catalog} (b : Baker c) (b' : Baker c') s s' i i' {pseudo regular file file'},
      isPseudo pseudo = true → isValid regular = true →
        b.fileFor s i pseudo = .ok (some file) → b'.fileFor s' i' regular = .ok (some file') →
          ArtifactStore.rowsTable file ≠ ArtifactStore.rowsTable file' := by
  constructor
  · intro name position file h
    obtain ⟨htrimmed, hfilled, hplain⟩ := plain_of_fileName? h
    have htrim : trim file = file := by rw [← String.toList_inj, toList_trim, htrimmed]
    refine ⟨?_, htrim, fileName?_of_plain htrimmed hfilled hplain, isPseudo_of_fileName? h⟩
    refine Bool.eq_false_iff.mpr fun hblank => hfilled ?_
    rw [← htrim, trim_of_isBlank hblank]
    rfl
  · intro c c' b b' s s' i i' pseudo regular file file' hpseudo hregular hfile hfile'
    exact rowsTable_ne_of_fileFor hpseudo hregular hfile hfile'

end SheetName

namespace Game

/-- A bake of the quests in which pseudo sheets are not skipped. -/
def openBaker : Baker catalog :=
  { questBaker with schema := { questBaker.schema with allowPseudo := true } }

end Game

/-- The sheet `<Quests>` goes to the file `$Quests`, and the sheet `Quests` to another one. -/
theorem SheetName.fileName?_tells_sheet_quests :
    fileName? "<Quests> " none = some "$Quests" ∧ fileName? "$Quests" (some 7) = some "$Quests" ∧
      isPseudo "<Quests> " = true ∧ isValid "Quests" = true ∧
      Game.openBaker.fileFor Game.openBaker.start 0 "<Quests> " = .ok (some "$Quests") ∧
      Game.openBaker.fileFor Game.openBaker.start 1 "Quests" = .ok (some "Quests") ∧
      ArtifactStore.rowsTable "$Quests" ≠ ArtifactStore.rowsTable "Quests" := by
  have hfile : fileName? "<Quests> " none = some "$Quests" := by decide
  have hpseudo : isPseudo "<Quests> " = true := by decide
  have hregular : isValid "Quests" = true := by decide
  have hfirst : Game.openBaker.fileFor Game.openBaker.start 0 "<Quests> " =
      .ok (some "$Quests") := by rfl
  have hsecond : Game.openBaker.fileFor Game.openBaker.start 1 "Quests" =
      .ok (some "Quests") := by rfl
  exact ⟨hfile, (fileName?_tells_sheet.1 _ _ _ hfile).2.2.1 (some 7), hpseudo, hregular, hfirst,
    hsecond, fileName?_tells_sheet.2 _ _ _ _ _ _ hpseudo hregular hfirst hsecond⟩

end TypedSheets
