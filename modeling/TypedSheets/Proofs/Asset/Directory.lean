import TypedSheets.Asset.Resolver
import TypedSheets.Files.Tree
import TypedSheets.Proofs.Sorted
import TypedSheets.Proofs.Text.Parts

/-!
# Files below a directory of assets

A path leads to where its names lead, one below the other, a double dot taking back the name in
front of it. So a file is below a directory if more names follow those of the directory. A path
without double dots that is joined to a directory leads there, if it is not absolute.

An asset that a directory finds is a file. It is below the directory if the path of the asset is not
absolute: the path holds no double dots, and the names in a directory of the tree lead nowhere else.
An absolute path stands for itself, so that the asset is found wherever that path leads, whatever
the directory is.

## Main definitions

* `Path.IsName` — a text that names one file or directory
* `FileNode.WellNamed` — a tree in which every entry has such a name
* `FileNode.descend?` — what names lead to, each below the one in front of it
* `FileNode.Trail` — a node with the directories and the names on the way to it
* `FileNode.IsBelow` — a file below a directory

## Main results

* `Path.names_join` — the names of a path below another
* `FileNode.descend?_normalNames` — a path leads to where its names lead
* `FileNode.isBelow_join` — a path without double dots leads to files below the directory
* `FileNode.wellNamed_ofFiles` — the tree of a list of files is well named
* `DirectoryAssets.notMem_names_of_goesUp` — a path that passes the check holds no double dots
* `DirectoryAssets.resolver_location` — where a found asset is
* `DirectoryAssets.resolver_location_outside` — an asset that is found outside its directory
-/

namespace TypedSheets

namespace Path

/-! ### The names of a path -/

/-- A text that names one file or directory. -/
structure IsName (name : String) : Prop where
  ne_empty : name ≠ ""
  ne_here : name ≠ "."
  ne_up : name ≠ ".."
  noSlash : '/' ∉ name.toList

theorem parts_append_slash (front behind : String) :
    parts (front ++ "/" ++ behind) = parts front ++ parts behind := by
  have htext : (front ++ "/" ++ behind).toList = front.toList ++ '/' :: behind.toList := by
    rw [String.toList_append, String.toList_append, List.append_assoc]
    rfl
  simp only [parts, htext, Text.splitBy_eq_splitOnP]
  rw [List.splitOnP_append_cons (p := fun c => c == '/') _ _ rfl, List.map_append]

/-- A path that is joined to another leads on from there, unless it is absolute. -/
theorem exists_parts_join (base : String) {path : String} (h : isAbsolute path = false) :
    ∃ front, parts (join base path) = front ++ parts path ∧
      front.filter (fun p => p != "" && p != ".") = names base := by
  rw [join, h, Bool.false_or]
  split
  · next hempty =>
    obtain rfl : base = "" := String.isEmpty_iff.mp hempty
    exact ⟨[], rfl, by decide⟩
  · split
    · next hslash =>
      -- the slash is there already, and nothing stands behind it in the base
      obtain ⟨front, hfront⟩ := List.getLast?_eq_some_iff.mp (beq_iff_eq.mp hslash)
      have hbase : base = String.ofList front ++ "/" := by
        rw [← String.toList_inj, String.toList_append, String.toList_ofList, hfront]
        rfl
      refine ⟨parts (String.ofList front), ?_, ?_⟩
      · rw [hbase, parts_append_slash]
      · have hparts := parts_append_slash (String.ofList front) ""
        rw [String.append_empty, ← hbase] at hparts
        rw [names, hparts, List.filter_append]
        exact (List.append_nil _).symm
    · exact ⟨parts base, parts_append_slash base path, rfl⟩

theorem names_join {base path : String} (h : isAbsolute path = false) :
    names (join base path) = names base ++ names path := by
  obtain ⟨front, hparts, hfront⟩ := exists_parts_join base h
  rw [names, hparts, List.filter_append, hfront]
  rfl

theorem noSlash_of_mem_parts {path part : String} (h : part ∈ parts path) :
    '/' ∉ part.toList := fun hslash => by
  obtain ⟨cs, hcs, rfl⟩ := List.mem_map.mp h
  rw [String.toList_ofList] at hslash
  exact absurd (Text.not_mem_of_mem_splitBy hcs '/' hslash) (by decide)

theorem IsName.names_eq {name : String} (h : IsName name) : names name = [name] := by
  have hparts : parts name = [name] := by
    have hslash : ∀ c ∈ name.toList, (c == '/') = false := fun c hc =>
      beq_eq_false_iff_ne.mpr fun heq => h.noSlash (heq ▸ hc)
    rw [parts, Text.splitBy_eq_splitOnP, List.splitOnP_eq_singleton hslash, List.map_singleton,
      String.ofList_toList]
  rw [names, hparts]
  simp [h.ne_empty, h.ne_here]

theorem IsName.not_isAbsolute {name : String} (h : IsName name) : isAbsolute name = false := by
  refine beq_eq_false_iff_ne.mpr fun hhead => h.noSlash (List.mem_of_head? hhead)

end Path

namespace FileNode

open TypedSheets.Path (names IsName)

/-- A double dot takes back the name in front of it. -/
theorem normalNames_of_names {path base : String} {behind : List String}
    (h : names path = names base ++ behind) (hup : ".." ∉ behind) :
    normalNames path = normalNames base ++ behind := by
  have hfold : ∀ done : List String,
      behind.foldl (fun done p => if p == ".." then done.drop 1 else p :: done) done =
        behind.reverse ++ done := by
    clear h
    induction behind with
    | nil => exact fun done => rfl
    | cons name rest ih =>
      obtain ⟨hname, hrest⟩ := not_or.mp (mt List.mem_cons.mpr hup)
      intro done
      rw [List.foldl_cons, if_neg (by simpa using Ne.symm hname), ih hrest, List.reverse_cons,
        List.append_assoc, List.singleton_append]
  rw [normalNames, h, List.foldl_append, hfold, List.reverse_append, List.reverse_reverse]
  rfl

/-! ### Going down -/

/-- The node that names lead to, each below the one in front of it. -/
def descend? (node : FileNode) : List String → Option FileNode
  | [] => some node
  | name :: rest =>
    match node.entries?.bind (Entries.get? compareText name) with
    | some child => descend? child rest
    | none => none

theorem descend?_append (node : FileNode) (front behind : List String) :
    node.descend? (front ++ behind) = (node.descend? front).bind (descend? · behind) := by
  induction front generalizing node with
  | nil => rfl
  | cons name rest ih =>
    rw [List.cons_append, descend?, descend?]
    split
    · exact ih _
    · rfl

/-- A node, with the directories above it and the names on the way to it, the nearest first. -/
inductive Trail (root : FileNode) : List String → List FileNode → FileNode → Prop
  | start : Trail root [] [] root
  | enter {done : List String} {above : List FileNode} {node child : FileNode} {name : String}
      (h : Trail root done above node)
      (hchild : node.entries?.bind (Entries.get? compareText name) = some child) :
      Trail root (name :: done) (node :: above) child

variable {root node : FileNode} {done : List String} {above : List FileNode}

theorem Trail.descend?_eq (h : Trail root done above node) :
    root.descend? done.reverse = some node := by
  induction h with
  | start => rfl
  | enter h hchild ih =>
    rw [List.reverse_cons, descend?_append, ih, Option.bind_some, descend?, hchild]
    rfl

theorem follow?_cons (above : List FileNode) (node : FileNode) (part : String)
    (rest : List String) :
    follow? above node (part :: rest) =
      if node.entries?.isNone then none
      else if part == "" || part == "." then follow? above node rest
      else if part == ".." then follow? above.tail (above.headD node) rest
      else (node.entries?.bind (Entries.get? compareText part)).bind
        fun child => follow? (node :: above) child rest := by
  rw [follow?.eq_def]
  cases node.entries? with
  | none => rfl
  | some es => cases above <;> cases hget : Entries.get? compareText part es <;> simp [hget]

/-- Following the parts of a path leads from trail to trail. -/
theorem Trail.follow? (h : Trail root done above node) {parts : List String} {found : FileNode}
    (hfound : FileNode.follow? above node parts = some found) :
    ∃ above', Trail root
      ((parts.filter fun p => p != "" && p != ".").foldl
        (fun done p => if p == ".." then done.drop 1 else p :: done) done) above' found := by
  induction parts generalizing done above node with
  | nil =>
    obtain rfl := Option.some.inj hfound
    exact ⟨above, h⟩
  | cons part rest ih =>
    rw [follow?_cons] at hfound
    split at hfound
    · cases hfound
    · split at hfound
      -- empty names and single dots are passed over, and they are filtered from the path as well
      · next hblank =>
        rw [List.filter_cons_of_neg (by grind)]
        exact ih h hfound
      · next hblank =>
        rw [List.filter_cons_of_pos (by grind), List.foldl_cons]
        split at hfound
        · next hup =>
          rw [if_pos hup]
          -- going up leaves the innermost name, and at the root it leads nowhere else
          cases h with
          | start => exact ih .start hfound
          | enter h hchild => exact ih h hfound
        · next hup =>
          rw [if_neg hup]
          obtain ⟨child, hchild, hfound⟩ := Option.bind_eq_some_iff.mp hfound
          exact ih (.enter h hchild) hfound

/-- A path leads to where its names lead. -/
theorem descend?_normalNames {files : FileNode} {path : String}
    (h : files.find? path = some node) : files.descend? (normalNames path) = some node := by
  obtain ⟨above, htrail⟩ := Trail.start.follow? h
  exact htrail.descend?_eq

/-- A file below a directory: more names follow those of the directory, and lead down to it. -/
def IsBelow (files : FileNode) (directory location : String) : Prop :=
  ∃ names node, names ≠ [] ∧ normalNames location = normalNames directory ++ names ∧
    files.descend? (normalNames directory) = some node ∧
    (node.descend? names).any (fun file => file.entries?.isNone) = true

theorem isBelow_of_normalNames {files : FileNode} {directory location : String}
    {behind : List String} (hfile : files.isFile location = true)
    (h : normalNames location = normalNames directory ++ behind) (hne : behind ≠ []) :
    files.IsBelow directory location := by
  rw [isFile, Option.any_eq_true] at hfile
  obtain ⟨file, hfind, hleaf⟩ := hfile
  have hdown := descend?_normalNames hfind
  rw [h, descend?_append, Option.bind_eq_some_iff] at hdown
  obtain ⟨node, hnode, hdown⟩ := hdown
  exact ⟨behind, node, hne, h, hnode, by rw [hdown]; exact hleaf⟩

/-- Only directories have a path that ends in a slash or in a dot. -/
theorem entries?_of_follow?_blank {parts : List String} {part : String} {found : FileNode}
    (hblank : (part == "" || part == ".") = true)
    (h : follow? above node (parts ++ [part]) = some found) : found.entries?.isSome = true := by
  -- along the path: a blank name is followed in a directory only
  induction parts generalizing above node with
  | nil =>
    rw [List.nil_append, follow?_cons, if_pos hblank] at h
    split at h
    · cases h
    · next hdirectory =>
      obtain rfl := Option.some.inj h
      rw [Option.isSome_iff_ne_none]
      exact fun hnone => hdirectory (Option.isNone_iff_eq_none.mpr hnone)
  | cons first rest ih =>
    rw [List.cons_append, follow?_cons] at h
    split at h
    · cases h
    · split at h
      · exact ih h
      · split at h
        · exact ih h
        · obtain ⟨child, -, h⟩ := Option.bind_eq_some_iff.mp h
          exact ih h

/-- A path that leads to a file has a name at its end. -/
theorem names_ne_nil_of_isFile {files : FileNode} {base path : String}
    (h : Path.isAbsolute path = false) (hfile : files.isFile (Path.join base path) = true) :
    names path ≠ [] := fun hnil => by
  obtain ⟨front, hparts, -⟩ := Path.exists_parts_join base h
  rw [isFile, Option.any_eq_true] at hfile
  obtain ⟨file, hfind, hleaf⟩ := hfile
  rcases List.eq_nil_or_concat (Path.parts path) with hparts' | ⟨others, last, hlast⟩
  · exact Text.splitBy_ne_nil _ _ (List.map_eq_nil_iff.mp hparts')
  · have hblank : (last == "" || last == ".") = true := by
      have hskipped := List.filter_eq_nil_iff.mp hnil last (by simp [hlast])
      grind
    rw [find?, hparts, hlast, List.concat_eq_append, ← List.append_assoc] at hfind
    have hdirectory := entries?_of_follow?_blank hblank hfind
    rw [Option.isNone_iff_eq_none] at hleaf
    rw [hleaf] at hdirectory
    cases hdirectory

/-- A path without double dots leads to files below the directory that it is joined to, unless it is
absolute. -/
theorem isBelow_join {files : FileNode} {base path : String} (h : Path.isAbsolute path = false)
    (hup : ".." ∉ names path) (hfile : files.isFile (Path.join base path) = true) :
    files.IsBelow base (Path.join base path) :=
  isBelow_of_normalNames hfile (normalNames_of_names (Path.names_join h) hup)
    (names_ne_nil_of_isFile h hfile)

/-! ### Well-named trees -/

/-- Every entry of the tree has a name of its own. -/
inductive WellNamed : FileNode → Prop
  | file (text : String) : WellNamed (.file text)
  | binary : WellNamed .binary
  | directory {es : List (String × FileNode)} (hnames : ∀ e ∈ es, IsName e.1)
      (hnodes : ∀ e ∈ es, WellNamed e.2) : WellNamed (.directory es)

/-- Directories that a path goes through are well named. -/
theorem WellNamed.follow? (habove : ∀ n ∈ above, WellNamed n) (h : WellNamed node)
    {parts : List String} {found : FileNode}
    (hfound : FileNode.follow? above node parts = some found) : WellNamed found := by
  induction parts generalizing above node with
  | nil =>
    obtain rfl := Option.some.inj hfound
    exact h
  | cons part rest ih =>
    rw [follow?_cons] at hfound
    split at hfound
    · cases hfound
    · split at hfound
      · exact ih habove h hfound
      · split at hfound
        -- going up leads to a directory that was passed on the way down
        · refine ih (fun n hn => habove n (List.mem_of_mem_tail hn)) ?_ hfound
          cases above with
          | nil => exact h
          | cons up above => exact habove up List.mem_cons_self
        · obtain ⟨child, hchild, hfound⟩ := Option.bind_eq_some_iff.mp hfound
          refine ih (List.forall_mem_cons.mpr ⟨h, habove⟩) ?_ hfound
          cases h with
          | file _ | binary => cases hchild
          | directory hnames hnodes =>
            obtain ⟨name, hmem⟩ := Entries.exists_mem_of_get? hchild
            exact hnodes _ hmem

theorem WellNamed.isName_of_list? {files : FileNode} (h : WellNamed files) {path : String}
    {found : List String} (hfound : files.list? path = some found) :
    ∀ name ∈ found, IsName name := by
  rw [list?] at hfound
  split at hfound
  · next es hfind =>
    obtain rfl := Option.some.inj hfound
    cases h.follow? (fun n hn => absurd hn List.not_mem_nil) hfind with
    | directory hnames hnodes => exact List.forall_mem_map.mpr hnames
  · cases hfound

theorem WellNamed.insert {es : List (String × FileNode)} {name : String} {child : FileNode}
    (h : WellNamed (.directory es)) (hname : IsName name) (hchild : WellNamed child) :
    WellNamed (.directory (Entries.insert compareText name child es)) := by
  cases h with
  | directory hnames hnodes =>
    refine .directory (fun e he => ?_) fun e he => ?_
    · have hmem := List.mem_map_of_mem (f := Prod.fst) he
      rw [Entries.map_fst_insert] at hmem
      rcases mem_of_mem_insertKey hmem with heq | hmem
      · rwa [heq]
      · obtain ⟨e', he', heq⟩ := List.mem_map.mp hmem
        exact heq ▸ hnames e' he'
    · rcases Entries.snd_mem_of_mem_insert he with heq | hmem
      · rwa [heq]
      · obtain ⟨e', he', heq⟩ := List.mem_map.mp hmem
        exact heq ▸ hnodes e' he'

theorem wellNamed_putNew {new tree : FileNode} (hnew : WellNamed new) {names : List String}
    (hnames : ∀ name ∈ names, IsName name) (h : put?.putNew new names = some tree) :
    WellNamed tree := by
  induction names generalizing tree with
  | nil =>
    obtain rfl := Option.some.inj h
    exact hnew
  | cons name rest ih =>
    obtain ⟨hname, hrest⟩ := List.forall_mem_cons.mp hnames
    obtain ⟨child, hchild, rfl⟩ := Option.map_eq_some_iff.mp h
    exact .directory (List.forall_mem_singleton.mpr hname)
      (List.forall_mem_singleton.mpr (ih hrest hchild))

/-- What is put under proper names leaves the tree well named. -/
theorem WellNamed.put? {replace : FileNode → Bool} {new tree : FileNode} (hnew : WellNamed new)
    {names : List String} (hnames : ∀ name ∈ names, IsName name) (h : WellNamed node)
    (hput : FileNode.put? replace new names node = some tree) : WellNamed tree := by
  induction names generalizing node tree with
  | nil =>
    rw [FileNode.put?] at hput
    split at hput
    · obtain rfl := Option.some.inj hput
      exact hnew
    · cases hput
  | cons name rest ih =>
    obtain ⟨hname, hrest⟩ := List.forall_mem_cons.mp hnames
    cases h with
    | file _ | binary => cases hput
    | @directory es hes hnodes =>
      simp only [FileNode.put?, entries?] at hput
      obtain ⟨child, hchild, rfl⟩ := Option.map_eq_some_iff.mp hput
      -- the directory gets one entry anew: an old one that was put into, or a new one
      refine (WellNamed.directory hes hnodes).insert hname ?_
      split at hchild
      · next old hold =>
        obtain ⟨key, hmem⟩ := Entries.exists_mem_of_get? hold
        exact ih hrest (hnodes _ hmem) hchild
      · exact wellNamed_putNew hnew hrest hchild

/-- The names that a path goes through are proper. -/
theorem isName_of_mem_normalNames {path : String} : ∀ name ∈ normalNames path, IsName name := by
  have hnames : ∀ p ∈ names path, p ≠ "" ∧ p ≠ "." ∧ '/' ∉ p.toList := fun p hp => by
    obtain ⟨hp, hname⟩ := List.mem_filter.mp hp
    simp only [Bool.and_eq_true, bne_iff_ne] at hname
    exact ⟨hname.1, hname.2, Path.noSlash_of_mem_parts hp⟩
  intro name hname
  refine List.foldlRecOn (motive := fun done => ∀ p ∈ done, IsName p) (names path) _
    (fun p hp => absurd hp List.not_mem_nil) (fun done hdone p hp => ?_) name
    (List.mem_reverse.mp hname)
  obtain ⟨hempty, hhere, hslash⟩ := hnames p hp
  split
  · exact fun q hq => hdone q (List.mem_of_mem_drop hq)
  · next hup =>
    exact List.forall_mem_cons.mpr ⟨⟨hempty, hhere, fun h => hup (beq_iff_eq.mpr h), hslash⟩, hdone⟩

/-- The tree of a list of files is well named. -/
theorem wellNamed_ofFiles (fs : List (String × String)) : WellNamed (ofFiles fs) := by
  refine List.foldlRecOn fs _ (WellNamed.directory (by simp) (by simp)) fun tree h f _ => ?_
  cases hwrite : tree.write? f.1 f.2 with
  | none => exact h
  | some new => exact (WellNamed.file f.2).put? isName_of_mem_normalNames h hwrite

end FileNode

end TypedSheets

/-! ## Where a directory of assets finds its files -/

namespace TypedSheets

namespace Text

/-- A part between separators is one between more separators, if none of them stands in it. -/
theorem mem_splitBy_of_mem_splitBy {sep : Char} {isSep : Char → Bool} (hsep : isSep sep = true)
    {s part : List Char} (h : part ∈ splitBy (· == sep) s) (hpart : ∀ c ∈ part, isSep c = false) :
    part ∈ splitBy isSep s := by
  rw [splitBy_eq_splitOnP, ← List.splitOn_eq_splitOnP] at h
  have hs : [sep].intercalate (s.splitOn sep) = s := List.intercalate_splitOn sep
  rw [splitBy_eq_splitOnP, ← hs]
  -- on the parts between the one separator: each of them is cut further, or it is the one in
  -- question
  generalize s.splitOn sep = parts at h
  induction parts with
  | nil => cases h
  | cons first others ih =>
    cases others with
    | nil =>
      obtain rfl := List.mem_singleton.mp h
      rw [List.intercalate_singleton, List.splitOnP_eq_singleton hpart]
      exact List.mem_singleton_self part
    | cons second others =>
      rw [List.intercalate_cons_cons, List.append_assoc, List.singleton_append,
        List.splitOnP_append_cons _ _ hsep]
      rcases List.mem_cons.mp h with rfl | h
      · rw [List.splitOnP_eq_singleton hpart]
        exact List.mem_append_left _ (List.mem_singleton_self part)
      · exact List.mem_append_right _ (ih h)

end Text

namespace DirectoryAssets

open TypedSheets.Path (names)

/-- A path that passes the check holds no double dots. -/
theorem notMem_names_of_goesUp {path : String} (h : goesUp path = false) : ".." ∉ names path := by
  intro hmem
  obtain ⟨part, hpart, heq⟩ := List.mem_map.mp (List.mem_of_mem_filter hmem)
  have hdots : part = "..".toList := by rw [← heq, String.toList_ofList]
  have hplain : ∀ c ∈ part, (c == '/' || c == '\\') = false := fun c hc => by
    rw [hdots] at hc
    obtain rfl : c = '.' := by simpa using hc
    rfl
  have hsplit : part ∈ Text.splitBy (fun c => c == '/' || c == '\\') path.toList :=
    Text.mem_splitBy_of_mem_splitBy rfl hpart hplain
  exact List.any_eq_false.mp h part hsplit (beq_iff_eq.mpr hdots)

variable {a : DirectoryAssets} {path location : String} {sub : Option String}

/-- What is found is the file of the path, or a file in the directory of the path. -/
theorem location?_cases (h : a.location? path sub = some location) :
    goesUp path = false ∧ a.files.isFile location = true ∧
      (location = Path.join a.root path ∨
        ∃ found name, a.files.list? (Path.join a.root path) = some found ∧ name ∈ found ∧
          location = Path.join (Path.join a.root path) name) := by
  rw [location?] at h
  -- a path that could go up is refused first
  split at h
  · cases h
  · next hguard =>
    obtain ⟨-, hup⟩ := Bool.or_eq_false_iff.mp (Bool.eq_false_iff.mpr hguard)
    dsimp only at h
    split at h
    · next hfile =>
      obtain rfl := Option.some.inj h
      exact ⟨hup, hfile, .inl rfl⟩
    -- the path is no file itself, so the item is looked for below it
    · obtain ⟨item, -, h⟩ := Option.bind_eq_some_iff.mp h
      rw [itemFile?] at h
      split at h
      · cases h
      · next found hfound =>
        obtain ⟨⟨name, full⟩, hmem, h⟩ := List.exists_of_findSome?_eq_some h
        obtain ⟨name', hname, heq⟩ := List.mem_map.mp hmem
        cases heq
        dsimp only at h
        split at h
        · next hfile =>
          obtain rfl := Option.some.inj h
          exact ⟨hup, (Bool.and_eq_true_iff.mp hfile).1, .inr ⟨found, name, hfound, hname, rfl⟩⟩
        · cases h

/-- What is found by a path that is not absolute is below the directory. -/
theorem isBelow_of_location? (hfiles : a.files.WellNamed) (hpath : Path.isAbsolute path = false)
    (h : a.location? path sub = some location) : a.files.IsBelow a.root location := by
  obtain ⟨hup, hfile, rfl | ⟨found, name, hfound, hmem, rfl⟩⟩ := location?_cases h
  · exact FileNode.isBelow_join hpath (notMem_names_of_goesUp hup) hfile
  · have hname := hfiles.isName_of_list? hfound name hmem
    have hnames : names (Path.join (Path.join a.root path) name) =
        names a.root ++ (names path ++ [name]) := by
      rw [Path.names_join hname.not_isAbsolute, Path.names_join hpath, hname.names_eq,
        List.append_assoc]
    have hdots : ".." ∉ names path ++ [name] := by
      rw [List.mem_append, List.mem_singleton, not_or]
      exact ⟨notMem_names_of_goesUp hup, Ne.symm hname.ne_up⟩
    exact FileNode.isBelow_of_normalNames hfile (FileNode.normalNames_of_names hnames hdots)
      (by simp)

/-- An asset that is found is a file. It is below the directory if its path is not absolute; an
absolute path leads to the same file from every directory. -/
theorem resolver_location {handle : AssetHandle} (hfiles : a.files.WellNamed)
    (h : a.resolver path sub = some handle) :
    a.files.isFile handle.location = true ∧
      (Path.isAbsolute path = false → a.files.IsBelow a.root handle.location) ∧
      (Path.isAbsolute path = true → ∀ root, resolver ⟨a.files, root⟩ path sub = some handle) := by
  have hresolver := h
  obtain ⟨location, hlocation, rfl⟩ := Option.map_eq_some_iff.mp h
  refine ⟨(location?_cases hlocation).2.1, fun hpath => isBelow_of_location? hfiles hpath hlocation,
    fun hpath root => ?_⟩
  have hjoin : ∀ base, Path.join base path = path := fun base => by
    rw [Path.join, hpath, Bool.true_or, if_pos rfl]
  rw [← hresolver, resolver, resolver, location?, location?, hjoin, hjoin]

/-- An item of a directory below the root. -/
theorem resolver_location_icons :
    let a : DirectoryAssets := ⟨.ofFiles [("assets/icons/sword.png", "")], "/assets"⟩
    (a.files.WellNamed ∧
      a.resolver "icons" (some "sword") =
        some ⟨"icons", some "sword", "/assets/icons/sword.png"⟩) ∧
      a.files.IsBelow "/assets" "/assets/icons/sword.png" := by
  intro a
  have hfiles : a.files.WellNamed := FileNode.wellNamed_ofFiles _
  have hfound : a.resolver "icons" (some "sword") =
      some ⟨"icons", some "sword", "/assets/icons/sword.png"⟩ := by decide
  exact ⟨⟨hfiles, hfound⟩, (resolver_location hfiles hfound).2.1 (by decide)⟩

/-- A file outside the directory is found by its absolute path. -/
theorem resolver_location_outside :
    let a : DirectoryAssets := ⟨.ofFiles [("assets/hit.wav", ""), ("secret.txt", "")], "/assets"⟩
    a.files.WellNamed ∧
      a.resolver "/secret.txt" none = some ⟨"/secret.txt", none, "/secret.txt"⟩ ∧
      ¬ a.files.IsBelow "/assets" "/secret.txt" := by
  refine ⟨FileNode.wellNamed_ofFiles _, by decide, ?_⟩
  rintro ⟨behind, node, -, hnames, -⟩
  have hroot : FileNode.normalNames "/assets" = ["assets"] := by decide +kernel
  have hfile : FileNode.normalNames "/secret.txt" = ["secret.txt"] := by decide +kernel
  rw [hroot, hfile] at hnames
  exact absurd (List.cons.inj hnames).1 (by decide)

end DirectoryAssets

end TypedSheets
