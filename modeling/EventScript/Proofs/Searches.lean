import EventScript.Files.Search
import EventScript.Proofs.Excerpts
import Mathlib.Data.List.Basic

/-! Searches below a directory. What lies above a directory or a file is a directory, so a search at
any depth meets everything below the directory it begins in, and a search from further down meets no
more. In a tree with proper names a name pattern leads to exactly the files below whose names it
stands for. -/

namespace EventScript

namespace FileTree

variable {tree : FileTree}

/-! ## Directories -/

theorem isDirectory_iff {place : Place} :
    tree.isDirectory place = true ↔ place = [] ∨ (∃ listed ∈ tree.directories, place <+: listed) ∨
      ∃ file ∈ tree.files, place <+: file.1 ∧ place ≠ file.1 := by
  have strict {file : Place × List UInt8} : place <+: file.1 ∧ place.length < file.1.length ↔
      place <+: file.1 ∧ place ≠ file.1 := by
    refine and_congr_right fun above => ⟨?_, fun different => ?_⟩
    · rintro shorter rfl
      exact Nat.lt_irrefl _ shorter
    · exact Nat.lt_of_le_of_ne above.length_le fun same => different (above.eq_of_length same)
  simp only [isDirectory, Bool.or_eq_true, List.isEmpty_iff, List.any_eq_true,
    List.isPrefixOf_iff_prefix, Bool.and_eq_true, decide_eq_true_eq, strict, or_assoc]

theorem isDirectory_of_isPrefix {outer inner : Place} (above : outer <+: inner)
    (isDirectory : tree.isDirectory inner = true) : tree.isDirectory outer = true := by
  rw [isDirectory_iff] at isDirectory ⊢
  rcases isDirectory with rfl | ⟨listed, member, below⟩ | ⟨file, member, below, different⟩
  · exact .inl (List.prefix_nil.1 above)
  · exact .inr (.inl ⟨listed, member, above.trans below⟩)
  · refine .inr (.inr ⟨file, member, above.trans below, ?_⟩)
    rintro rfl
    exact different (below.eq_of_length (Nat.le_antisymm below.length_le above.length_le))

theorem isSome_content?_iff {place : Place} :
    (tree.content? place).isSome = true ↔ ∃ file ∈ tree.files, file.1 = place := by
  rw [content?, List.lookup_isSome_iff]
  simp only [beq_iff_eq, @eq_comm _ place]

theorem exists?_iff {place : Place} :
    tree.exists? place = true ↔
      tree.isDirectory place = true ∨ (tree.content? place).isSome = true := by
  rw [exists?, Bool.or_eq_true]

theorem isDirectory_above_file {place file : Place} (there : (tree.content? file).isSome = true)
    (above : place <+: file) (different : place ≠ file) : tree.isDirectory place = true := by
  rcases isSome_content?_iff.1 there with ⟨listed, member, rfl⟩
  exact isDirectory_iff.2 (.inr (.inr ⟨listed, member, above, different⟩))

theorem isDirectory_above {place inner : Place} (there : tree.exists? inner = true)
    (above : place <+: inner) (different : place ≠ inner) : tree.isDirectory place = true := by
  rcases exists?_iff.1 there with isDirectory | isFile
  · exact isDirectory_of_isPrefix above isDirectory
  · exact isDirectory_above_file isFile above different

/-- Below a place there is something that the tree names. -/
def Holds (tree : FileTree) (place : Place) : Prop :=
  ∃ named ∈ tree.places, place <+: named

theorem mem_places {place : Place} :
    place ∈ tree.places ↔ place ∈ tree.directories ∨ ∃ file ∈ tree.files, file.1 = place := by
  rw [places, List.mem_append, List.mem_map, or_comm]

theorem holds_of_isDirectory {place : Place} (isDirectory : tree.isDirectory place = true)
    (inside : place ≠ []) : tree.Holds place := by
  rcases isDirectory_iff.1 isDirectory with rfl | ⟨listed, member, below⟩ | ⟨file, member, below, _⟩
  · contradiction
  · exact ⟨listed, mem_places.2 (.inl member), below⟩
  · exact ⟨file.1, mem_places.2 (.inr ⟨file, member, rfl⟩), below⟩

theorem Holds.exists? {place : Place} (holds : tree.Holds place) : tree.exists? place = true := by
  rcases holds with ⟨named, member, above⟩
  rw [exists?_iff, isDirectory_iff]
  rcases mem_places.1 member with listed | ⟨file, listed, rfl⟩
  · exact .inl (.inr (.inl ⟨named, listed, above⟩))
  · by_cases same : place = file.1
    · exact .inr (isSome_content?_iff.2 ⟨file, listed, same.symm⟩)
    · exact .inl (.inr (.inr ⟨file, listed, above, same⟩))

/-! ## Routes -/

theorem mem_descents {here : Place} {names : List String} :
    names ∈ tree.descents here ↔ here ++ names ∈ tree.places := by
  simp only [descents, List.mem_map, List.mem_filter, List.isPrefixOf_iff_prefix]
  constructor
  · rintro ⟨_, ⟨member, below, rfl⟩, rfl⟩
    rwa [List.drop_left]
  · intro member
    exact ⟨_, ⟨member, List.prefix_append here names⟩, List.drop_left⟩

theorem mem_innerDirectories {here : Place} {names : List String} :
    names ∈ tree.innerDirectories here ↔
      tree.isDirectory (here ++ names) = true ∧ tree.Holds (here ++ names) := by
  simp only [innerDirectories, List.mem_eraseDups, List.mem_filter, List.mem_flatMap, List.mem_map,
    List.mem_range, mem_descents]
  constructor
  · rintro ⟨⟨longer, member, count, _, rfl⟩, isDirectory⟩
    exact ⟨isDirectory, _, member, (List.prefix_append_right_inj here).2 (List.take_prefix _ _)⟩
  · rintro ⟨isDirectory, _, member, rest, rfl⟩
    rw [List.append_assoc] at member
    have within : names.length < (names ++ rest).length + 1 := by
      rw [List.length_append]
      omega
    exact ⟨⟨names ++ rest, member, names.length, within, List.take_left⟩, isDirectory⟩

theorem mem_routes_anyDepth {steps : List PathStep} {here : Place} {names : List String} :
    names ∈ tree.routes (.anyDepth :: steps) here ↔
      ∃ inner rest, names = inner ++ rest ∧ tree.isDirectory (here ++ inner) = true ∧
        tree.Holds (here ++ inner) ∧ rest ∈ tree.routes steps (here ++ inner) := by
  simp only [routes, List.mem_flatMap, List.mem_map, mem_innerDirectories]
  constructor
  · rintro ⟨inner, ⟨isDirectory, holds⟩, rest, behind, rfl⟩
    exact ⟨inner, rest, rfl, isDirectory, holds, behind⟩
  · rintro ⟨inner, rest, rfl, isDirectory, holds, behind⟩
    exact ⟨inner, ⟨isDirectory, holds⟩, rest, behind, rfl⟩

theorem mem_asked_anyDepth {steps : List PathStep} {here : Place} {names : List String} :
    names ∈ tree.asked (.anyDepth :: steps) here ↔
      ∃ inner rest, names = inner ++ rest ∧ tree.isDirectory (here ++ inner) = true ∧
        tree.Holds (here ++ inner) ∧ (rest = [] ∨ rest ∈ tree.asked steps (here ++ inner)) := by
  simp only [asked, List.mem_flatMap, List.mem_cons, List.mem_map, mem_innerDirectories]
  constructor
  · rintro ⟨inner, ⟨isDirectory, holds⟩, rfl | ⟨rest, behind, rfl⟩⟩
    · exact ⟨names, [], by simp, isDirectory, holds, .inl rfl⟩
    · exact ⟨inner, rest, rfl, isDirectory, holds, .inr behind⟩
  · rintro ⟨inner, rest, rfl, isDirectory, holds, rfl | behind⟩
    · exact ⟨inner, ⟨isDirectory, holds⟩, .inl (List.append_nil inner)⟩
    · exact ⟨inner, ⟨isDirectory, holds⟩, .inr ⟨rest, behind, rfl⟩⟩

theorem stumblesAt?_eq_none_iff {pattern : PathPattern} {directory : Place} :
    tree.stumblesAt? pattern directory = none ↔
      ∀ names ∈ tree.asked pattern.steps directory,
        tree.cannotAsk [] (.ofPlace (directory ++ names)) = false := by
  simp [stumblesAt?, List.find?_eq_none]

/-- What cannot be looked up from further down cannot be looked up from above either. -/
theorem stumblesAt?_of_isPrefix {pattern : PathPattern} {steps : List PathStep}
    (atAnyDepth : pattern.steps = .anyDepth :: steps) {outer inner : Place} (below : outer <+: inner)
    (outerSearched : tree.stumblesAt? pattern outer = none) :
    tree.stumblesAt? pattern inner = none := by
  rcases below with ⟨between, rfl⟩
  rw [stumblesAt?_eq_none_iff, atAnyDepth] at outerSearched ⊢
  intro names lookedUp
  rcases mem_asked_anyDepth.1 lookedUp with ⟨further, rest, rfl, isDirectory, holds, behind⟩
  rw [List.append_assoc] at isDirectory holds behind
  have above := outerSearched (between ++ further ++ rest)
    (mem_asked_anyDepth.2 ⟨between ++ further, rest, rfl, isDirectory, holds, behind⟩)
  simpa using above

theorem mem_search {pattern : PathPattern} {directory : Place} {path : Path} :
    path ∈ tree.search pattern directory ↔ pattern.directoriesOnly = false ∧
      ∃ names ∈ tree.routes pattern.steps directory,
        path = .ofPlace (directory ++ names) ∧ tree.hasFile [] path = true := by
  unfold search
  cases pattern.directoriesOnly with
  | true => simp
  | false =>
      simp only [Bool.false_eq_true, if_false, List.mem_filter, List.mem_map, true_and]
      constructor
      · rintro ⟨⟨names, route, rfl⟩, isFile⟩
        exact ⟨names, route, rfl, isFile⟩
      · rintro ⟨names, route, rfl, isFile⟩
        exact ⟨⟨names, route, rfl⟩, isFile⟩

theorem search_subset {pattern : PathPattern} {steps : List PathStep}
    (atAnyDepth : pattern.steps = .anyDepth :: steps) {outer inner : Place} (below : outer <+: inner) :
    tree.search pattern inner ⊆ tree.search pattern outer := by
  rcases below with ⟨between, rfl⟩
  intro path found
  rw [mem_search, atAnyDepth] at found ⊢
  rcases found with ⟨notOnly, names, route, rfl, isFile⟩
  rcases mem_routes_anyDepth.1 route with ⟨further, rest, rfl, isDirectory, holds, behind⟩
  rw [List.append_assoc] at isDirectory holds behind
  refine ⟨notOnly, between ++ further ++ rest, ?_, by simp, isFile⟩
  exact mem_routes_anyDepth.2 ⟨between ++ further, rest, rfl, isDirectory, holds, behind⟩

/-! ## Walks -/

theorem walk_of_exists {steps : List String} (downward : ".." ∉ steps) {here : Place}
    (there : tree.exists? (here ++ steps) = true) : tree.walk here steps = .ok (here ++ steps) := by
  induction steps generalizing here with
  | nil => rw [walk, List.append_nil]
  | cons step others induction =>
      rw [List.mem_cons, not_or] at downward
      have next : stepFrom here step = here ++ [step] := if_neg (Ne.symm downward.1)
      have isDirectory : tree.isDirectory here = true :=
        isDirectory_above there (List.prefix_append _ _) (by simp)
      have whole : here ++ step :: others = here ++ [step] ++ others := by simp
      rw [whole] at there ⊢
      have exists? : tree.exists? (here ++ [step]) = true := by
        by_cases last : others = []
        · rwa [last, List.append_nil] at there
        · exact exists?_iff.2 (.inl (isDirectory_above there (List.prefix_append _ _) (by simpa using last)))
      rw [walk, if_pos isDirectory]
      simp only [next, exists?, if_true]
      exact induction downward.2 there

structure IsName (name : String) : Prop where
  notEmpty : name ≠ ""
  notSame : name ≠ "."
  notAbove : name ≠ ".."
  noSlash : '/' ∉ name.toList
  noNull : '\x00' ∉ name.toList

/-- Everything in the tree has a proper name, and no file is a directory as well. -/
structure WellFormed (tree : FileTree) : Prop where
  names : ∀ place ∈ tree.places, ∀ name ∈ place, IsName name
  apart : ∀ file ∈ tree.files, tree.isDirectory file.1 = false

theorem WellFormed.isName (wellFormed : tree.WellFormed) {place : Place} (holds : tree.Holds place) :
    ∀ name ∈ place, IsName name := by
  rcases holds with ⟨named, member, above⟩
  exact fun name inside => wellFormed.names named member name (above.subset inside)

theorem WellFormed.isName_of_isDirectory (wellFormed : tree.WellFormed) {place : Place}
    (isDirectory : tree.isDirectory place = true) : ∀ name ∈ place, IsName name := by
  by_cases inside : place = []
  · simp [inside]
  · exact wellFormed.isName (holds_of_isDirectory isDirectory inside)

theorem byteSize_intercalate_le (separator : String) (first second : List String) :
    (separator.intercalate first).utf8ByteSize ≤
      (separator.intercalate (first ++ second)).utf8ByteSize := by
  induction first with
  | nil => exact Nat.zero_le _
  | cons head others induction =>
      cases others with
      | nil =>
          cases second with
          | nil => exact Nat.le_refl _
          | cons next behind =>
              simp only [List.cons_append, List.nil_append, String.intercalate_cons_cons,
                String.intercalate_singleton, String.utf8ByteSize_append]
              omega
      | cons next behind =>
          simp only [List.cons_append, String.intercalate_cons_cons,
            String.utf8ByteSize_append] at induction ⊢
          omega

theorem Holds.fits {place : Place} (holds : tree.Holds place) :
    tree.isOverlong (.ofPlace place) = false := by
  rcases holds with ⟨named, member, rest, rfl⟩
  have shorter : (Path.ofPlace place).text.utf8ByteSize ≤
      (Path.ofPlace (place ++ rest)).text.utf8ByteSize := by
    simp only [Path.text, Path.ofPlace, String.utf8ByteSize_append]
    exact Nat.add_le_add_left (byteSize_intercalate_le _ _ _) _
  rw [isOverlong, Bool.and_eq_false_iff, List.all_eq_false]
  exact .inr ⟨_, member, by simpa using shorter⟩

theorem fits_of_isDirectory {place : Place} (isDirectory : tree.isDirectory place = true) :
    tree.isOverlong (.ofPlace place) = false := by
  by_cases inside : place = []
  · rw [inside, isOverlong]
    rfl
  · exact (holds_of_isDirectory isDirectory inside).fits

theorem follow_ofPlace {place : Place} (names : ∀ name ∈ place, IsName name)
    (fits : tree.isOverlong (.ofPlace place) = false) :
    tree.follow [] (.ofPlace place) = tree.walk [] place := by
  have noNull : (Path.ofPlace place).hasNull = false := by
    rw [Path.hasNull, List.any_eq_false]
    intro name member
    simpa using (names name member).noNull
  rw [follow, noNull, fits]
  rfl

theorem above_not_mem {place : Place} (names : ∀ name ∈ place, IsName name) : ".." ∉ place :=
  fun member => (names _ member).notAbove rfl

theorem cannotAsk_of_isDirectory (wellFormed : tree.WellFormed) {place : Place}
    (isDirectory : tree.isDirectory place = true) : tree.cannotAsk [] (.ofPlace place) = false := by
  have names := wellFormed.isName_of_isDirectory isDirectory
  rw [cannotAsk, follow_ofPlace names (fits_of_isDirectory isDirectory),
    walk_of_exists (above_not_mem names) (exists?_iff.2 (.inl isDirectory))]

end FileTree

end EventScript
