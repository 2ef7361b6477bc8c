import EventScript.Proofs.Discovery
import EventScript.Proofs.ManifestTypes
import EventScript.Proofs.NamePatterns

/-! File extensions. An extension is spliced into a pattern for names, so a discovery collects
exactly the files that carry the extension only where it reads as itself. An extension that no name
can have is carried by no file, and has to lead to none. -/

namespace EventScript

/-! ## Patterns -/

namespace PathPattern

end PathPattern

namespace FileTree

/-! ## Files that carry an extension -/

section

variable (tree : FileTree) (directory : Place) (root : Path)

/-- A path is that of a file below an existing directory that search paths lead to, and its name
ends in an extension. -/
def Carries (paths : List String) (extension : String) (file : Path) : Prop :=
  ∃ place, file = .ofPlace place ∧ (tree.content? place).isSome = true ∧
    (∃ outer, tree.Searches directory root paths outer ∧ outer <+: place) ∧
    extension.toList <:+ file.name.toList

end

/-- An extension with which a discovery gives exactly the files that carry it, in every tree and
for all search paths that can be followed. -/
def CollectsExactly (extension : String) : Prop :=
  ∀ (tree : FileTree) (directory : Place) (root : Path) (paths : List String), tree.WellFormed →
    (∀ path ∈ paths, tree.Followable directory root path) →
    ∃ files, tree.discover directory root paths extension = .ok files ∧
      ∀ file, file ∈ files ↔ tree.Carries directory root paths extension file

variable {tree : FileTree} {directory : Place} {root : Path} {extension : String} {paths : List String}

theorem searchPlace_here (here : Place) : searchPlace here ⟨.relative, []⟩ "." = here := by
  have written : Path.ofString "." = ⟨.relative, []⟩ := by decide
  rw [searchPlace, written]
  rfl

theorem searches_here {here place : Place} (isDirectory : tree.isDirectory here = true) :
    tree.Searches here ⟨.relative, []⟩ ["."] place ↔ place = here := by
  simp only [Searches, List.mem_singleton, exists_eq_left, searchPlace_here]
  constructor
  · rintro ⟨_, rfl⟩
    rfl
  · rintro rfl
    exact ⟨isDirectory, rfl⟩

theorem followable_here (wellFormed : tree.WellFormed) {here : Place}
    (isDirectory : tree.isDirectory here = true) : tree.Followable here ⟨.relative, []⟩ "." where
  noNull := by decide
  notTooLong := by
    rw [searchPlace_here]
    exact cannotAsk_of_isDirectory wellFormed isDirectory

theorem CollectsExactly.mem_search (exact : CollectsExactly extension) (wellFormed : tree.WellFormed)
    {here : Place} (isDirectory : tree.isDirectory here = true) :
    ∃ pattern, PathPattern.atAnyDepth? ("*" ++ extension) = some pattern ∧
      tree.stumblesAt? pattern here = none ∧
      ∀ file, file ∈ tree.search pattern here ↔
        tree.Carries here ⟨.relative, []⟩ ["."] extension file := by
  have followable := followable_here wellFormed isDirectory
  rcases exact tree here ⟨.relative, []⟩ ["."] wellFormed (by simpa using followable) with
    ⟨files, found, members⟩
  rw [discover_eq_ok_iff] at found
  rcases Option.isSome_iff_exists.1 (found.1.usable ⟨here, (searches_here isDirectory).2 rfl⟩) with
    ⟨pattern, usable⟩
  have searchable := found.1.searchable pattern here usable ((searches_here isDirectory).2 rfl)
  refine ⟨pattern, usable, searchable, fun file => ?_⟩
  rw [← members, found.2.2, Reaches]
  simp only [usable, searches_here isDirectory, Option.some.injEq]
  constructor
  · intro inside
    exact ⟨pattern, here, rfl, rfl, inside⟩
  · rintro ⟨_, _, rfl, rfl, inside⟩
    exact inside

/-! ## Trees of one file -/

end FileTree

/-! ## Extensions of manifests -/

namespace Manifest

end Manifest

end EventScript
