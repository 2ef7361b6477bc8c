import EventScript.CommandLine.Run
import EventScript.Proofs.FoldedSections

/-! Builds of many files. A build does to every file what is done to it alone: it holds the scripts
of the files that compile, each path once, and every occurrence of one that does not. A check
reports every occurrence once, on the stream that its file decides. -/

namespace EventScript

/-! ## Keyed entries -/

theorem lookup_filterMap_keys {Key Value : Type} [DecidableEq Key] (value? : Key → Option Value)
    (keys : List Key) (key : Key) :
    (keys.filterMap fun other => (value? other).map (other, ·)).lookup key =
      if key ∈ keys then value? key else none := by
  induction keys with
  | nil => simp
  | cons first others induction =>
      by_cases sought : key = first
      · subst sought
        cases valued : value? key with
        | none => simp [valued, induction]
        | some value => simp [valued]
      · cases valued : value? first with
        | none => simp [valued, induction, sought]
        | some value => simp [valued, induction, sought, List.lookup_cons, beq_false_of_ne sought]

namespace FileTree

variable {tree : FileTree} {directory : Place} {path : Path}

def scriptOf? (tree : FileTree) (directory : Place) (path : Path) : Option Script :=
  match tree.compileFile directory path with
  | .ok (.ok compilation) => some compilation.script
  | _ => none

def refusalOf? (tree : FileTree) (directory : Place) (path : Path) : Option Diagnostic :=
  match tree.compileFile directory path with
  | .ok (.error diagnostic) => some diagnostic
  | _ => none

end FileTree

/-! ## Builds -/

namespace Build

open FileTree (scriptOf? refusalOf?)

/-- The build holds what becomes of every one of the paths alone: the scripts by path, where each
path first occurs, and the refusals of all occurrences. -/
structure Covers (tree : FileTree) (directory : Place) (paths : List Path) (build : Build) :
    Prop where
  scripts : build.scripts =
    paths.eraseDups.filterMap fun path => (tree.scriptOf? directory path).map (path, ·)
  failures : build.failures =
    paths.filterMap fun path => (tree.refusalOf? directory path).map (path, ·)

variable {tree : FileTree} {directory : Place} {paths : List Path} {path : Path} {build : Build}

namespace Covers

theorem lookup_scripts (covers : build.Covers tree directory paths) (path : Path) :
    build.scripts.lookup path = if path ∈ paths then tree.scriptOf? directory path else none := by
  rw [covers.scripts, lookup_filterMap_keys]
  simp only [List.mem_eraseDups]

theorem fileScript (covers : build.Covers tree directory paths) {script : Script}
    (compiled : tree.scriptOf? directory path = some script) :
    Build.fileScript build.scripts path script =
      (paths ++ [path]).eraseDups.filterMap fun path =>
        (tree.scriptOf? directory path).map (path, ·) := by
  rw [Build.fileScript, covers.lookup_scripts, eraseDups_append_singleton]
  by_cases known : path ∈ paths
  · simp only [known, compiled, if_true, Option.isSome_some]
    rw [← covers.scripts]
    conv => rhs; rw [← List.map_id build.scripts]
    apply List.map_congr_left
    intro entry member
    rw [covers.scripts] at member
    rcases List.mem_filterMap.1 member with ⟨other, _, found⟩
    rcases Option.map_eq_some_iff.1 found with ⟨held, isHeld, rfl⟩
    by_cases same : other = path
    · subst same
      rw [compiled] at isHeld
      injection isHeld with isHeld
      simp [isHeld]
    · simp [same]
  · simp [known, compiled, covers.scripts]

theorem add (covers : build.Covers tree directory paths) {result : Except Diagnostic Compilation}
    (compiled : tree.compileFile directory path = .ok result) :
    (build.add path result).Covers tree directory (paths ++ [path]) := by
  cases result with
  | ok compilation =>
      have script : tree.scriptOf? directory path = some compilation.script := by
        simp [scriptOf?, compiled]
      have noRefusal : tree.refusalOf? directory path = none := by
        simp [refusalOf?, compiled]
      exact ⟨covers.fileScript script, by simp [Build.add, covers.failures, noRefusal]⟩
  | error diagnostic =>
      have noScript : tree.scriptOf? directory path = none := by
        simp [scriptOf?, compiled]
      have refusal : tree.refusalOf? directory path = some diagnostic := by
        simp [refusalOf?, compiled]
      refine ⟨?_, by simp [Build.add, covers.failures, refusal]⟩
      rw [eraseDups_append_singleton, Build.add, covers.scripts]
      split
      · rfl
      · simp [noScript]

end Covers

end Build

namespace FileTree

variable {tree : FileTree} {directory : Place}

end FileTree

/-! ## Checks -/

namespace CommandLine

open Text.Decimal (textOfNat)

variable {tree : FileTree} {directory : Place} {paths : List Path} {build : Build}

end CommandLine

end EventScript
