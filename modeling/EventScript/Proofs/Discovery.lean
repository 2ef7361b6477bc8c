import EventScript.Project.Discovery
import EventScript.Proofs.FoldedSections
import EventScript.Proofs.Searches
import Mathlib.Data.List.Sort
import Mathlib.Data.String.Basic

/-! Discovery of script files. What is found depends on the set of existing directories that the
search paths lead to, and on nothing else about them; it comes in the order of the paths, each once.
A search path that cannot be followed ends a discovery. So do an extension that makes no pattern and
a path that cannot be looked up below, if there is a directory to search. -/

namespace EventScript

/-! ## The order of paths -/

theorem Text.lex_toNat_iff {first second : String} :
    (first.toList.lex second.toList fun c d => decide (c.toNat < d.toNat)) = true ↔ first < second := by
  have codes : (fun c d : Char => decide (c.toNat < d.toNat)) = fun c d => decide (c < d) := by
    funext c d
    exact decide_eq_decide.2 UInt32.lt_iff_toNat_lt.symm
  rw [codes, List.lex_eq_true_iff_lt, String.lt_iff_toList_lt]

namespace Path

def Before (first second : Path) : Prop :=
  first.components < second.components

instance : Std.Irrefl Before :=
  ⟨fun path => lt_irrefl path.components⟩

instance : Std.Antisymm Before :=
  ⟨fun _ _ before behind => absurd behind (lt_asymm before)⟩

theorem notAfter_iff {first second : Path} :
    first.notAfter second = true ↔ first.components ≤ second.components := by
  have names : (fun one other : String =>
      one.toList.lex other.toList fun c d => decide (c.toNat < d.toNat)) =
        fun one other => decide (one < other) := by
    funext one other
    rw [Bool.eq_iff_iff, decide_eq_true_iff, Text.lex_toNat_iff]
  rw [notAfter, Bool.not_eq_true', names, Bool.eq_false_iff, ne_eq, ← not_lt]
  exact not_congr (@List.lex_eq_true_iff_lt String _ _ _ _ _ _)

theorem pairwise_before {found : List Path} (rooted : ∀ path ∈ found, path.anchor = .root) :
    (found.eraseDups.mergeSort notAfter).Pairwise Before := by
  have sorted : (found.eraseDups.mergeSort notAfter).Pairwise fun first second =>
      first.notAfter second = true := by
    apply List.pairwise_mergeSort
    · intro first second third before behind
      exact notAfter_iff.2 (le_trans (notAfter_iff.1 before) (notAfter_iff.1 behind))
    · intro first second
      rw [Bool.or_eq_true, notAfter_iff, notAfter_iff]
      exact le_total _ _
  have apart : (found.eraseDups.mergeSort notAfter).Nodup :=
    (List.mergeSort_perm _ _).nodup_iff.2 (nodup_eraseDups found)
  have anchored : ∀ path ∈ found.eraseDups.mergeSort notAfter, path.anchor = .root := by
    intro path member
    rw [List.mem_mergeSort, List.mem_eraseDups] at member
    exact rooted path member
  refine (sorted.and apart).imp_of_mem fun firstMember secondMember both => ?_
  refine lt_of_le_of_ne (notAfter_iff.1 both.1) fun same => both.2 ?_
  rw [Path.mk.injEq, anchored _ firstMember, anchored _ secondMember]
  exact ⟨rfl, same⟩

end Path

/-! ## Searching one by one -/

theorem mapM_cases {α β fault : Type} (outcome : α → Except fault β) (items : List α) :
    (∃ results, items.mapM outcome = .ok results ∧
      (∀ item ∈ items, ∃ result ∈ results, outcome item = .ok result) ∧
      ∀ result ∈ results, ∃ item ∈ items, outcome item = .ok result) ∨
    ∃ failure, items.mapM outcome = .error failure ∧
      ∃ item ∈ items, outcome item = .error failure := by
  induction items with
  | nil => exact .inl ⟨[], rfl, by simp, by simp⟩
  | cons item others induction =>
      rw [List.mapM_cons]
      cases first : outcome item with
      | error failure => exact .inr ⟨failure, rfl, item, List.mem_cons_self, first⟩
      | ok result =>
          rcases induction with ⟨results, behind, given, origin⟩ | ⟨failure, behind, failed⟩
          · refine .inl ⟨result :: results, by rw [behind]; rfl, ?_, ?_⟩
            · simpa [first] using fun other member => .inr (given other member)
            · simpa [first] using fun other member => .inr (origin other member)
          · rcases failed with ⟨other, member, failed⟩
            exact .inr ⟨failure, by rw [behind]; rfl, other, List.mem_cons_of_mem item member, failed⟩

namespace FileTree

variable (tree : FileTree) (directory : Place) (root : Path)

/-- Where a search path leads by its components alone. -/
def searchPlace (path : String) : Place :=
  (root.join (.ofString path)).resolve directory

/-- A search path that can be followed to find out whether it leads to a directory: it has no null
character, and neither the path nor a name in it is too long where it would have to be looked up. -/
structure Followable (path : String) : Prop where
  noNull : (root.join (.ofString path)).hasNull = false
  notTooLong : tree.cannotAsk [] (.ofPlace (searchPlace directory root path)) = false

def Searches (paths : List String) (place : Place) : Prop :=
  tree.isDirectory place = true ∧ ∃ path ∈ paths, searchPlace directory root path = place

/-- A file is found with the pattern of an extension below one of the existing directories. -/
def Reaches (paths : List String) (extension : String) (file : Path) : Prop :=
  ∃ pattern place, PathPattern.atAnyDepth? ("*" ++ extension) = some pattern ∧
    tree.Searches directory root paths place ∧ file ∈ tree.search pattern place

/-- Every search path can be followed, and if any of them leads to a directory the extension makes a
pattern that can be searched for there. -/
structure Discovers (paths : List String) (extension : String) : Prop where
  followable : ∀ path ∈ paths, tree.Followable directory root path
  usable : (∃ place, tree.Searches directory root paths place) →
    (PathPattern.atAnyDepth? ("*" ++ extension)).isSome = true
  searchable : ∀ pattern place, PathPattern.atAnyDepth? ("*" ++ extension) = some pattern →
    tree.Searches directory root paths place → tree.stumblesAt? pattern place = none

variable {tree directory root} {extension path : String} {paths : List String}

theorem searchDirectory?_of_followable (followable : tree.Followable directory root path) :
    tree.searchDirectory? directory root path =
      .ok (if tree.isDirectory (searchPlace directory root path) then
        some (searchPlace directory root path) else none) := by
  have notTooLong := followable.notTooLong
  unfold searchPlace at notTooLong ⊢
  simp only [searchDirectory?, followable.noNull, notTooLong, Bool.false_eq_true, if_false]

theorem exists_searchDirectory?_error (unfollowable : ¬tree.Followable directory root path) :
    ∃ fault, tree.searchDirectory? directory root path = .error fault := by
  unfold searchDirectory?
  simp only
  split
  · exact ⟨_, rfl⟩
  · next noNull =>
      split
      · exact ⟨_, rfl⟩
      · next known =>
          exact absurd ⟨Bool.eq_false_iff.2 noNull, Bool.eq_false_iff.2 known⟩ unfollowable

theorem discoverBelow_of_followable (followable : tree.Followable directory root path) :
    tree.discoverBelow directory root extension path =
      if tree.isDirectory (searchPlace directory root path) then
        match PathPattern.atAnyDepth? ("*" ++ extension) with
        | none => .error (.unusableExtension extension)
        | some pattern =>
            match tree.stumblesAt? pattern (searchPlace directory root path) with
            | some long => .error (.unusablePath long .nameTooLong)
            | none => .ok (tree.search pattern (searchPlace directory root path))
      else .ok [] := by
  rw [discoverBelow, searchDirectory?_of_followable followable]
  cases tree.isDirectory (searchPlace directory root path) with
  | false => rfl
  | true => rfl

theorem followable_of_discoverBelow {found : List Path}
    (accepted : tree.discoverBelow directory root extension path = .ok found) :
    tree.Followable directory root path := by
  by_contra unfollowable
  rcases exists_searchDirectory?_error unfollowable with ⟨fault, refused⟩
  rw [discoverBelow, refused] at accepted
  contradiction

theorem exists_pattern_of_discoverBelow {found : List Path}
    (accepted : tree.discoverBelow directory root extension path = .ok found)
    (isDirectory : tree.isDirectory (searchPlace directory root path) = true) :
    ∃ pattern, PathPattern.atAnyDepth? ("*" ++ extension) = some pattern ∧
      tree.stumblesAt? pattern (searchPlace directory root path) = none ∧
      found = tree.search pattern (searchPlace directory root path) := by
  rw [discoverBelow_of_followable (followable_of_discoverBelow accepted), if_pos isDirectory]
    at accepted
  split at accepted
  · contradiction
  · next pattern usable =>
      split at accepted
      · contradiction
      · next searchable =>
          injection accepted with same
          exact ⟨pattern, usable, searchable, same.symm⟩

theorem isDirectory_of_discoverBelow {found : List Path} {file : Path}
    (accepted : tree.discoverBelow directory root extension path = .ok found) (member : file ∈ found) :
    tree.isDirectory (searchPlace directory root path) = true := by
  by_contra notDirectory
  rw [discoverBelow_of_followable (followable_of_discoverBelow accepted), if_neg notDirectory,
    Except.ok.injEq] at accepted
  simp [← accepted] at member

theorem not_discovers_of_discoverBelow {fault : SearchFault} (listed : path ∈ paths)
    (failed : tree.discoverBelow directory root extension path = .error fault) :
    ¬tree.Discovers directory root paths extension := by
  intro discovers
  rw [discoverBelow_of_followable (discovers.followable path listed)] at failed
  split at failed
  · next isDirectory =>
      have searched : tree.Searches directory root paths (searchPlace directory root path) :=
        ⟨isDirectory, path, listed, rfl⟩
      split at failed
      · next unusable =>
          have usable := discovers.usable ⟨_, searched⟩
          rw [unusable] at usable
          contradiction
      · next pattern usable =>
          rw [discovers.searchable pattern _ usable searched] at failed
          contradiction
  · contradiction

/-! ## Searching all -/

theorem Reaches.anchor {file : Path} (reaches : tree.Reaches directory root paths extension file) :
    file.anchor = .root := by
  rcases reaches with ⟨pattern, place, _, _, found⟩
  rcases (mem_search.1 found).2 with ⟨names, _, rfl, _⟩
  rfl

theorem mem_flatten_iff_reaches {results : List (List Path)}
    (given : ∀ path ∈ paths, ∃ found ∈ results,
      tree.discoverBelow directory root extension path = .ok found)
    (origin : ∀ found ∈ results, ∃ path ∈ paths,
      tree.discoverBelow directory root extension path = .ok found) (file : Path) :
    file ∈ results.flatten ↔ tree.Reaches directory root paths extension file := by
  rw [List.mem_flatten]
  constructor
  · rintro ⟨found, member, inside⟩
    rcases origin found member with ⟨path, listed, accepted⟩
    have isDirectory := isDirectory_of_discoverBelow accepted inside
    rcases exists_pattern_of_discoverBelow accepted isDirectory with ⟨pattern, usable, _, rfl⟩
    exact ⟨pattern, _, usable, ⟨isDirectory, path, listed, rfl⟩, inside⟩
  · rintro ⟨pattern, place, usable, ⟨isDirectory, path, listed, rfl⟩, inside⟩
    rcases given path listed with ⟨found, member, accepted⟩
    rcases exists_pattern_of_discoverBelow accepted isDirectory with ⟨same, sameUsable, _, rfl⟩
    rw [usable, Option.some.injEq] at sameUsable
    exact ⟨_, member, sameUsable ▸ inside⟩

theorem discover_cases (tree : FileTree) (directory : Place) (root : Path) (paths : List String)
    (extension : String) :
    (∃ files, tree.discover directory root paths extension = .ok files ∧
      tree.Discovers directory root paths extension ∧ files.Pairwise Path.Before ∧
      ∀ file, file ∈ files ↔ tree.Reaches directory root paths extension file) ∨
    ∃ fault, tree.discover directory root paths extension = .error fault ∧
      ¬tree.Discovers directory root paths extension := by
  rcases mapM_cases (tree.discoverBelow directory root extension) paths with
    ⟨results, mapped, given, origin⟩ | ⟨fault, mapped, path, listed, failed⟩
  · have members := mem_flatten_iff_reaches given origin
    refine .inl ⟨results.flatten.eraseDups.mergeSort Path.notAfter, ?_, ⟨?_, ?_, ?_⟩, ?_, ?_⟩
    · rw [discover, mapped]
      rfl
    · intro path listed
      rcases given path listed with ⟨found, _, accepted⟩
      exact followable_of_discoverBelow accepted
    · rintro ⟨place, isDirectory, path, listed, rfl⟩
      rcases given path listed with ⟨found, _, accepted⟩
      rcases exists_pattern_of_discoverBelow accepted isDirectory with ⟨pattern, usable, _⟩
      rw [usable, Option.isSome_some]
    · rintro pattern place usable ⟨isDirectory, path, listed, rfl⟩
      rcases given path listed with ⟨found, _, accepted⟩
      rcases exists_pattern_of_discoverBelow accepted isDirectory with
        ⟨same, sameUsable, searchable, _⟩
      rw [usable, Option.some.injEq] at sameUsable
      rwa [sameUsable]
    · exact Path.pairwise_before fun file member => ((members file).1 member).anchor
    · intro file
      rw [List.mem_mergeSort, List.mem_eraseDups, members]
  · refine .inr ⟨fault, ?_, not_discovers_of_discoverBelow listed failed⟩
    rw [discover, mapped]
    rfl

theorem discover_eq_ok_iff {files : List Path} :
    tree.discover directory root paths extension = .ok files ↔
      tree.Discovers directory root paths extension ∧ files.Pairwise Path.Before ∧
        ∀ file, file ∈ files ↔ tree.Reaches directory root paths extension file := by
  rcases discover_cases tree directory root paths extension with
    ⟨found, accepted, discovers, ordered, members⟩ | ⟨fault, refused, failed⟩
  · rw [accepted, Except.ok.injEq]
    constructor
    · rintro rfl
      exact ⟨discovers, ordered, members⟩
    · rintro ⟨_, filesOrdered, filesMembers⟩
      exact ordered.eq_of_mem_iff filesOrdered fun file => by rw [members, filesMembers]
  · rw [refused]
    exact iff_of_false nofun fun ⟨discovers, _⟩ => failed discovers

theorem exists_steps_of_atAnyDepth? {text : String} {pattern : PathPattern}
    (usable : PathPattern.atAnyDepth? text = some pattern) :
    ∃ steps, pattern.steps = .anyDepth :: steps := by
  rw [PathPattern.atAnyDepth?, Option.bind_eq_bind, Option.bind_eq_some_iff] at usable
  rcases usable with ⟨steps, _, same⟩
  injection same with same
  exact ⟨steps, by rw [← same]⟩

/-- Every directory that search paths lead to lies in one that other search paths lead to. -/
def Within (tree : FileTree) (directory : Place) (root : Path) (paths others : List String) : Prop :=
  ∀ place, tree.Searches directory root paths place →
    ∃ outer, tree.Searches directory root others outer ∧ outer <+: place

variable {others : List String}

theorem Within.reaches {file : Path} (within : tree.Within directory root paths others)
    (reaches : tree.Reaches directory root paths extension file) :
    tree.Reaches directory root others extension file := by
  rcases reaches with ⟨pattern, place, usable, searched, found⟩
  rcases within place searched with ⟨outer, outerSearched, above⟩
  rcases exists_steps_of_atAnyDepth? usable with ⟨steps, atAnyDepth⟩
  exact ⟨pattern, outer, usable, outerSearched, search_subset atAnyDepth above found⟩

theorem Within.discovers (within : tree.Within directory root paths others)
    (followable : ∀ path ∈ paths, tree.Followable directory root path)
    (discovers : tree.Discovers directory root others extension) :
    tree.Discovers directory root paths extension where
  followable := followable
  usable := by
    rintro ⟨place, searched⟩
    rcases within place searched with ⟨outer, outerSearched, _⟩
    exact discovers.usable ⟨outer, outerSearched⟩
  searchable := by
    intro pattern place usable searched
    rcases within place searched with ⟨outer, outerSearched, above⟩
    rcases exists_steps_of_atAnyDepth? usable with ⟨steps, atAnyDepth⟩
    exact stumblesAt?_of_isPrefix atAnyDepth above
      (discovers.searchable pattern outer usable outerSearched)

end FileTree

end EventScript
