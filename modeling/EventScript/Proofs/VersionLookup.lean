import EventScript.Project.Version
import EventScript.Proofs.Decoding
import EventScript.Proofs.ManifestTypes

/-! Version lookup. The version of a checkout counts before that of an installation, and without
both there is a version for the unknown. A project file that says nothing about the distribution is
passed over, and so is one that is no TOML; but bytes that are no text, an integer of too many
digits and a project that is no table break the lookup off. -/

namespace EventScript

open Text

/-! ## Project files -/

def Toml.HoldsTable (bytes : List UInt8) (table : Toml.Table) : Prop :=
  ∃ text, bytes = Utf8.encode text ∧ Toml.read (withLineFeeds text.toList) = .ok table

namespace FileTree

variable {tree : FileTree} {directory : Place} {path : Path}

theorem readToml_of_unreadable {fault : FileFault} (failed : tree.read directory path = .error fault) :
    tree.readToml directory path = .error (.unreadable fault) := by
  rw [readToml, failed]
  rfl

theorem readToml_of_noText {bytes : List UInt8} (found : tree.read directory path = .ok bytes)
    (noText : ∀ text, bytes ≠ Utf8.encode text) :
    ∃ malformed, tree.readToml directory path = .error (.notUtf8 malformed) := by
  rcases Utf8.exists_breaksOff noText with ⟨_, malformed, _, _, failed⟩
  refine ⟨malformed, ?_⟩
  simp only [readToml, found, Manifest.bind_mapError, failed]

theorem readToml_of_text {text : String} (found : tree.read directory path = .ok (Utf8.encode text)) :
    tree.readToml directory path =
      match Toml.read (withLineFeeds text.toList) with
      | .ok table => .ok table
      | .error .malformed => .error .invalidToml
      | .error (.integerTooLong digits) => .error (.integerTooLong digits) := by
  cases read : Toml.read (withLineFeeds text.toList) with
  | ok table => simp only [readToml, found, Manifest.bind_mapError, Utf8.decode_encode, read]
  | error flaw =>
      cases flaw <;>
        simp only [readToml, found, Manifest.bind_mapError, Utf8.decode_encode, read]

end FileTree

namespace Version

structure Names (project : Toml.Table) (distribution version : String) : Prop where
  name : project.lookup "name" = some (.text distribution)
  version : project.lookup "version" = some (.text version)

/-- A checkout says the version of a distribution: its project file is a TOML document with a table
of the project, which is for the distribution and has a text for its version. -/
def StatedIn (content : Except FileFault (List UInt8)) (distribution version : String) : Prop :=
  ∃ bytes table project, content = .ok bytes ∧ Toml.HoldsTable bytes table ∧
    table.tableAt? "project" = some project ∧ Names project distribution version

/-- Bytes that are a text: either no TOML at all, or a document in which the project is a table if
there is one. -/
def Readable (bytes : List UInt8) : Prop :=
  ∃ text, bytes = Utf8.encode text ∧
    (Toml.read (withLineFeeds text.toList) = .error .malformed ∨
      ∃ table project, Toml.read (withLineFeeds text.toList) = .ok table ∧
        table.tableAt? "project" = some project)

/-- The first of the installed distributions that go by the given name has the given version. -/
def InstalledIn (installed : List (String × String)) (distribution version : String) : Prop :=
  ∃ before name behind, installed = before ++ (name, version) :: behind ∧
    normalName name = normalName distribution ∧
    ∀ entry ∈ before, normalName entry.1 ≠ normalName distribution

/-- The version to answer with, by what a checkout states and what is installed. -/
inductive Answers (stated installed : String → Prop) : String → Prop
  | checkout {version : String} (isStated : stated version) : Answers stated installed version
  | installation {version : String} (silent : ∀ other, ¬stated other)
      (isInstalled : installed version) : Answers stated installed version
  | unknown (silent : ∀ other, ¬stated other) (missing : ∀ other, ¬installed other) :
      Answers stated installed unknown

/-! ## Checkouts -/

variable {tree : FileTree} {directory : Place} {table project : Toml.Table}
  {distribution version : String}

theorem ofTable_of_table (isTable : table.tableAt? "project" = some project) :
    ofTable distribution table =
      match project.lookup "name" with
      | some (.text name) =>
          if name = distribution then
            match project.lookup "version" with
            | some (.text version) => .ok (some version)
            | _ => .ok none
          else .ok none
      | _ => .ok none := by
  simp only [ofTable, Toml.Table.get?_getD, isTable, bind, Except.bind]
  rfl

theorem ofTable_of_names (isTable : table.tableAt? "project" = some project)
    (names : Names project distribution version) :
    ofTable distribution table = .ok (some version) := by
  rw [ofTable_of_table isTable, names.name, names.version]
  exact if_pos rfl

theorem ofTable_of_silent (isTable : table.tableAt? "project" = some project)
    (silent : ∀ version, ¬Names project distribution version) :
    ofTable distribution table = .ok none := by
  rw [ofTable_of_table isTable]
  split
  · next name found =>
      split
      · next same =>
          split
          · next version given => exact absurd ⟨same ▸ found, given⟩ (silent version)
          · rfl
      · rfl
  · rfl

theorem ofTable_of_noTable (noTable : table.tableAt? "project" = none) :
    ofTable distribution table = .error (.notTable ((table.lookup "project").getD (.table []))) := by
  simp only [ofTable, Toml.Table.get?_getD, noTable, bind, Except.bind]

theorem ofCheckout_of_stated (stated : StatedIn (tree.read directory projectFile) distribution version) :
    ofCheckout tree directory distribution = .ok (some version) := by
  rcases stated with ⟨_, table, project, found, ⟨text, rfl, read⟩, isTable, names⟩
  have holds : tree.readToml directory projectFile = .ok table := by
    rw [FileTree.readToml_of_text found, read]
  rw [ofCheckout, holds]
  exact ofTable_of_names isTable names

/-- A project file that can be read and does not state the version is passed over. -/
theorem ofCheckout_of_silent
    (readable : ∀ bytes, tree.read directory projectFile = .ok bytes → Readable bytes)
    (silent : ∀ version, ¬StatedIn (tree.read directory projectFile) distribution version) :
    ofCheckout tree directory distribution = .ok none := by
  cases found : tree.read directory projectFile with
  | error fault => rw [ofCheckout, FileTree.readToml_of_unreadable found]
  | ok bytes =>
      rcases readable bytes found with ⟨text, rfl, malformed | ⟨table, project, read, isTable⟩⟩
      · rw [ofCheckout, FileTree.readToml_of_text found, malformed]
      · rw [ofCheckout, FileTree.readToml_of_text found, read]
        refine ofTable_of_silent isTable fun version names => silent version ?_
        exact ⟨_, table, project, found, ⟨text, rfl, read⟩, isTable, names⟩

theorem ofCheckout_of_not_readable {bytes : List UInt8}
    (found : tree.read directory projectFile = .ok bytes) (unreadable : ¬Readable bytes) :
    ∃ fault, ofCheckout tree directory distribution = .error fault := by
  by_cases isText : ∃ text, bytes = Utf8.encode text
  · rcases isText with ⟨text, rfl⟩
    have holds := FileTree.readToml_of_text found
    cases read : Toml.read (withLineFeeds text.toList) with
    | ok table =>
        rw [read] at holds
        cases isTable : table.tableAt? "project" with
        | none =>
            rw [ofCheckout, holds]
            exact ⟨_, ofTable_of_noTable isTable⟩
        | some project =>
            exact absurd ⟨text, rfl, .inr ⟨table, project, read, isTable⟩⟩ unreadable
    | error flaw =>
        rw [read] at holds
        cases flaw with
        | malformed => exact absurd ⟨text, rfl, .inl read⟩ unreadable
        | integerTooLong digits =>
            rw [ofCheckout, holds]
            exact ⟨_, rfl⟩
  · rcases FileTree.readToml_of_noText found (not_exists.1 isText) with ⟨malformed, failed⟩
    rw [ofCheckout, failed]
    exact ⟨_, rfl⟩

/-! ## Installations -/

theorem ofInstalled_eq_some_iff {installed : List (String × String)} :
    ofInstalled installed distribution = some version ↔
      InstalledIn installed distribution version := by
  simp only [ofInstalled, InstalledIn, Option.map_eq_some_iff, List.find?_eq_some_iff_append,
    beq_iff_eq]
  constructor
  · rintro ⟨⟨name, _⟩, ⟨same, before, behind, split, others⟩, rfl⟩
    exact ⟨before, name, behind, split, same, by simpa using others⟩
  · rintro ⟨before, name, behind, split, same, others⟩
    exact ⟨(name, version), ⟨same, before, behind, split, by simpa using others⟩, rfl⟩

theorem ofInstallation_eq (installed : List (String × String)) (distribution : String) :
    InstalledIn installed distribution (ofInstallation installed distribution) ∨
      (∀ version, ¬InstalledIn installed distribution version) ∧
        ofInstallation installed distribution = unknown := by
  simp only [← ofInstalled_eq_some_iff, ofInstallation]
  cases ofInstalled installed distribution with
  | none => simp
  | some version => simp

/-! ## Versions -/

variable {installed : List (String × String)}

theorem current_of_stated
    (stated : StatedIn (tree.read directory projectFile) distribution version) :
    current tree directory installed distribution = .ok version := by
  rw [current, Manifest.bind_mapError, ofCheckout_of_stated stated]
  rfl

theorem current_of_silent (named : distribution ≠ "")
    (readable : ∀ bytes, tree.read directory projectFile = .ok bytes → Readable bytes)
    (silent : ∀ version, ¬StatedIn (tree.read directory projectFile) distribution version) :
    current tree directory installed distribution = .ok (ofInstallation installed distribution) := by
  rw [current, Manifest.bind_mapError, ofCheckout_of_silent readable silent]
  exact if_neg named

/-- The version of a distribution is looked up exactly if the project file, where there is one, can
be read: then it is what the checkout states, else what is installed, else that for the unknown. Any
other project file breaks the lookup off. -/
theorem current_answers (tree : FileTree) (directory : Place)
    (installed : List (String × String)) :
    ((∀ bytes, tree.read directory projectFile = .ok bytes → Readable bytes) →
      ∃ version, current tree directory installed distributionName = .ok version ∧
        Answers (StatedIn (tree.read directory projectFile) distributionName)
          (InstalledIn installed distributionName) version) ∧
    ∀ bytes, tree.read directory projectFile = .ok bytes → ¬Readable bytes →
      ∃ fault, current tree directory installed distributionName = .error (.checkout fault) := by
  constructor
  · intro readable
    by_cases stated : ∃ version, StatedIn (tree.read directory projectFile) distributionName version
    · rcases stated with ⟨version, isStated⟩
      exact ⟨version, current_of_stated isStated, .checkout isStated⟩
    · have silent := not_exists.1 stated
      refine ⟨_, current_of_silent (by decide) readable silent, ?_⟩
      rcases ofInstallation_eq installed distributionName with isInstalled | ⟨missing, same⟩
      · exact .installation silent isInstalled
      · rw [same]
        exact .unknown silent missing
  · intro bytes found unreadable
    rcases @ofCheckout_of_not_readable _ _ distributionName _ found unreadable with ⟨fault, failed⟩
    refine ⟨fault, ?_⟩
    rw [current, Manifest.bind_mapError, failed]

/-- A project file of one stray byte states nothing, so what is installed should be the answer; it
breaks the lookup off. -/
theorem not_current_stray_byte :
    let tree : FileTree := ⟨[(["pyproject.toml"], [0xff])], []⟩
    let installed := [("pakscript", "0.1.0")]
    Answers (StatedIn (tree.read [] projectFile) distributionName)
        (InstalledIn installed distributionName) "0.1.0" ∧
      ∀ version, current tree [] installed distributionName ≠ .ok version := by
  intro tree installed
  have failed : (current tree [] installed distributionName).isOk = false := by decide +kernel
  have unanswered (version : String) : current tree [] installed distributionName ≠ .ok version := by
    intro answered
    rw [answered] at failed
    contradiction
  have silent (version : String) : ¬StatedIn (tree.read [] projectFile) distributionName version :=
    fun stated => unanswered version (current_of_stated stated)
  exact ⟨.installation silent ⟨[], "pakscript", [], rfl, rfl, by simp⟩, unanswered⟩

end Version

end EventScript
