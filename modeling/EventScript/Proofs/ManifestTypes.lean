import EventScript.Project.Manifest

/-! Types of manifests. Whatever a manifest file holds, its search paths and its extension have the
right types once it is accepted, and a wrong type among them is refused. Its name and version are
taken as they are, and a value in the place of one of its tables is not refused but breaks the
reading off. -/

namespace EventScript

namespace Toml

/-! ## Values -/

def Value.IsText (value : Value) : Prop :=
  ∃ text, value = .text text

def Value.IsTexts (value : Value) : Prop :=
  ∃ texts : List String, value = .array (texts.map .text)

instance : (value : Value) → Decidable value.IsText
  | .text text => isTrue ⟨text, rfl⟩
  | .integer _ | .float _ | .boolean _ | .moment _ | .array _ | .table _ =>
      isFalse fun ⟨_, same⟩ => nomatch same

theorem Value.texts?_array_eq_some {items : List Value} {texts : List String} :
    (Value.array items).texts? = some texts ↔ items = texts.map .text := by
  induction items generalizing texts with
  | nil => simp [texts?, eq_comm]
  | cons item others induction =>
      simp only [texts?] at induction
      cases item with
      | text first =>
          cases texts with
          | nil => simp [texts?, Option.bind_eq_some_iff]
          | cons second texts =>
              rw [List.map_cons, List.cons.injEq, Value.text.injEq, and_comm]
              simp [texts?, Option.bind_eq_some_iff, induction]
      | _ => cases texts <;> simp [texts?]

theorem Value.isTexts_iff {value : Value} : value.IsTexts ↔ ∃ texts, value.texts? = some texts := by
  cases value with
  | array items => simp only [IsTexts, Value.array.injEq, texts?_array_eq_some]
  | _ => simp [IsTexts, texts?]

/-! ## Tables -/

/-- The table under a key, which is empty where there is no such key. A value of another type is
none. -/
def Table.tableAt? (table : Table) (key : String) : Option Table :=
  match table.lookup key with
  | none => some []
  | some (.table entries) => some entries
  | some _ => none

/-- The search paths and the extension of a table have the right types, where it has them. -/
structure Table.DescribesScripts (scripts : Table) : Prop where
  paths : ∀ value, scripts.lookup "paths" = some value → value.IsTexts
  extension : ∀ value, scripts.lookup "extension" = some value → value.IsText

structure Table.DescribesProject (project : Table) : Prop where
  name : ∀ value, project.lookup "name" = some value → value.IsText
  version : ∀ value, project.lookup "version" = some value → value.IsText

theorem Table.get?_getD (table : Table) (key name : String) :
    ((table.lookup key).getD (.table [])).get? name =
      match table.tableAt? key with
      | some entries => .ok (entries.lookup name)
      | none => .error (.notTable ((table.lookup key).getD (.table []))) := by
  unfold tableAt?
  cases table.lookup key with
  | none => rfl
  | some value =>
      cases value with
      | table entries => rfl
      | _ => rfl

end Toml

namespace Manifest

/-- A manifest whose name and version are texts and whose extension begins with a dot. Its search
paths are texts in any case. -/
structure WellTyped (manifest : Manifest) : Prop where
  name : manifest.name.IsText
  version : manifest.version.IsText
  extension : manifest.extension.toList.head? = some '.'

instance (manifest : Manifest) : Decidable manifest.WellTyped :=
  decidable_of_iff (manifest.name.IsText ∧ manifest.version.IsText ∧
      manifest.extension.toList.head? = some '.')
    ⟨fun ⟨name, version, extension⟩ => ⟨name, version, extension⟩,
      fun typed => ⟨typed.name, typed.version, typed.extension⟩⟩

/-- What comes of a manifest file is a manifest that is well typed, or a refusal. -/
def Sound : Except ManifestFault Manifest → Prop
  | .ok manifest => manifest.WellTyped
  | .error fault => fault.isRefusal = true

instance : (result : Except ManifestFault Manifest) → Decidable (Sound result)
  | .ok manifest => inferInstanceAs (Decidable manifest.WellTyped)
  | .error fault => inferInstanceAs (Decidable (fault.isRefusal = true))

/-! ## Entries -/

theorem head?_withDot (extension : String) : (withDot extension).toList.head? = some '.' := by
  unfold withDot
  split
  · next dotted => exact dotted
  · simp

variable {table : Toml.Table} {scripts : Toml.Value} {found : Option Toml.Value}

theorem exists_scriptPathsOf (got : scripts.get? "paths" = .ok found)
    (typed : ∀ value, found = some value → value.IsTexts) :
    ∃ paths, scriptPathsOf scripts = .ok paths := by
  cases found with
  | none => exact ⟨defaultScriptPaths, by rw [scriptPathsOf, got]; rfl⟩
  | some value =>
      rcases Toml.Value.isTexts_iff.1 (typed value rfl) with ⟨paths, texts⟩
      exact ⟨paths, by simp [scriptPathsOf, got, texts, bind, Except.bind]⟩

theorem scriptPathsOf_refused (got : scripts.get? "paths" = .ok found)
    (untyped : ¬∀ value, found = some value → value.IsTexts) :
    scriptPathsOf scripts = .error .pathsNotTexts := by
  cases found with
  | none => simp at untyped
  | some value =>
      have noTexts : value.texts? = none := by
        rw [Option.eq_none_iff_forall_ne_some]
        intro paths texts
        apply untyped
        rintro _ ⟨⟩
        exact Toml.Value.isTexts_iff.2 ⟨paths, texts⟩
      simp [scriptPathsOf, got, noTexts, bind, Except.bind]

theorem exists_extensionOf (got : scripts.get? "extension" = .ok found)
    (typed : ∀ value, found = some value → value.IsText) :
    ∃ extension, extensionOf scripts = .ok extension := by
  cases found with
  | none => exact ⟨defaultExtension, by rw [extensionOf, got]; rfl⟩
  | some value =>
      rcases typed value rfl with ⟨text, rfl⟩
      exact ⟨withDot text, by rw [extensionOf, got]; rfl⟩

theorem extensionOf_refused (got : scripts.get? "extension" = .ok found)
    (untyped : ¬∀ value, found = some value → value.IsText) :
    extensionOf scripts = .error .extensionNotText := by
  cases found with
  | none => simp at untyped
  | some value =>
      cases value with
      | text text => exact absurd (by rintro _ ⟨⟩; exact ⟨text, rfl⟩) untyped
      | _ => rw [extensionOf, got]; rfl

theorem head?_of_extensionOf {extension : String} (accepted : extensionOf scripts = .ok extension) :
    extension.toList.head? = some '.' := by
  unfold extensionOf at accepted
  cases got : scripts.get? "extension" with
  | error fault =>
      rw [got] at accepted
      contradiction
  | ok found =>
      simp only [got, bind, Except.bind] at accepted
      split at accepted
      · injection accepted with same
        subst same
        decide
      · injection accepted with same
        subst same
        exact head?_withDot _
      · contradiction

theorem isText_getD {text : String} :
    (found.getD (.text text)).IsText ↔ ∀ value, found = some value → value.IsText := by
  cases found with
  | none => simp [Toml.Value.IsText]
  | some value => simp

/-! ## Manifests -/

/-- Once search paths and extension are accepted, only the project can be at fault. -/
theorem ofTable_of_accepted {path : Path} {paths : List String} {extension : String}
    (acceptedPaths : scriptPathsOf ((table.lookup "scripts").getD (.table [])) = .ok paths)
    (acceptedExtension : extensionOf ((table.lookup "scripts").getD (.table [])) = .ok extension) :
    ofTable path table =
      match table.tableAt? "project" with
      | none => .error (.notTable ((table.lookup "project").getD (.table [])))
      | some project => .ok {
          name := (project.lookup "name").getD (.text path.parent.name)
          version := (project.lookup "version").getD (.text defaultVersion)
          root := path.parent
          scriptPaths := paths
          extension := extension } := by
  simp only [ofTable, acceptedPaths, acceptedExtension, Toml.Table.get?_getD, bind, Except.bind]
  cases table.tableAt? "project" with
  | none => rfl
  | some project => rfl

theorem sound_ofTable_of_accepted {path : Path} {paths : List String} {extension : String}
    (acceptedPaths : scriptPathsOf ((table.lookup "scripts").getD (.table [])) = .ok paths)
    (acceptedExtension : extensionOf ((table.lookup "scripts").getD (.table [])) = .ok extension) :
    Sound (ofTable path table) ↔
      ∃ project, table.tableAt? "project" = some project ∧ project.DescribesProject := by
  rw [ofTable_of_accepted acceptedPaths acceptedExtension]
  cases table.tableAt? "project" with
  | none => simp [Sound, ManifestFault.isRefusal]
  | some project =>
      simp only [Sound, Option.some.injEq, exists_eq_left']
      constructor
      · intro typed
        exact ⟨isText_getD.1 typed.name, isText_getD.1 typed.version⟩
      · intro describes
        exact ⟨isText_getD.2 describes.name, isText_getD.2 describes.version,
          head?_of_extensionOf acceptedExtension⟩

theorem sound_ofTable_iff (path : Path) (table : Toml.Table) :
    Sound (ofTable path table) ↔ ∃ scripts, table.tableAt? "scripts" = some scripts ∧
      (scripts.DescribesScripts →
        ∃ project, table.tableAt? "project" = some project ∧ project.DescribesProject) := by
  have got (name : String) := table.get?_getD "scripts" name
  cases isTable : table.tableAt? "scripts" with
  | none =>
      have broken : scriptPathsOf ((table.lookup "scripts").getD (.table [])) =
          .error (.notTable ((table.lookup "scripts").getD (.table []))) := by
        rw [scriptPathsOf, got, isTable]
        rfl
      simp [ofTable, broken, bind, Except.bind, Sound, ManifestFault.isRefusal]
  | some scripts =>
      simp only [isTable] at got
      simp only [Option.some.injEq, exists_eq_left']
      by_cases pathsTyped : ∀ value, scripts.lookup "paths" = some value → value.IsTexts
      · rcases exists_scriptPathsOf (got "paths") pathsTyped with ⟨paths, acceptedPaths⟩
        by_cases extensionTyped : ∀ value, scripts.lookup "extension" = some value → value.IsText
        · rcases exists_extensionOf (got "extension") extensionTyped with
            ⟨extension, acceptedExtension⟩
          rw [sound_ofTable_of_accepted acceptedPaths acceptedExtension]
          exact ⟨fun describes _ => describes, fun describes => describes ⟨pathsTyped, extensionTyped⟩⟩
        · have refused := extensionOf_refused (got "extension") extensionTyped
          have untyped : ¬scripts.DescribesScripts := fun typed => extensionTyped typed.extension
          simp [ofTable, acceptedPaths, refused, bind, Except.bind, Sound, ManifestFault.isRefusal,
            untyped]
      · have refused := scriptPathsOf_refused (got "paths") pathsTyped
        have untyped : ¬scripts.DescribesScripts := fun typed => pathsTyped typed.paths
        simp [ofTable, refused, bind, Except.bind, Sound, ManifestFault.isRefusal, untyped]

theorem bind_mapError {α β fault other : Type} (outcome : Except fault α) (named : fault → other)
    (next : α → Except other β) :
    (outcome.mapError named >>= next) =
      match outcome with
      | .ok value => next value
      | .error failure => .error (named failure) := by
  cases outcome with
  | ok value => rfl
  | error failure => rfl

theorem isRefusal_of_readToml {tree : FileTree} {directory : Place} {path : Path}
    {fault : ManifestFault} (failed : tree.readToml directory path = .error fault) :
    fault.isRefusal = true ↔ fault = .invalidToml := by
  simp only [FileTree.readToml, bind_mapError] at failed
  split at failed
  · split at failed
    · split at failed
      · contradiction
      · injection failed with same
        simp [← same, ManifestFault.isRefusal]
      · injection failed with same
        simp [← same, ManifestFault.isRefusal]
    · injection failed with same
      simp [← same, ManifestFault.isRefusal]
  · injection failed with same
    simp [← same, ManifestFault.isRefusal]

/-- What a manifest file leads to is a well typed manifest or a refusal exactly if the file is no
TOML, or else holds a table of scripts, and with one whose search paths and extension have the right
types a table of a project whose name and version are texts. -/
theorem sound_load_iff (tree : FileTree) (directory : Place) (path : Path) :
    Sound (load tree directory path) ↔
      tree.readToml directory path = .error .invalidToml ∨
      ∃ table scripts, tree.readToml directory path = .ok table ∧
        table.tableAt? "scripts" = some scripts ∧
        (scripts.DescribesScripts →
          ∃ project, table.tableAt? "project" = some project ∧ project.DescribesProject) := by
  unfold load
  cases read : tree.readToml directory path with
  | error fault => simp [bind, Except.bind, Sound, isRefusal_of_readToml read]
  | ok table => simpa [bind, Except.bind] using sound_ofTable_iff path table

/-- A manifest with a text in the place of its table of scripts breaks the reading off. -/
theorem not_sound_load_scripts_text :
    let manifest := "scripts = \"npc/\"\n"
    let tree : FileTree := ⟨[(["pakscript.toml"], manifest.toUTF8.toList)], []⟩
    (tree.readToml [] ⟨.relative, ["pakscript.toml"]⟩).isOk = true ∧
      ¬Sound (load tree [] ⟨.relative, ["pakscript.toml"]⟩) := by
  decide +kernel

end Manifest

end EventScript
