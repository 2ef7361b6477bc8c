import EventScript.Compile
import EventScript.Proofs.SectionDefinitions
import Mathlib.Data.List.Induction

/-! Scripts folded from any sections. The last section of a name gives its instructions and the
first one its place; all views of the script agree on that, and every section whose name was
there before is warned about once. -/

namespace EventScript

/-! ## First occurrences -/

theorem eraseDups_append_singleton {α : Type} [DecidableEq α] (items : List α) (last : α) :
    (items ++ [last]).eraseDups =
      if last ∈ items then items.eraseDups else items.eraseDups ++ [last] := by
  rw [List.eraseDups_append, List.removeAll, List.filter_singleton]
  by_cases known : last ∈ items
  · simp [known]
  · simp [known, List.eraseDups_cons]

theorem nodup_eraseDups {α : Type} [DecidableEq α] (items : List α) : items.eraseDups.Nodup := by
  induction items using List.reverseRecOn with
  | nil => simp
  | append_singleton items last induction =>
      rw [eraseDups_append_singleton]
      split
      · exact induction
      · next new =>
          rw [← List.concat_eq_append]
          exact induction.concat (mt List.mem_eraseDups.1 new)

/-! ## Views of a folded script -/

def Display.keys : Display → List String
  | .record fields => fields.map Prod.fst
  | _ => []

namespace Script

theorem ofSections_append_singleton (sections : List Section) (last : Section) :
    ofSections (sections ++ [last]) = (ofSections sections).define last := by
  simp [ofSections]

theorem find?_ofSections (sections : List Section) (name : String) :
    (ofSections sections).find? name =
      (sections.reverse.find? (·.name == name)).map Section.instructions := by
  induction sections using List.reverseRecOn with
  | nil => rfl
  | append_singleton sections last induction =>
      rw [ofSections_append_singleton, find?_define, induction, List.reverse_append,
        List.reverse_singleton, List.singleton_append, List.find?_cons]
      by_cases sought : name = last.name
      · simp [sought]
      · simp [sought, beq_false_of_ne (Ne.symm sought)]

theorem names_ofSections (sections : List Section) :
    (ofSections sections).names = (sections.map Section.name).eraseDups := by
  induction sections using List.reverseRecOn with
  | nil => rfl
  | append_singleton sections last induction =>
      rw [ofSections_append_singleton, names_define, List.map_append, List.map_singleton,
        eraseDups_append_singleton]
      simp only [contains_iff, induction, List.mem_eraseDups]

theorem contains_iff_find? {script : Script} {name : String} :
    script.contains name = true ↔ (script.find? name).isSome = true := by
  rw [contains_iff, names, find?, List.lookup_isSome_iff, List.mem_map]
  constructor
  · rintro ⟨entry, member, rfl⟩
    exact ⟨entry, member, beq_self_eq_true _⟩
  · rintro ⟨entry, member, same⟩
    exact ⟨entry, member, (eq_of_beq same).symm⟩

theorem keys_display (script : Script) : script.display.keys = script.names := by
  simp [display, Display.keys, names]

theorem find?_of_mem {script : Script} (nodup : script.names.Nodup)
    {entry : String × List Instruction} (member : entry ∈ script.sections) :
    script.find? entry.1 = some entry.2 := by
  rcases List.append_of_mem member with ⟨before, behind, sections⟩
  rw [names, sections, List.map_append, List.map_cons] at nodup
  rw [find?, List.lookup_eq_some_iff]
  refine ⟨before, behind, sections, fun other inside => ?_⟩
  have apart := (List.nodup_append.1 nodup).2.2 other.1 (List.mem_map_of_mem inside) entry.1
    (List.mem_cons_self ..)
  simpa using apart.symm

theorem display_eq {script : Script} (nodup : script.names.Nodup) :
    script.display = .record (script.names.map fun name =>
      (name, .list (((script.find? name).getD []).map Instruction.display))) := by
  rw [display, names, List.map_map]
  congr 1
  apply List.map_congr_left
  intro entry member
  simp [find?_of_mem nodup member]

/-! ## Redefinitions -/

/-- The names of the sections that have the name of an earlier one, in order. -/
def repeatedNames (sections : List Section) : List String :=
  (sections.zipIdx.filter fun entry =>
    (sections.take entry.2).any (·.name == entry.1.name)).map (·.1.name)

theorem repeatedNames_append_singleton (sections : List Section) (last : Section) :
    repeatedNames (sections ++ [last]) =
      repeatedNames sections ++
        if last.name ∈ sections.map Section.name then [last.name] else [] := by
  have before : ∀ entry ∈ sections.zipIdx,
      ((sections ++ [last]).take entry.2).any (·.name == entry.1.name) =
        (sections.take entry.2).any (·.name == entry.1.name) := by
    intro entry member
    have within := (List.mem_zipIdx member).2.1
    rw [List.take_append_of_le_length (by omega)]
  have known : sections.any (·.name == last.name) = true ↔
      last.name ∈ sections.map Section.name := by
    simp
  rw [repeatedNames, List.zipIdx_append, List.filter_append, List.filter_congr before,
    List.map_append, repeatedNames]
  congr 1
  by_cases repeats : last.name ∈ sections.map Section.name
  · simp [known.2 repeats, repeats]
  · simp [mt known.1 repeats, repeats]

theorem redefinitions_append (script : Script) (sections others : List Section) :
    script.redefinitions (sections ++ others) =
      script.redefinitions sections ++ (sections.foldl define script).redefinitions others := by
  induction sections generalizing script with
  | nil => rfl
  | cons first sections induction =>
      simp only [List.cons_append, redefinitions, List.foldl_cons, induction]
      split <;> rfl

theorem redefinitions_eq (sections : List Section) :
    empty.redefinitions sections = repeatedNames sections := by
  induction sections using List.reverseRecOn with
  | nil => rfl
  | append_singleton sections last induction =>
      rw [redefinitions_append, repeatedNames_append_singleton, induction]
      change _ ++ (if (ofSections sections).contains last.name then [last.name] else []) = _
      simp only [contains_iff, names_ofSections, List.mem_eraseDups]

theorem length_repeatedNames (sections : List Section) :
    (repeatedNames sections).length + (sections.map Section.name).eraseDups.length =
      sections.length := by
  induction sections using List.reverseRecOn with
  | nil => rfl
  | append_singleton sections last induction =>
      rw [repeatedNames_append_singleton, List.map_append, List.map_singleton,
        eraseDups_append_singleton]
      by_cases known : last.name ∈ sections.map Section.name
      · simp only [known, if_true, List.length_append, List.length_singleton]
        omega
      · simp only [known, if_false, List.append_nil, List.length_append, List.length_singleton]
        omega

/-! ## Folding -/

/-- Sections are folded so that the last one of a name is found under it, whole, and the first one
places it; that a name is there can be seen from every view alike, and as often as a section
repeats a name, in that order, there is a warning. -/
theorem views_ofSections (file : Path) (sections : List Section) :
    let script := ofSections sections
    let names := (sections.map Section.name).eraseDups
    let warnings := (assemble file sections).events.filter (·.severity == .warning)
    (∀ name, script.find? name =
      (sections.reverse.find? (·.name == name)).map Section.instructions) ∧
    script.names = names ∧
    script.display = .record (names.map fun name =>
      (name, .list (((script.find? name).getD []).map Instruction.display))) ∧
    (∀ name, (script.contains name = true ↔ (script.find? name).isSome = true) ∧
      (script.contains name = true ↔ name ∈ script.display.keys)) ∧
    script.sections.length = names.length ∧ script.display.keys.length = names.length ∧
    empty.redefinitions sections = repeatedNames sections ∧
    warnings = (repeatedNames sections).map .redefined ∧
    warnings.length + names.length = sections.length := by
  intro script names warnings
  have sameNames : script.names = names := names_ofSections sections
  have warned : warnings = (repeatedNames sections).map .redefined := by
    rw [← redefinitions_eq]
    simp [warnings, assemble, List.filter_map, Function.comp_def, Event.severity]
  refine ⟨find?_ofSections sections, sameNames, ?_, fun name => ⟨contains_iff_find?, ?_⟩, ?_, ?_,
    redefinitions_eq sections, warned, ?_⟩
  · rw [display_eq (nodup_ofSections sections), sameNames]
  · rw [keys_display, contains_iff]
  · rw [← sameNames, Script.names, List.length_map]
  · rw [keys_display, sameNames]
  · rw [warned, List.length_map]
    exact length_repeatedNames sections

/-- Of three definitions of a name the last one counts, where the first one stood. -/
example :
    let sections : List Section :=
      [⟨"a", [.jump "b"]⟩, ⟨"b", []⟩, ⟨"a", []⟩, ⟨"c", []⟩, ⟨"a", [.removeItem "key"]⟩]
    (ofSections sections).sections = [("a", [.removeItem "key"]), ("b", []), ("c", [])] ∧
      repeatedNames sections = ["a", "a"] := by
  decide

end Script

end EventScript
