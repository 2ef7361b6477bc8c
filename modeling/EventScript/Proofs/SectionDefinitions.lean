import EventScript.Script
import Mathlib.Data.List.Nodup

/-! Scripts as they are built. Defining sections one after another keeps every name once,
and sections with names of their own stay as they are. -/

namespace EventScript

namespace Script

@[simp] theorem names_empty : empty.names = [] := rfl

theorem contains_iff {script : Script} {name : String} :
    script.contains name = true ↔ name ∈ script.names := by
  simp [contains]

theorem names_define (script : Script) (new : Section) :
    (script.define new).names =
      if script.contains new.name then script.names else script.names ++ [new.name] := by
  cases known : script.contains new.name with
  | false => simp [define, names, known]
  | true =>
      simp only [define, names, known, if_true, List.map_map]
      apply List.map_congr_left
      intro entry _
      by_cases same : entry.1 = new.name
      · simp [same]
      · simp [same]

theorem nodup_define {script : Script} (nodup : script.names.Nodup) (new : Section) :
    (script.define new).names.Nodup := by
  rw [names_define]
  cases known : script.contains new.name with
  | true => exact nodup
  | false =>
      have fresh : new.name ∉ script.names := by
        intro member
        rw [contains_iff.2 member] at known
        contradiction
      simp only [Bool.false_eq_true, if_false]
      refine List.nodup_append.2 ⟨nodup, by simp, ?_⟩
      intro name member other isNew same
      rw [same, List.mem_singleton.1 isNew] at member
      exact fresh member

theorem mem_define {script : Script} {new : Section} {entry : String × List Instruction}
    (member : entry ∈ (script.define new).sections) :
    entry ∈ script.sections ∨ entry = (new.name, new.instructions) := by
  unfold define at member
  split at member
  · rcases List.mem_map.1 member with ⟨old, inside, same⟩
    split at same
    · exact .inr same.symm
    · exact .inl (same ▸ inside)
  · rcases List.mem_append.1 member with inside | isNew
    · exact .inl inside
    · exact .inr (List.mem_singleton.1 isNew)

theorem nodup_foldl_define {script : Script} (nodup : script.names.Nodup)
    (sections : List Section) : (sections.foldl define script).names.Nodup := by
  induction sections generalizing script with
  | nil => exact nodup
  | cons new others induction => exact induction (nodup_define nodup new)

theorem nodup_ofSections (sections : List Section) : (ofSections sections).names.Nodup :=
  nodup_foldl_define (by simp) sections

theorem mem_foldl_define {script : Script} {sections : List Section}
    {entry : String × List Instruction}
    (member : entry ∈ (sections.foldl define script).sections) :
    entry ∈ script.sections ∨ ∃ found ∈ sections, entry = (found.name, found.instructions) := by
  induction sections generalizing script with
  | nil => exact .inl member
  | cons new others induction =>
      rcases induction member with defined | ⟨found, inside, same⟩
      · rcases mem_define defined with old | isNew
        · exact .inl old
        · exact .inr ⟨new, by simp, isNew⟩
      · exact .inr ⟨found, by simp [inside], same⟩

theorem exists_of_mem_ofSections {sections : List Section} {entry : String × List Instruction}
    (member : entry ∈ (ofSections sections).sections) :
    ∃ found ∈ sections, entry = (found.name, found.instructions) := by
  rcases mem_foldl_define member with isFalse | found
  · simp [empty] at isFalse
  · exact found

theorem foldl_define_of_nodup {script : Script} {sections : List Section}
    (nodup : (script.names ++ sections.map Section.name).Nodup) :
    (sections.foldl define script).sections =
      script.sections ++ sections.map fun found => (found.name, found.instructions) := by
  induction sections generalizing script with
  | nil => simp
  | cons new others induction =>
      have fresh : script.contains new.name = false := by
        rw [Bool.eq_false_iff]
        intro known
        have disjoint := (List.nodup_append.1 nodup).2.2
        exact disjoint new.name (contains_iff.1 known) new.name (by simp) rfl
      have names : (script.define new).names = script.names ++ [new.name] := by
        simp [names_define, fresh]
      rw [List.foldl_cons, induction]
      · simp [define, fresh]
      · rw [names, List.append_assoc]
        exact nodup

theorem ofSections_of_nodup {sections : List Section}
    (nodup : (sections.map Section.name).Nodup) :
    (ofSections sections).sections =
      sections.map fun found => (found.name, found.instructions) := by
  rw [ofSections, foldl_define_of_nodup (by simpa using nodup)]
  rfl

/-! ## Finding sections -/

theorem lookup_replace (entries : List (String × List Instruction)) (new : Section) (name : String) :
    (entries.map fun entry =>
        if entry.1 = new.name then (new.name, new.instructions) else entry).lookup name =
      if name = new.name ∧ new.name ∈ entries.map Prod.fst then some new.instructions
      else entries.lookup name := by
  induction entries with
  | nil => simp
  | cons entry others induction =>
      rcases entry with ⟨key, instructions⟩
      by_cases replaced : key = new.name
      · by_cases sought : name = new.name
        · simp [replaced, sought]
        · simp [List.lookup_cons, replaced, sought, induction, beq_false_of_ne sought]
      · by_cases sought : name = key
        · have other : name ≠ new.name := sought ▸ replaced
          simp [sought, replaced]
        · have later : new.name ∈ ((key, instructions) :: others).map Prod.fst ↔
              new.name ∈ others.map Prod.fst := by simp [Ne.symm replaced]
          rw [List.map_cons, if_neg replaced, List.lookup_cons, List.lookup_cons,
            beq_false_of_ne sought, induction]
          simp only [later]

theorem find?_define (script : Script) (new : Section) (name : String) :
    (script.define new).find? name =
      if name = new.name then some new.instructions else script.find? name := by
  cases known : script.contains new.name with
  | true =>
      have member : new.name ∈ script.sections.map Prod.fst := contains_iff.1 known
      simp only [find?, define, known, if_true, lookup_replace, member, and_true]
  | false =>
      have fresh : new.name ∉ script.names := by
        intro member
        rw [contains_iff.2 member] at known
        contradiction
      by_cases sought : name = new.name
      · have missing : script.sections.lookup name = none := by
          rw [List.lookup_eq_none_iff]
          intro entry member
          have apart : name ≠ entry.1 := by
            intro same
            exact fresh (sought ▸ same ▸ List.mem_map_of_mem member)
          simpa using apart
        subst sought
        simp [find?, define, known, List.lookup_append, missing]
      · simp [find?, define, known, List.lookup_append, List.lookup_cons, sought,
          beq_false_of_ne sought]

theorem find?_foldl_define (script : Script) (sections : List Section) (name : String) :
    (sections.foldl define script).find? name =
      ((ofSections sections).find? name).or (script.find? name) := by
  induction sections generalizing script with
  | nil => rfl
  | cons new others induction =>
      rw [ofSections, List.foldl_cons, List.foldl_cons, induction, induction (empty.define new),
        find?_define, find?_define]
      by_cases sought : name = new.name
      · simp [sought]
      · simp [sought, find?, empty]

theorem find?_ofSections_append (sections others : List Section) (name : String) :
    (ofSections (sections ++ others)).find? name =
      ((ofSections others).find? name).or ((ofSections sections).find? name) := by
  rw [ofSections, List.foldl_append, find?_foldl_define]
  rfl

end Script

end EventScript
