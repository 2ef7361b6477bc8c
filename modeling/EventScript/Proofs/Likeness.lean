import EventScript.Proofs.DisplayForms
import EventScript.Proofs.FoldedSections
import Mathlib.Data.List.Perm.Subperm

/-! Likeness and display. Scripts are compared by what their literals count as, and shown with the
literals as they are written. So scripts that are alike can look different, but in one way only: one
of them has a truth value where the other has a number. -/

namespace EventScript

/-! ## Marks -/

/-- Marks that tell apart what is alike: alike items have equally many, and those with the same
marks are the same. -/
structure TellsApart {α β : Type} (marks : α → List β) (alike : α → α → Bool) : Prop where
  length_eq : ∀ {item other}, alike item other = true → (marks item).length = (marks other).length
  eq_of_marks : ∀ {item other}, alike item other = true → marks item = marks other → item = other

namespace TellsApart

variable {α β : Type} {marks : α → List β} {alike : α → α → Bool}

theorem eq_iff (apart : TellsApart marks alike) {item other : α} (isAlike : alike item other = true) :
    item = other ↔ marks item = marks other :=
  ⟨fun same => congrArg marks same, apart.eq_of_marks isAlike⟩

theorem eq_of_append (apart : TellsApart marks alike) {item other : α}
    (isAlike : alike item other = true) {rest rest' : List β}
    (same : marks item ++ rest = marks other ++ rest') : item = other ∧ rest = rest' := by
  rcases List.append_inj same (apart.length_eq isAlike) with ⟨sameMarks, sameRest⟩
  exact ⟨apart.eq_of_marks isAlike sameMarks, sameRest⟩

end TellsApart

/-! ## Literals and expressions -/

namespace Literal

def isTruth : Literal → Bool
  | .boolean _ => true
  | .integer _ | .text _ => false

/-- Literals that are alike are the same, unless one is a truth value and the other a number. -/
theorem eq_of_alike {first second : Literal} (isAlike : first.alike second = true)
    (sameKind : first.isTruth = second.isTruth) : first = second := by
  cases first with
  | boolean value =>
      cases second with
      | boolean other => revert isAlike; cases value <;> cases other <;> decide
      | _ => simp [isTruth] at sameKind
  | integer value =>
      cases second with
      | integer other => simpa [alike, count?] using isAlike
      | boolean other => simp [isTruth] at sameKind
      | text other => simp [alike] at isAlike
  | text value =>
      cases second with
      | text other => simpa [alike] using isAlike
      | _ => simp [alike] at isAlike

end Literal

namespace Expr

/-- Which literals of a tree are truth values, from left to right. -/
def truths : Expr → List Bool
  | .literal value => [value.isTruth]
  | .global _ | .hasItem _ => []
  | .binary _ left right => left.truths ++ right.truths
  | .unary _ operand => operand.truths

theorem length_truths {e other : Expr} (isAlike : e.alike other = true) :
    e.truths.length = other.truths.length := by
  fun_induction alike e other with
  | case1 first second => rfl
  | case2 first second => rfl
  | case3 first second => rfl
  | case4 op left right op' left' right' leftInduction rightInduction =>
      simp only [Bool.and_eq_true] at isAlike
      rw [truths, truths, List.length_append, List.length_append, leftInduction isAlike.1.2,
        rightInduction isAlike.2]
  | case5 op operand op' operand' induction =>
      simp only [Bool.and_eq_true] at isAlike
      exact induction isAlike.2
  | case6 => contradiction

theorem eq_of_truths {e other : Expr} (isAlike : e.alike other = true)
    (same : e.truths = other.truths) : e = other := by
  fun_induction alike e other with
  | case1 first second => rw [Literal.eq_of_alike isAlike (List.singleton_inj.1 same)]
  | case2 first second => rw [eq_of_beq isAlike]
  | case3 first second => rw [eq_of_beq isAlike]
  | case4 op left right op' left' right' leftInduction rightInduction =>
      simp only [Bool.and_eq_true] at isAlike
      rcases List.append_inj same (length_truths isAlike.1.2) with ⟨sameLeft, sameRight⟩
      rw [eq_of_beq isAlike.1.1, leftInduction isAlike.1.2 sameLeft,
        rightInduction isAlike.2 sameRight]
  | case5 op operand op' operand' induction =>
      simp only [Bool.and_eq_true] at isAlike
      rw [eq_of_beq isAlike.1, induction isAlike.2 same]
  | case6 => contradiction

theorem truths_tellsApart : TellsApart truths alike :=
  ⟨length_truths, eq_of_truths⟩

end Expr

/-! ## Instructions -/

namespace Instruction

def truths (instruction : Instruction) : List Bool :=
  instruction.expressions.flatMap Expr.truths

theorem cases_of_alike {instruction other : Instruction} (isAlike : instruction.alike other = true) :
    instruction = other ∨ ∃ (make : Expr → Instruction) (value value' : Expr),
      instruction = make value ∧ other = make value' ∧ value.alike value' = true ∧
      ∀ value, (make value).expressions = [value] := by
  fun_cases alike instruction other with
  | case1 target condition target' condition' =>
      simp only [alike, Bool.and_eq_true, beq_iff_eq] at isAlike
      exact .inr ⟨.jumpIf target, condition, condition', rfl, by rw [isAlike.1], isAlike.2, fun _ => rfl⟩
  | case2 name value name' value' =>
      simp only [alike, Bool.and_eq_true, beq_iff_eq] at isAlike
      exact .inr ⟨.assign name, value, value', rfl, by rw [isAlike.1], isAlike.2, fun _ => rfl⟩
  | case3 amount amount' =>
      exact .inr ⟨.receiveMoney, amount, amount', rfl, rfl, isAlike, fun _ => rfl⟩
  | case4 instruction other notJumps notAssigns notPayments =>
      rw [alike] at isAlike
      · exact .inl (eq_of_beq isAlike)
      · exact notJumps
      · exact notAssigns
      · exact notPayments

theorem truths_tellsApart : TellsApart truths alike where
  length_eq {instruction other} isAlike := by
    rcases cases_of_alike isAlike with rfl | ⟨make, value, value', rfl, rfl, valuesAlike, only⟩
    · rfl
    · simpa [truths, only] using Expr.length_truths valuesAlike
  eq_of_marks {instruction other} isAlike same := by
    rcases cases_of_alike isAlike with rfl | ⟨make, value, value', rfl, rfl, valuesAlike, only⟩
    · rfl
    · rw [Expr.eq_of_truths valuesAlike (by simpa [truths, only] using same)]

end Instruction

namespace Script

/-! ## Sections -/

theorem truths_tellsApart :
    TellsApart (List.flatMap Instruction.truths) alikeInstructions where
  length_eq {instructions others} isAlike := by
    fun_induction alikeInstructions instructions others with
    | case1 => rfl
    | case2 first rest first' rest' induction =>
        simp only [Bool.and_eq_true] at isAlike
        rw [List.flatMap_cons, List.flatMap_cons, List.length_append, List.length_append,
          Instruction.truths_tellsApart.length_eq isAlike.1, induction isAlike.2]
    | case3 => contradiction
  eq_of_marks {instructions others} isAlike same := by
    fun_induction alikeInstructions instructions others with
    | case1 => rfl
    | case2 first rest first' rest' induction =>
        simp only [Bool.and_eq_true] at isAlike
        rcases Instruction.truths_tellsApart.eq_of_append isAlike.1 same with ⟨rfl, sameRest⟩
        rw [induction isAlike.2 sameRest]
    | case3 => contradiction

theorem mem_of_find? {script : Script} {name : String} {instructions : List Instruction}
    (found : script.find? name = some instructions) : (name, instructions) ∈ script.sections := by
  rcases List.lookup_eq_some_iff.1 found with ⟨before, behind, sections, _⟩
  simp [sections]

theorem rel_find?_of_alike {script other : Script} (nodup : script.names.Nodup)
    (isAlike : script.alike other = true) (name : String) :
    Option.Rel (fun instructions others => alikeInstructions instructions others = true)
      (script.find? name) (other.find? name) := by
  simp only [alike, Bool.and_eq_true, beq_iff_eq, List.all_eq_true] at isAlike
  rcases isAlike with ⟨length, each⟩
  have within : ∀ entry ∈ script.sections, ∃ others, other.find? entry.1 = some others ∧
      alikeInstructions entry.2 others = true := by
    intro entry member
    have counterpart := each entry member
    split at counterpart
    · contradiction
    · next others found => exact ⟨others, found, counterpart⟩
  cases found : script.find? name with
  | some instructions =>
      rcases within _ (mem_of_find? found) with ⟨others, found', alikeOthers⟩
      rw [found']
      exact .some alikeOthers
  | none =>
      -- All names of the first script are among those of the other, which are no more.
      have subset : script.names ⊆ other.names := by
        intro title member
        rcases List.mem_map.1 member with ⟨entry, inside, rfl⟩
        rcases within entry inside with ⟨others, found', _⟩
        rw [← contains_iff, contains_iff_find?, found', Option.isSome_some]
      have perm : script.names.Perm other.names :=
        (List.subperm_of_subset nodup subset).perm_of_length_le (by simp [names, length])
      have missing : name ∉ other.names := by
        rw [← perm.mem_iff, ← contains_iff, contains_iff_find?, found]
        simp
      cases found' : other.find? name with
      | none => exact .none
      | some others =>
          exact absurd (List.mem_map_of_mem (mem_of_find? found')) missing

/-! ## Views of a section -/

def lines? (script : Script) (name : String) : Option (List String) :=
  (script.find? name).map (List.map Instruction.render)

def truths? (script : Script) (name : String) : Option (List Bool) :=
  (script.find? name).map (List.flatMap Instruction.truths)

end Script

def Display.field? : Display → String → Option Display
  | .record fields, key => fields.lookup key
  | _, _ => none

namespace Script

theorem lookup_map {α β : Type} (view : α → β) (entries : List (String × α)) (key : String) :
    (entries.map fun entry => (entry.1, view entry.2)).lookup key = (entries.lookup key).map view := by
  induction entries with
  | nil => rfl
  | cons entry entries induction =>
      rw [List.map_cons, List.lookup_cons, List.lookup_cons, induction]
      cases key == entry.1 <;> rfl

theorem field?_display (script : Script) (name : String) :
    script.display.field? name =
      (script.find? name).map fun instructions => .list (instructions.map Instruction.display) :=
  lookup_map (fun instructions : List Instruction =>
    Display.list (instructions.map Instruction.display)) script.sections name

section

variable {instructions others : List Instruction}

theorem map_display_eq_iff (wellFormed : ∀ instruction ∈ instructions, instruction.WellFormed)
    (wellFormed' : ∀ instruction ∈ others, instruction.WellFormed) :
    instructions.map Instruction.display = others.map Instruction.display ↔ instructions = others :=
  ⟨eq_of_map_eq Instruction.eq_of_display wellFormed wellFormed',
    fun same => congrArg (List.map Instruction.display) same⟩

theorem map_render_eq_iff (wellFormed : ∀ instruction ∈ instructions, instruction.WellFormed)
    (wellFormed' : ∀ instruction ∈ others, instruction.WellFormed) :
    instructions.map Instruction.render = others.map Instruction.render ↔ instructions = others := by
  refine ⟨fun same => ?_, fun same => congrArg (List.map Instruction.render) same⟩
  have word : Text.IsName "a" := by decide
  have sameText : (⟨[("a", instructions)]⟩ : Script).render = (⟨[("a", others)]⟩ : Script).render := by
    simp [render, sectionLines, same]
  have sameScript := eq_of_render (List.forall_mem_singleton.2 ⟨word, wellFormed⟩)
    (List.forall_mem_singleton.2 ⟨word, wellFormed'⟩) sameText
  simpa using sameScript

end

end Script

/-- In scripts that are alike a section has the same record, and the same lines, exactly if the same
literals of it are truth values. -/
theorem Compilation.views_of_alike {file file' : Path} {text text' : String}
    {compilation other : Compilation} (compiled : compile file text = .ok compilation)
    (compiled' : compile file' text' = .ok other)
    (isAlike : compilation.script.alike other.script = true) (name : String) :
    (compilation.script.display.field? name = other.script.display.field? name ↔
      compilation.script.truths? name = other.script.truths? name) ∧
    (compilation.script.lines? name = other.script.lines? name ↔
      compilation.script.truths? name = other.script.truths? name) := by
  have wellFormed := Script.wellFormed_of_compile compiled
  have wellFormed' := Script.wellFormed_of_compile compiled'
  have related := Script.rel_find?_of_alike (Script.nodup_of_compile compiled) isAlike name
  rw [Script.field?_display, Script.field?_display, Script.lines?, Script.lines?, Script.truths?,
    Script.truths?]
  generalize found : compilation.script.find? name = instructions? at related ⊢
  generalize found' : other.script.find? name = others? at related ⊢
  cases related with
  | none => simp
  | some alikeInstructions =>
      have fit := (wellFormed _ (Script.mem_of_find? found)).2
      have fit' := (wellFormed' _ (Script.mem_of_find? found')).2
      simp only [Option.map_some, Option.some.injEq, Display.list.injEq,
        Script.map_display_eq_iff fit fit', Script.map_render_eq_iff fit fit',
        Script.truths_tellsApart.eq_iff alikeInstructions, and_self]

theorem compile_payment_true : compile unnamedFile "--- a\nreceive_money(true)\n" =
    .ok (assemble unnamedFile [⟨"a", [.receiveMoney (.literal (.boolean true))]⟩]) :=
  @compile_payment (.literal (.boolean true)) "--- a\nreceive_money(true)\n"
    [⟨.leftParen, "(", ⟨2, 14⟩⟩, ⟨.identifier, "true", ⟨2, 15⟩⟩, ⟨.rightParen, ")", ⟨2, 19⟩⟩,
      ⟨.newline, "\n", ⟨2, 20⟩⟩] 8 ⟨3, 1⟩ (by decide +kernel) (Rule.formOf_accepted.1 (by cbv))

/-- A truth value in parentheses is still one. -/
theorem Compilation.views_of_alike_parenthesized : ∃ compilation other,
    compile unnamedFile "--- a\nreceive_money(true)\n" = .ok compilation ∧
      compile unnamedFile "--- a\nreceive_money((true))\n" = .ok other ∧
      compilation.script.alike other.script = true ∧
      compilation.script.display.field? "a" = other.script.display.field? "a" ∧
      compilation.script.lines? "a" = some ["receive_money(true)"] ∧
      compilation.script.lines? "a" = other.script.lines? "a" := by
  have compiled := @compile_payment (.literal (.boolean true)) "--- a\nreceive_money((true))\n"
    [⟨.leftParen, "(", ⟨2, 14⟩⟩, ⟨.leftParen, "(", ⟨2, 15⟩⟩, ⟨.identifier, "true", ⟨2, 16⟩⟩,
      ⟨.rightParen, ")", ⟨2, 20⟩⟩, ⟨.rightParen, ")", ⟨2, 21⟩⟩, ⟨.newline, "\n", ⟨2, 22⟩⟩] 10 ⟨3, 1⟩
    (by decide +kernel) (Rule.formOf_accepted.1 (by cbv))
  have isAlike : (assemble unnamedFile [⟨"a", [.receiveMoney (.literal (.boolean true))]⟩]).script.alike
      (assemble unnamedFile [⟨"a", [.receiveMoney (.literal (.boolean true))]⟩]).script = true := by
    decide +kernel
  have views := views_of_alike compile_payment_true compiled isAlike "a"
  exact ⟨_, _, compile_payment_true, compiled, isAlike, views.1.2 rfl, by decide +kernel,
    views.2.2 rfl⟩

/-- The truth value and the number one count as the same, yet they are written differently. -/
theorem Compilation.not_views_of_alike_one : ∃ compilation other,
    compile unnamedFile "--- a\nreceive_money(true)\n" = .ok compilation ∧
      compile unnamedFile "--- a\nreceive_money(1)\n" = .ok other ∧
      compilation.script.alike other.script = true ∧
      compilation.script.display.field? "a" ≠ other.script.display.field? "a" ∧
      compilation.script.lines? "a" = some ["receive_money(true)"] ∧
      other.script.lines? "a" = some ["receive_money(1)"] := by
  have compiled := @compile_payment (.literal (.integer 1)) "--- a\nreceive_money(1)\n"
    [⟨.leftParen, "(", ⟨2, 14⟩⟩, ⟨.integer, "1", ⟨2, 15⟩⟩, ⟨.rightParen, ")", ⟨2, 16⟩⟩,
      ⟨.newline, "\n", ⟨2, 17⟩⟩] 8 ⟨3, 1⟩ (by decide +kernel) (Rule.formOf_accepted.1 (by cbv))
  have record (amount : Expr) : (assemble unnamedFile
      [⟨"a", [.receiveMoney amount]⟩]).script.display.field? "a" = some (.list
        [.record [("kind", .text "receive_money"), ("amount", .text amount.render)]]) := rfl
  have differ : (Expr.literal (.boolean true)).render ≠ (Expr.literal (.integer 1)).render := by
    decide +kernel
  refine ⟨_, _, compile_payment_true, compiled, by decide +kernel, ?_, by decide +kernel,
    by decide +kernel⟩
  rw [record, record]
  simpa using differ

end EventScript
