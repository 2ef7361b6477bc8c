import EventScript.Proofs.FirstImpossibleToken

/-! Texts that look the same. If the tokens of two texts look the same, then either both texts have
the same sections, or both are refused with the same complaint about the same token. -/

namespace EventScript

open TokenStream

/-! ## The furthest of refusals that are alike -/

namespace Refusal

/-- What a refusal has in common with its like in another text. -/
def gist (refusal : Refusal) : Nat × Complaint :=
  (refusal.index, refusal.fault.complaint)

theorem gist_eq_of_append {furthest first : Refusal} {after behind : List Refusal}
    {more : List (Nat × Complaint)}
    (same : first.gist :: behind.map gist = more ++ furthest.gist :: after.map gist)
    (less : ∀ earlier ∈ more, earlier.1 < furthest.index)
    (atMost : ∀ refusal ∈ behind, refusal.index ≤ first.index) : first.gist = furthest.gist := by
  cases more with
  | nil =>
      injection same
  | cons earlier others =>
      injection same with sameFirst sameBehind
      have further : first.gist.1 < furthest.index := by
        rw [sameFirst]
        exact less earlier (by simp)
      have isIndex : first.gist.1 = first.index := rfl
      have member : furthest.gist ∈ behind.map gist := by simp [sameBehind]
      rcases List.mem_map.1 member with ⟨refusal, listed, sameGist⟩
      have sameIndex : refusal.index = furthest.index := congrArg Prod.fst sameGist
      have notFurther := atMost refusal listed
      omega

theorem IsFurthest.gist_eq {refusals others : List Refusal} {furthest furthest' : Refusal}
    (isFurthest : IsFurthest refusals furthest) (isFurthest' : IsFurthest others furthest')
    (same : others.map gist = refusals.map gist) : furthest'.gist = furthest.gist := by
  rcases isFurthest with ⟨before, after, rfl, less, atMost⟩
  rcases isFurthest' with ⟨before', after', rfl, less', atMost'⟩
  rw [List.map_append, List.map_append, List.map_cons, List.map_cons] at same
  rcases List.append_eq_append_iff.1 same with ⟨more, sameBefore, rest⟩ | ⟨more, sameBefore, rest⟩
  · refine gist_eq_of_append rest (fun earlier member => ?_) atMost'
    have listed : earlier ∈ before.map gist := by simp [sameBefore, member]
    rcases List.mem_map.1 listed with ⟨refusal, inside, rfl⟩
    exact less refusal inside
  · refine (gist_eq_of_append rest (fun earlier member => ?_) atMost).symm
    have listed : earlier ∈ before'.map gist := by simp [sameBefore, member]
    rcases List.mem_map.1 listed with ⟨refusal, inside, rfl⟩
    exact less' refusal inside

end Refusal

/-! ## Places that are alike -/

theorem TokenStream.Passed.exists_alike {tokens others : Tokens}
    (alike : glyphs none others.toList = glyphs none tokens.toList) {before : List Token}
    {place : TokenStream} (passed : tokens.stream.Passed before place) :
    ∃ before' place', others.stream.Passed before' place' ∧ Alike before before' ∧
      ∀ bound, place.Agrees bound place' := by
  rcases Tokens.toList_of_passed passed with ⟨whole, index⟩
  have length : tokens.toList.length = before.length + place.toList.length := by
    rw [whole, List.length_append]
  have nonempty : 0 < place.toList.length := by simp [TokenStream.toList]
  rcases passed.exists_agrees (congrArg (·.take tokens.toList.length) alike) (Nat.le_refl _)
    (by omega) with ⟨before', place', passed', sameBefore, agrees⟩
  rcases Tokens.toList_of_passed passed' with ⟨whole', index'⟩
  have lengths := congrArg List.length alike
  rw [length_glyphs, length_glyphs, whole', List.length_append] at lengths
  have sameIndex := agrees.index
  have same := agrees.alike
  rw [List.take_of_length_le (by rw [length_glyphs]; omega),
    List.take_of_length_le (by rw [length_glyphs]; omega)] at same
  exact ⟨before', place', passed', sameBefore, fun bound => ⟨sameIndex, by rw [same]⟩⟩

namespace Rule

variable {α : Type} {place other : TokenStream}

theorem gist_refusal? {rule : Rule α} (isLocal : rule.Local)
    (agrees : ∀ bound, place.Agrees bound other) :
    (rule.refusal? other).map Refusal.gist = (rule.refusal? place).map Refusal.gist := by
  have mirrored := (isLocal place).mirrors (agrees (rule place).reach) (Nat.le_refl _)
  unfold refusal?
  cases reply : rule place with
  | accepted value rest =>
      rw [reply] at mirrored
      cases reply' : rule other with
      | accepted value' rest' => rfl
      | refused fault' rest' =>
          rw [reply'] at mirrored
          contradiction
  | refused fault rest =>
      rw [reply] at mirrored
      cases reply' : rule other with
      | accepted value' rest' =>
          rw [reply'] at mirrored
          contradiction
      | refused fault' rest' =>
          rw [reply'] at mirrored
          cases mirrored with
          | refused complaint index => simp [Refusal.gist, complaint, index]

end Rule

namespace Stage

theorem map_gist_refusals {sections : List Section} {place other : TokenStream}
    (agrees : ∀ bound, place.Agrees bound other) :
    (refusals ⟨sections, other⟩).map Refusal.gist =
      (refusals ⟨sections, place⟩).map Refusal.gist := by
  have forms : (Rule.instructionForms.filterMap (Rule.refusal? other)).map Refusal.gist =
      (Rule.instructionForms.filterMap (Rule.refusal? place)).map Refusal.gist := by
    rw [List.map_filterMap, List.map_filterMap]
    apply List.filterMap_congr
    intro form listed
    rcases Rule.exists_formOf_of_mem listed with ⟨instruction, rfl⟩
    exact Rule.gist_refusal? (Rule.local_formOf instruction) agrees
  have header := Rule.gist_refusal? Rule.local_sectionHeader agrees
  rw [refusals, refusals, List.map_append, List.map_append]
  refine congrArg₂ _ ?_ ?_
  · unfold formRefusals
    by_cases noSection : sections = []
    · simp [noSection]
    · simpa [noSection] using forms
  · cases replied : Rule.sectionHeader.refusal? place with
    | none =>
        rw [replied, Option.map_none, Option.map_eq_none_iff] at header
        simp [header]
    | some refusal =>
        rw [replied, Option.map_some, Option.map_eq_some_iff] at header
        rcases header with ⟨refusal', replied', same⟩
        simp [replied', same]

def indexBeyond (stage : Stage) (refusal : Refusal) : Nat :=
  if stage.place.index < refusal.index then
    refusal.index - if refusal.fault.complaint = .unknownSpecial then 1 else 0
  else stage.place.index

theorem exists_place_beyond {stage : Stage} {refusal : Refusal}
    (member : refusal ∈ stage.refusals) :
    ∃ begun place, stage.place.Passed begun place ∧ place.index = stage.indexBeyond refusal ∧
      place.current = (stage.faultBeyond refusal).token ∧
      ((stage.faultBeyond refusal).complaint.quotes = true →
        place.current.kind = .identifier) := by
  by_cases beyond : stage.place.index < refusal.index
  · rcases exists_completable member beyond with ⟨begun, place, rest, passed, index, stands, _⟩
    have standsIndex := stands.index
    rw [faultBeyond, indexBeyond, if_pos beyond, if_pos beyond]
    exact ⟨begun, place, passed, by omega, stands.token, stands.quoted⟩
  · rw [faultBeyond, indexBeyond, if_neg beyond, if_neg beyond]
    exact ⟨[], stage.place, .nothing _, rfl, rfl, by simp [Complaint.quotes]⟩

theorem beyond_eq_of_gist {stage other : Stage} {refusal refusal' : Refusal}
    (index : other.place.index = stage.place.index) (same : refusal'.gist = refusal.gist) :
    other.indexBeyond refusal' = stage.indexBeyond refusal ∧
      (other.faultBeyond refusal').complaint = (stage.faultBeyond refusal).complaint := by
  injection same with sameIndex sameComplaint
  unfold indexBeyond faultBeyond
  rw [index, sameIndex, sameComplaint]
  refine ⟨rfl, ?_⟩
  split
  · exact sameComplaint
  · rfl

end Stage

/-! ## Reports that are alike -/

namespace Parser

variable {tokens others : Tokens}

theorem readSections_ok_of_alike (alike : glyphs none others.toList = glyphs none tokens.toList)
    {sections : List Section} (read : (start tokens).readSections.1 = .ok sections) :
    (start others).readSections.1 = .ok sections := by
  rcases readSections_eq_ok_iff_reached.1 read with ⟨last, reached, finished, rfl⟩
  rcases reached.exists_passed with ⟨before, passed, leads⟩
  rcases passed.exists_alike alike with ⟨before', place', passed', sameBefore, agrees⟩
  have kind := (agrees (last.place.index + 1)).kind (Nat.lt_succ_self _)
  have notBreak : place'.current.kind ≠ .newline := kind ▸ reached.notBreak
  exact readSections_eq_ok_iff_reached.2 ⟨_, leads others.stream before' place' passed' sameBefore
    notBreak, kind.trans finished, rfl⟩

theorem readSections_error_of_alike (alike : glyphs none others.toList = glyphs none tokens.toList)
    {fault : Fault} (failed : (start tokens).readSections.1 = .error fault) :
    ∃ (fault' : Fault) (index : Nat), (start others).readSections.1 = .error fault' ∧
      fault'.complaint = fault.complaint ∧ tokens.toList[index]? = some fault.token ∧
      others.toList[index]? = some fault'.token ∧
      (fault.complaint.quotes = true → fault.token.kind = .identifier) := by
  rcases stuck_of_readSections failed with ⟨stage, refusal, reached, stuck, isFurthest, rfl⟩
  rcases reached.exists_passed with ⟨before, passed, leads⟩
  rcases passed.exists_alike alike with ⟨before', place', passed', sameBefore, agrees⟩
  have kind := (agrees (stage.place.index + 1)).kind (Nat.lt_succ_self _)
  have notBreak : place'.current.kind ≠ .newline := kind ▸ reached.notBreak
  have reached' := leads others.stream before' place' passed' sameBefore notBreak
  have stuck' : Stage.Stuck ⟨stage.sections, place'⟩ := by
    rcases Stage.exists_reported isFurthest with ⟨_, place, begunPassed, _, _, _, seen⟩
    have further := begunPassed.index_le
    have spans : 0 < (stage.faultBeyond refusal).span := by
      unfold Fault.span
      split <;> decide
    exact stuck.of_agrees (agrees _) (by omega) seen
  cases result : (start others).readSections.1 with
  | ok sections =>
      rcases readSections_eq_ok_iff_reached.1 result with ⟨last, lastReached, finished, _⟩
      exact absurd finished (reached'.not_finished stuck' lastReached)
  | error fault' =>
      rcases stuck_of_readSections result with
        ⟨other, refusal', otherReached, otherStuck, isFurthest', rfl⟩
      have sameStage := otherReached.eq_of_final reached' otherStuck.final stuck'.final
      subst sameStage
      have gist := isFurthest.gist_eq isFurthest' (Stage.map_gist_refusals agrees)
      rcases @Stage.beyond_eq_of_gist stage ⟨stage.sections, place'⟩ _ _ (agrees 0).index gist with
        ⟨sameIndex, sameComplaint⟩
      rcases Stage.exists_place_beyond isFurthest.mem with ⟨_, place, begun, index, token, quoted⟩
      rcases Stage.exists_place_beyond isFurthest'.mem with ⟨_, other, begun', index', token', _⟩
      refine ⟨_, place.index, rfl, sameComplaint, ?_, ?_, token ▸ quoted⟩
      · rw [← token]
        exact Tokens.getElem?_current (passed.trans begun)
      · rw [← token', index, ← sameIndex, ← index']
        exact Tokens.getElem?_current (passed'.trans begun')

end Parser

end EventScript
