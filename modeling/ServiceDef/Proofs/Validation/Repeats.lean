import Mathlib.Data.List.Nodup
import ServiceDef.Rule.Repeats

/-!
# Laws of keys

A list has no repeated key exactly if all its keys are different, and then looking a key up finds
the only element that has it. Neither the repeats of a list nor its groups look at anything of an
element but the key.
-/

namespace ServiceDef

variable {α β κ : Type} [DecidableEq κ]

/-- Where all keys are different, an element is found by its key. -/
theorem find?_key_eq_some_iff (key : α → κ) {elements : List α}
    (distinct : (elements.map key).Nodup) (wanted : κ) (element : α) :
    elements.find? (fun other => key other = wanted) = some element ↔
      element ∈ elements ∧ key element = wanted := by
  constructor
  · intro found
    exact ⟨List.mem_of_find?_eq_some found, by simpa using List.find?_some found⟩
  · rintro ⟨member, rfl⟩
    cases found : elements.find? fun other => key other = key element with
    | none =>
        have absent := List.find?_eq_none.1 found element member
        simp at absent
    | some other =>
        have same : key other = key element := by simpa using List.find?_some found
        rw [List.inj_on_of_nodup_map distinct (List.mem_of_find?_eq_some found) member same]

/-! ## Repeats -/

/-- Nothing is repeated exactly if no key occurs twice, and none is the key of an earlier element. -/
theorem repeatsAfter_eq_nil_iff (key : α → κ) (firsts elements : List α) :
    repeatsAfter key firsts elements = [] ↔
      (∀ element ∈ elements, ∀ first ∈ firsts, key first ≠ key element) ∧
        (elements.map key).Nodup := by
  induction elements generalizing firsts with
  | nil => simp [repeatsAfter]
  | cons element rest inductionHypothesis =>
      rw [List.map_cons, List.nodup_cons, List.mem_map]
      cases found : firsts.find? fun first => key first = key element with
      | some first =>
          have same : key first = key element := by simpa using List.find?_some found
          have member := List.mem_of_find?_eq_some found
          simp only [repeatsAfter, found, List.cons_ne_nil, false_iff]
          rintro ⟨different, -⟩
          exact different element List.mem_cons_self first member same
      | none =>
          have fresh : ∀ first ∈ firsts, key first ≠ key element := by simpa using found
          simp only [repeatsAfter, found, inductionHypothesis]
          constructor
          · rintro ⟨different, nodup⟩
            refine ⟨fun other member first firstMember => ?_, ?_, nodup⟩
            · rcases List.mem_cons.1 member with rfl | member
              · exact fresh first firstMember
              · exact different other member first (List.mem_append_left _ firstMember)
            · rintro ⟨other, member, same⟩
              exact different other member element (by simp) same.symm
          · rintro ⟨different, absent, nodup⟩
            refine ⟨fun other member first firstMember same => ?_, nodup⟩
            rcases List.mem_append.1 firstMember with before | here
            · exact different other (List.mem_cons_of_mem _ member) first before same
            · rw [List.mem_singleton.1 here] at same
              exact absent ⟨other, member, same.symm⟩

theorem repeats_eq_nil_iff (key : α → κ) (elements : List α) :
    repeats key elements = [] ↔ (elements.map key).Nodup := by
  simp [repeats, repeatsAfter_eq_nil_iff]

theorem repeatsAfter_map (key : β → κ) (change : α → β) (firsts elements : List α) :
    repeatsAfter key (firsts.map change) (elements.map change) =
      (repeatsAfter (fun element => key (change element)) firsts elements).map
        fun (element, first) => (change element, change first) := by
  induction elements generalizing firsts with
  | nil => rfl
  | cons element rest inductionHypothesis =>
      rw [List.map_cons, repeatsAfter, repeatsAfter, List.find?_map]
      cases found : firsts.find? fun first => key (change first) = key (change element) with
      | some first => simp [Function.comp_def, found, inductionHypothesis]
      | none =>
          have more := inductionHypothesis (firsts ++ [element])
          rw [List.map_append, List.map_singleton] at more
          simp [Function.comp_def, found, more]

/-- A change that leaves the keys alone changes the repeated elements and nothing else. -/
theorem repeats_map (key : β → κ) (change : α → β) (elements : List α) :
    repeats key (elements.map change) =
      (repeats (fun element => key (change element)) elements).map
        fun (element, first) => (change element, change first) :=
  repeatsAfter_map key change [] elements

/-! ## Groups -/

/-- Every group has one element exactly if all keys are different. -/
theorem groupByKey_length_lt_iff (key : α → κ) (elements : List α) :
    (∀ group ∈ groupByKey key elements, group.length < 2) ↔ (elements.map key).Nodup := by
  rw [List.nodup_iff_count_le_one]
  have size (k : κ) : (elements.filter fun element => key element = k).length =
      (elements.map key).count k := by
    rw [← List.countP_eq_length_filter, List.count, List.countP_map]
    rfl
  constructor
  · intro small k
    by_cases member : k ∈ elements.map key
    · have group := small _ (List.mem_map_of_mem (List.mem_eraseDups.2 member))
      rw [size] at group
      omega
    · rw [List.count_eq_zero_of_not_mem member]
      omega
  · intro once group member
    obtain ⟨k, -, rfl⟩ := List.mem_map.1 member
    have atMost := once k
    rw [size]
    omega

/-- A change that leaves the keys alone changes the elements of groups and nothing else. -/
theorem groupByKey_map (key : β → κ) (change : α → β) (elements : List α) :
    groupByKey key (elements.map change) =
      (groupByKey (fun element => key (change element)) elements).map (List.map change) := by
  simp [groupByKey, List.filter_map, Function.comp_def]

end ServiceDef
