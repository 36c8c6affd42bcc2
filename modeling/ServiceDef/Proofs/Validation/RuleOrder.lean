import Mathlib.Data.Prod.Lex
import Mathlib.Data.String.Basic
import ServiceDef.Proofs.Validation.Reports

/-!
# The order of rules

Diagnostics are reported in the order of their places and rules, and the sort is stable. Where every
rule reports under an identifier of its own, two diagnostics that the sort does not tell apart come
from one rule, so the order in which the rules are run cannot be seen in a report.
-/

namespace ServiceDef

/-- Where a position stands in the order of positions: file, line and column. -/
def Position.place (position : Position) : String ×ₗ ℕ ×ₗ ℕ :=
  toLex (position.file, toLex (position.line, position.column))

/-- Where a diagnostic stands in the order of a report: its place, then its rule. -/
def Diagnostic.rank (diagnostic : Diagnostic) : (String ×ₗ ℕ ×ₗ ℕ) ×ₗ String :=
  toLex (diagnostic.position.place, diagnostic.rule)

/-- A rule reports under its own identifier only. -/
def Rule.ReportsAsItself (rule : Rule) (document : Document) : Prop :=
  ∀ diagnostic ∈ rule.check document, diagnostic.rule = rule.id

/-! ## Stable sorting -/

section Ranks

variable {α κ : Type} [LinearOrder κ] (rank : α → κ)

/-- Lists in order of rank are equal if they have the same elements of each rank in the same
order. -/
theorem eq_of_filter_rank_eq {left right : List α}
    (leftSorted : left.Pairwise (rank · ≤ rank ·)) (rightSorted : right.Pairwise (rank · ≤ rank ·))
    (same : ∀ k, left.filter (rank · = k) = right.filter (rank · = k)) : left = right := by
  have covered {left right : List α}
      (same : ∀ k, left.filter (rank · = k) = right.filter (rank · = k)) {element : α}
      (member : element ∈ left) : element ∈ right := by
    have found : element ∈ left.filter (rank · = rank element) := by simpa using member
    rw [same] at found
    exact (List.mem_filter.1 found).1
  induction left generalizing right with
  | nil =>
      cases right with
      | nil => rfl
      | cons other others =>
          exact absurd (covered (fun k => (same k).symm) List.mem_cons_self) (by simp)
  | cons first left inductionHypothesis =>
      cases right with
      | nil => exact absurd (covered same List.mem_cons_self) (by simp)
      | cons other right =>
          rw [List.pairwise_cons] at leftSorted rightSorted
          -- Each of the two first elements is somewhere in the other list, so not ahead of its
          -- first one.
          have sameRank : rank first = rank other := by
            apply le_antisymm
            · rcases List.mem_cons.1 (covered (fun k => (same k).symm) List.mem_cons_self) with
                here | behind
              · rw [here]
              · exact leftSorted.1 other behind
            · rcases List.mem_cons.1 (covered same List.mem_cons_self) with here | behind
              · rw [here]
              · exact rightSorted.1 first behind
          have sameFirst : first = other := by
            have heads := same (rank first)
            simp only [List.filter_cons, sameRank, decide_true, ite_true, List.cons.injEq] at heads
            exact heads.1
          subst sameFirst
          rw [inductionHypothesis leftSorted.2 rightSorted.2 fun k => ?_]
          have tails := same k
          by_cases here : rank first = k
          · simpa [here] using tails
          · simpa [here] using tails

end Ranks

namespace Diagnostic

/-- Diagnostics are compared by their ranks. -/
theorem precedes_iff (left right : Diagnostic) :
    precedes left right = true ↔ left.rank ≤ right.rank := by
  have isLE_compare {κ : Type} [LinearOrder κ] (a b : κ) : (compare a b).isLE = true ↔ a ≤ b :=
    Std.LawfulBCmp.isLE_iff_le
  exact isLE_compare left.rank right.rank

theorem precedes_trans (a b c : Diagnostic) (first : precedes a b = true)
    (second : precedes b c = true) : precedes a c = true := by
  rw [precedes_iff] at *
  exact first.trans second

theorem precedes_total (a b : Diagnostic) : (precedes a b || precedes b a) = true := by
  simpa [precedes_iff] using le_total a.rank b.rank

/-- Sorted diagnostics are in the order of their ranks. -/
theorem pairwise_rank_sort (diagnostics : List Diagnostic) :
    (sort diagnostics).Pairwise (rank · ≤ rank ·) :=
  (List.pairwise_mergeSort precedes_trans precedes_total diagnostics).imp
    fun before => (precedes_iff _ _).1 before

/-- Sorting leaves diagnostics of one rank in the order in which they were found. -/
theorem filter_rank_sort (diagnostics : List Diagnostic) (k : (String ×ₗ ℕ ×ₗ ℕ) ×ₗ String) :
    (sort diagnostics).filter (rank · = k) = diagnostics.filter (rank · = k) := by
  have tied : (diagnostics.filter (rank · = k)).Pairwise (precedes · ·) := by
    refine List.pairwise_of_forall_mem_list fun left leftMember right rightMember => ?_
    simp only [List.mem_filter, decide_eq_true_eq] at leftMember rightMember
    rw [precedes_iff, leftMember.2, rightMember.2]
  have kept : (diagnostics.filter (rank · = k)).Sublist (sort diagnostics) :=
    List.sublist_mergeSort precedes_trans precedes_total tied List.filter_sublist
  have inside := kept.filter (rank · = k)
  rw [List.filter_filter, List.filter_congr (q := (rank · = k)) (by simp)] at inside
  have perm : (sort diagnostics).Perm diagnostics := List.mergeSort_perm _ _
  exact (inside.eq_of_length (perm.filter _).length_eq.symm).symm

end Diagnostic

/-! ## Rules in another order -/

section Rules

variable {document : Document} {rules : List Rule}

/-- Diagnostics of one rank come from the rules with the identifier of that rank. -/
theorem filter_rank_flatMap (own : ∀ rule ∈ rules, rule.ReportsAsItself document)
    (place : String ×ₗ ℕ ×ₗ ℕ) (id : String) :
    (rules.flatMap fun rule => rule.check document).filter (·.rank = toLex (place, id)) =
      (rules.filter (·.id = id)).flatMap fun rule =>
        (rule.check document).filter (·.position.place = place) := by
  induction rules with
  | nil => rfl
  | cons rule rules inductionHypothesis =>
      rw [List.forall_mem_cons] at own
      rw [List.flatMap_cons, List.filter_append, inductionHypothesis own.2, List.filter_cons]
      by_cases same : rule.id = id
      · have tied : (rule.check document).filter (·.rank = toLex (place, id)) =
            (rule.check document).filter (·.position.place = place) := by
          refine List.filter_congr fun diagnostic member => ?_
          simp [Diagnostic.rank, own.1 diagnostic member, same]
        simp [same, tied]
      · have none : (rule.check document).filter (·.rank = toLex (place, id)) = [] := by
          refine List.filter_eq_nil_iff.2 fun diagnostic member => ?_
          simp [Diagnostic.rank, own.1 diagnostic member, same]
        simp [same, none]

/-- At most one rule has a given identifier. -/
theorem filter_id_cases (distinct : (rules.map (·.id)).Nodup) (id : String) :
    rules.filter (·.id = id) = [] ∨ ∃ rule, rules.filter (·.id = id) = [rule] := by
  have atMostOne : (rules.filter (·.id = id)).length ≤ 1 := by
    have count := List.nodup_iff_count_le_one.1 distinct id
    rwa [List.count, List.countP_map, List.countP_eq_length_filter] at count
  rcases Nat.le_one_iff_eq_zero_or_eq_one.1 atMostOne with none | one
  · exact .inl (List.length_eq_zero_iff.1 none)
  · exact .inr (List.length_eq_one_iff.1 one)

theorem filter_id_of_mem (distinct : (rules.map (·.id)).Nodup) {rule : Rule}
    (member : rule ∈ rules) : rules.filter (·.id = rule.id) = [rule] := by
  have found : rule ∈ rules.filter (·.id = rule.id) := by simpa using member
  rcases filter_id_cases distinct rule.id with none | ⟨other, one⟩
  · rw [none] at found
    cases found
  · rw [one] at found ⊢
    rw [List.mem_singleton.1 found]

/-- All orders of the rules agree on the rule with a given identifier. -/
theorem filter_id_eq_of_perm {permuted : List Rule} (distinct : (rules.map (·.id)).Nodup)
    (perm : permuted.Perm rules) (id : String) :
    permuted.filter (·.id = id) = rules.filter (·.id = id) := by
  have same := perm.filter (·.id = id)
  rcases filter_id_cases distinct id with none | ⟨rule, one⟩
  · rw [none] at same ⊢
    exact same.eq_nil
  · rw [one] at same ⊢
    exact List.perm_singleton.1 same

/-- The diagnostics of one rule at one place are reported as the rule found them. -/
theorem filter_rank_validate (own : ∀ rule ∈ rules, rule.ReportsAsItself document)
    (place : String ×ₗ ℕ ×ₗ ℕ) (id : String) :
    (({ rules := rules } : Validator).validate document).filter (·.rank = toLex (place, id)) =
      (rules.filter (·.id = id)).flatMap fun rule =>
        (rule.check document).filter (·.position.place = place) := by
  rw [Validator.validate, Diagnostic.filter_rank_sort, filter_rank_flatMap own]

theorem validate_eq_of_perm {permuted : List Rule} (distinct : (rules.map (·.id)).Nodup)
    (own : ∀ rule ∈ rules, rule.ReportsAsItself document) (perm : permuted.Perm rules) :
    ({ rules := permuted } : Validator).validate document =
      ({ rules := rules } : Validator).validate document := by
  refine eq_of_filter_rank_eq Diagnostic.rank (Diagnostic.pairwise_rank_sort _)
    (Diagnostic.pairwise_rank_sort _) fun k => ?_
  have ownPermuted : ∀ rule ∈ permuted, rule.ReportsAsItself document :=
    fun rule member => own rule (perm.mem_iff.1 member)
  exact (filter_rank_validate ownPermuted k.1 k.2).trans
    (by rw [filter_id_eq_of_perm distinct perm]; exact (filter_rank_validate own k.1 k.2).symm)

end Rules

theorem Rule.reportsAsItself_builtin (name : RuleName) (document : Document) :
    (Rule.builtin name).ReportsAsItself document :=
  fun diagnostic member => (reportsOf_checkOf name document diagnostic member).1

/-- The order of rules cannot be seen in a report. The sixteen built-in rules have different
identifiers and report under their own ones. Rules with these two properties, run in whatever order,
report the same list: it consists of all that the rules find, it is sorted by file, line, column
and rule, and what one rule finds at one place comes in the order in which the rule found it. -/
theorem validate_ruleOrder :
    (Validator.builtin.rules.length = 16 ∧ Validator.builtin.ids.Nodup ∧
      ∀ rule ∈ Validator.builtin.rules, ∀ document, rule.ReportsAsItself document) ∧
    ∀ (document : Document) (rules permuted : List Rule), (rules.map (·.id)).Nodup →
      (∀ rule ∈ rules, rule.ReportsAsItself document) → permuted.Perm rules →
        ({ rules := permuted } : Validator).validate document =
            ({ rules := rules } : Validator).validate document ∧
          (({ rules := rules } : Validator).validate document).Perm
            (rules.flatMap fun rule => rule.check document) ∧
          (({ rules := rules } : Validator).validate document).Pairwise (·.rank ≤ ·.rank) ∧
          ∀ rule ∈ rules, ∀ place,
            (({ rules := rules } : Validator).validate document).filter
                (fun diagnostic => diagnostic.rule = rule.id ∧ diagnostic.position.place = place) =
              (rule.check document).filter (·.position.place = place) := by
  refine ⟨⟨rfl, by decide, fun rule member document => ?_⟩,
    fun document rules permuted distinct own perm =>
      ⟨validate_eq_of_perm distinct own perm, List.mergeSort_perm _ _,
        Diagnostic.pairwise_rank_sort _, fun rule member place => ?_⟩⟩
  · obtain ⟨name, -, rfl⟩ := List.mem_map.1 member
    exact Rule.reportsAsItself_builtin name document
  · have found := filter_rank_validate own place rule.id
    rw [filter_id_of_mem distinct member, List.flatMap_singleton] at found
    rw [← found]
    refine List.filter_congr fun diagnostic _ => ?_
    simp [Diagnostic.rank, and_comm]

/-- A group outside of a service, without a label and with one attribute too many, which is written
twice: two rules report the block at one place, and two report the second attribute at another. -/
def strayGroup : Document where
  blocks :=
    [{ kind := "group"
       attributes :=
         [{ key := "tags", value := .list [], position := { line := 1, column := 9 } },
          { key := "tags", value := .list [], position := { line := 1, column := 19 } }]
       position := { line := 1, column := 1 } }]

theorem validate_ruleOrder_strayGroup :
    ({ rules := Validator.builtin.rules.reverse } : Validator).validate strayGroup =
        Validator.builtin.validate strayGroup ∧
      (Validator.builtin.rules.reverse.flatMap fun rule => rule.check strayGroup) ≠
        (Validator.builtin.rules.flatMap fun rule => rule.check strayGroup) :=
  ⟨(validate_ruleOrder.2 strayGroup Validator.builtin.rules Validator.builtin.rules.reverse
      (by decide) (fun rule member => validate_ruleOrder.1.2.2 rule member strayGroup)
      (List.reverse_perm _)).1,
    by decide⟩

end ServiceDef
