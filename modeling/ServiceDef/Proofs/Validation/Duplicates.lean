import Mathlib.Algebra.BigOperators.Group.List.Lemmas
import Mathlib.Algebra.GroupWithZero.Nat
import Mathlib.Data.List.Forall2
import ServiceDef.Proofs.Validation.Reports

/-!
# Reports about duplicate blocks

A labelled block is named by its kind and its label. Among the blocks of one list, every name that
several of them have is reported once, with the places of all of them
(`DuplicateReports`). The names are those that groups are formed by, so most of the work is about
the keys of a list in the order in which they occur first.
-/

namespace ServiceDef

/-- The kind and the label of a labelled block. -/
def Block.name? (block : Block) : Option (String × String) :=
  block.label.map (block.kind, ·)

/-- The blocks that have a name, in written order. -/
def namesakes (siblings : List Block) (name : String × String) : List Block :=
  siblings.filter fun block => block.name? = some name

/-- The report about blocks that share a name: it stands at the second of them and relates it to
all the others, and its message lists all of them. -/
def NamesakeReport (group : List Block) (report : Diagnostic) : Prop :=
  ∃ first second others, group = first :: second :: others ∧
    report =
      { severity := .error
        rule := "duplicate-block"
        message := "duplicate " ++ backquoted first.display ++ " defined at " ++
          String.intercalate ", " (group.map fun block => block.position.lineColumn)
        position := second.position
        related := first.position :: others.map (·.position) }

/-- The reports about the blocks of one list, and the names that they are about. -/
structure DuplicateReports (siblings : List Block) (names : List (String × String))
    (reports : List Diagnostic) : Prop where
  /-- The names are those of several blocks. -/
  mem_names_iff (name : String × String) : name ∈ names ↔ 2 ≤ (namesakes siblings name).length
  /-- They stand in the order in which they occur first. -/
  ordered : names.Pairwise fun earlier later =>
    (siblings.findIdx fun block => block.name? = some earlier) <
      siblings.findIdx fun block => block.name? = some later
  /-- Each of them is reported once. -/
  reported :
    List.Forall₂ (fun name report => NamesakeReport (namesakes siblings name) report) names reports
  /-- All places in the reports are as many as the blocks that share their name with another. -/
  named : (reports.map fun report => report.places.length).sum =
    siblings.countP fun block =>
      block.label.isSome ∧ 2 ≤ siblings.countP fun other => other.name? = block.name?

/-! ## Keys in the order of their first occurrence -/

section Keys

variable {α κ : Type} [DecidableEq κ]

/-- The keys that elements have, in the order in which they occur first. -/
def distinctKeys (key? : α → Option κ) (elements : List α) : List κ :=
  (elements.filterMap key?).eraseDups

theorem mem_distinctKeys {key? : α → Option κ} {elements : List α} {key : κ} :
    key ∈ distinctKeys key? elements ↔ ∃ element ∈ elements, key? element = some key := by
  rw [distinctKeys, List.mem_eraseDups, List.mem_filterMap]

theorem eraseDups_concat (keys : List κ) (key : κ) :
    (keys ++ [key]).eraseDups =
      if key ∈ keys then keys.eraseDups else keys.eraseDups ++ [key] := by
  rw [List.eraseDups_append, List.removeAll]
  by_cases known : key ∈ keys <;> simp [known, List.eraseDups_cons]

theorem eraseDups_map {ι : Type} [DecidableEq ι] {rename : ι → κ}
    (injective : Function.Injective rename) (keys : List ι) :
    (keys.map rename).eraseDups = keys.eraseDups.map rename := by
  induction keys using List.reverseRecOn with
  | nil => rfl
  | append_singleton keys key inductionHypothesis =>
      rw [List.map_append, List.map_singleton, eraseDups_concat, eraseDups_concat,
        inductionHypothesis]
      by_cases known : key ∈ keys <;> simp [known, injective.eq_iff]

/-- The key of an element is found in a longer list where it was found before. -/
theorem findIdx_key_append {key? : α → Option κ} {elements : List α} {key : κ} (more : List α)
    (member : key ∈ distinctKeys key? elements) :
    (elements ++ more).findIdx (fun element => key? element = some key) =
        elements.findIdx (fun element => key? element = some key) ∧
      elements.findIdx (fun element => key? element = some key) < elements.length := by
  have inside : elements.findIdx (fun element => key? element = some key) < elements.length := by
    obtain ⟨element, isElement, isKey⟩ := mem_distinctKeys.1 member
    exact List.findIdx_lt_length_of_exists ⟨element, isElement, by simpa using isKey⟩
  exact ⟨by rw [List.findIdx_append, if_pos inside], inside⟩

/-- The different keys of a list are in the order in which they occur first. -/
theorem pairwise_distinctKeys (key? : α → Option κ) (elements : List α) :
    (distinctKeys key? elements).Pairwise fun earlier later =>
      elements.findIdx (fun element => key? element = some earlier) <
        elements.findIdx (fun element => key? element = some later) := by
  induction elements using List.reverseRecOn with
  | nil => exact List.Pairwise.nil
  | append_singleton elements element inductionHypothesis =>
      have kept : (distinctKeys key? elements).Pairwise fun earlier later =>
          (elements ++ [element]).findIdx (fun element => key? element = some earlier) <
            (elements ++ [element]).findIdx (fun element => key? element = some later) := by
        refine inductionHypothesis.imp_of_mem fun {earlier later} isEarlier isLater before => ?_
        rw [(findIdx_key_append [element] isEarlier).1, (findIdx_key_append [element] isLater).1]
        exact before
      rw [distinctKeys, List.filterMap_append]
      cases isKey : key? element with
      | none =>
          rw [List.filterMap_cons_none isKey, List.filterMap_nil, List.append_nil]
          exact kept
      | some key =>
          rw [List.filterMap_cons_some isKey, List.filterMap_nil, eraseDups_concat]
          split
          · exact kept
          · next unknown =>
              refine List.pairwise_append.2 ⟨kept, List.pairwise_singleton _ _, ?_⟩
              intro earlier isEarlier later isLater
              -- A new key occurs first at the end, where no earlier element has it.
              have absent : elements.findIdx (fun element => key? element = some key) =
                  elements.length := by
                rw [List.findIdx_eq_length]
                intro other isOther
                have different : key? other ≠ some key :=
                  fun same => unknown (List.mem_filterMap.2 ⟨other, isOther, same⟩)
                simpa using different
              have found := findIdx_key_append [element] isEarlier
              rw [List.mem_singleton.1 isLater, found.1, List.findIdx_append, absent,
                if_neg (lt_irrefl _)]
              omega

theorem nodup_distinctKeys (key? : α → Option κ) (elements : List α) :
    (distinctKeys key? elements).Nodup := by
  refine (pairwise_distinctKeys key? elements).imp fun before same => ?_
  rw [same] at before
  exact lt_irrefl _ before

/-- The elements with a frequent key are counted key by key. -/
theorem sum_count_distinctKeys (key? : α → Option κ) (elements : List α) (frequent : κ → Bool) :
    (((distinctKeys key? elements).filter frequent).map
        fun key => elements.countP fun element => key? element = some key).sum =
      elements.countP fun element => (key? element).any frequent := by
  have same : (distinctKeys key? elements).Perm (elements.filterMap key?).dedup :=
    (List.perm_ext_iff_of_nodup (nodup_distinctKeys key? elements) (List.nodup_dedup _)).2
      fun key => by rw [distinctKeys, List.mem_eraseDups, List.mem_dedup]
  have count (key : κ) : (elements.countP fun element => key? element = some key) =
      (elements.filterMap key?).count key := by
    rw [List.count, List.countP_filterMap]
    refine List.countP_congr fun element _ => ?_
    cases key? element <;> simp
  simp only [count]
  rw [((same.filter frequent).map _).sum_eq, List.sum_map_count_dedup_filter_eq_countP,
    List.countP_filterMap]
  refine List.countP_congr fun element _ => ?_
  cases key? element <;> simp

end Keys

/-! ## Groups of blocks -/

namespace Rule

/-- The reports about the blocks of one list. -/
def duplicatesAmong (siblings : List Block) : List Diagnostic :=
  (groupByKey (fun block => (block.kind, block.label))
    (siblings.filter (·.label.isSome))).flatMap duplicateGroup

/-- Labelled blocks are grouped by their names. -/
theorem groupByKey_labelled (siblings : List Block) :
    groupByKey (fun block => (block.kind, block.label)) (siblings.filter (·.label.isSome)) =
      (distinctKeys Block.name? siblings).map (namesakes siblings) := by
  have keys : (siblings.filter (·.label.isSome)).map (fun block => (block.kind, block.label)) =
      (siblings.filterMap Block.name?).map fun name => (name.1, some name.2) := by
    induction siblings with
    | nil => rfl
    | cons block siblings inductionHypothesis =>
        cases label : block.label <;> simp [Block.name?, label, inductionHypothesis]
  have injective : Function.Injective fun name : String × String => (name.1, some name.2) := by
    rintro ⟨kind, label⟩ ⟨kind', label'⟩ same
    simpa using same
  rw [groupByKey, keys, eraseDups_map injective, List.map_map]
  refine List.map_congr_left fun name _ => ?_
  rw [Function.comp_apply, List.filter_filter, namesakes]
  refine List.filter_congr fun block _ => ?_
  obtain ⟨kind, label⟩ := name
  cases isLabel : block.label <;> simp [Block.name?, isLabel]

/-- A group of several blocks has one report, and no other group has any. -/
theorem forall₂_duplicateGroup {ι : Type} (group : ι → List Block) (names : List ι) :
    List.Forall₂ (fun name report => NamesakeReport (group name) report)
      (names.filter fun name => 2 ≤ (group name).length)
      (names.flatMap fun name => duplicateGroup (group name)) := by
  induction names with
  | nil => exact .nil
  | cons name names inductionHypothesis =>
      rw [List.flatMap_cons]
      match members : group name with
      | [] => simpa [members, duplicateGroup] using inductionHypothesis
      | [_] => simpa [members, duplicateGroup] using inductionHypothesis
      | first :: second :: others =>
          rw [List.filter_cons_of_pos (by simp [members])]
          refine .cons ⟨first, second, others, members, ?_⟩ inductionHypothesis
          have places : (others.map (·.position)).map Position.lineColumn =
              others.map fun block => block.position.lineColumn := List.map_map
          rw [members, List.map_cons, List.map_cons, ← places]
          rfl

theorem length_places_of_namesakeReport {group : List Block} {report : Diagnostic}
    (reported : NamesakeReport group report) : report.places.length = group.length := by
  obtain ⟨first, second, others, rfl, rfl⟩ := reported
  simp [Diagnostic.places]

/-- The names that several blocks have, in the order in which they occur first. -/
def repeatedNames (siblings : List Block) : List (String × String) :=
  (distinctKeys Block.name? siblings).filter fun name => 2 ≤ (namesakes siblings name).length

theorem mem_repeatedNames_iff (siblings : List Block) (name : String × String) :
    name ∈ repeatedNames siblings ↔ 2 ≤ (namesakes siblings name).length := by
  rw [repeatedNames, List.mem_filter, mem_distinctKeys, decide_eq_true_eq, and_iff_right_iff_imp]
  intro several
  obtain ⟨block, isNamesake⟩ := List.exists_mem_of_length_pos
    (show 0 < (namesakes siblings name).length by omega)
  exact ⟨block, by simpa [namesakes] using isNamesake⟩

theorem forall₂_duplicatesAmong (siblings : List Block) :
    List.Forall₂ (fun name report => NamesakeReport (namesakes siblings name) report)
      (repeatedNames siblings) (duplicatesAmong siblings) := by
  rw [duplicatesAmong, groupByKey_labelled, List.flatMap_map]
  exact forall₂_duplicateGroup _ _

/-- The places in the reports are those of the blocks with a repeated name, name by name. -/
theorem sum_places_duplicatesAmong (siblings : List Block) :
    ((duplicatesAmong siblings).map fun report => report.places.length).sum =
      siblings.countP fun block =>
        block.label.isSome ∧ 2 ≤ siblings.countP fun other => other.name? = block.name? := by
  have sizes : (duplicatesAmong siblings).map (fun report => report.places.length) =
      (repeatedNames siblings).map
        fun name => siblings.countP fun block => block.name? = some name := by
    rw [← List.forall₂_eq_eq_eq, List.forall₂_map_left_iff, List.forall₂_map_right_iff]
    refine (forall₂_duplicatesAmong siblings).flip.imp fun report name about => ?_
    rw [length_places_of_namesakeReport about, namesakes, List.countP_eq_length_filter]
  rw [sizes, repeatedNames, sum_count_distinctKeys]
  refine List.countP_congr fun block _ => ?_
  rw [Block.name?]
  cases block.label with
  | none => simp
  | some label => simp [namesakes, ← List.countP_eq_length_filter]

theorem duplicateReports_duplicatesAmong (siblings : List Block) :
    DuplicateReports siblings (repeatedNames siblings) (duplicatesAmong siblings) where
  mem_names_iff := mem_repeatedNames_iff siblings
  ordered := (pairwise_distinctKeys Block.name? siblings).filter _
  reported := forall₂_duplicatesAmong siblings
  named := sum_places_duplicatesAmong siblings

end Rule

/-- Duplicate blocks are reported completely and once. The rule goes through the list of blocks at
the top level and then through the blocks in each block, and in each list it reports exactly the
names that several labelled blocks have. -/
theorem duplicates_reported_once (document : Document) :
    Rule.checkOf .duplicateBlock document =
      (document.blocks :: document.preorder.map (·.blocks)).flatMap Rule.duplicatesAmong ∧
    ∀ siblings, ∃ names, DuplicateReports siblings names (Rule.duplicatesAmong siblings) :=
  ⟨rfl, fun siblings => ⟨_, Rule.duplicateReports_duplicatesAmong siblings⟩⟩

end ServiceDef
