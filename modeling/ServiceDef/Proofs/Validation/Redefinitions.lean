import Mathlib.Data.List.Dedup
import ServiceDef.Proofs.Validation.References

/-!
# Reports about repeated keys

Attributes, map entries and actions are reported wherever they repeat a key of their own list. Each
repeat is reported once, at its own place, and related to the first element that has the key, not to
the repeat before it (`RepeatReports`). What is reported about a list depends on that list only.

The lists are those of all blocks of a document, and those of all maps in their values. A map is
found at an address: the index of each item and entry on the way to it. The maps of a value are
checked in the order of their addresses, so each of them once, however often equal maps occur.
-/

namespace ServiceDef

/-! ## Repeats of a list -/

section Keys

variable {α κ : Type} [DecidableEq κ]

/-- The element at an index has the key of an earlier element. -/
def RepeatsKey (key : α → κ) (elements : List α) (index : Nat) : Prop :=
  ∃ element, elements[index]? = some element ∧
    ∃ earlier < index, ∃ other, elements[earlier]? = some other ∧ key other = key element

/-- The reports about the repeated keys of a list, and the indices of the elements that they are
about. -/
structure RepeatReports (key : α → κ) (report : α → α → Diagnostic) (elements : List α)
    (indices : List Nat) (reports : List Diagnostic) : Prop where
  /-- The indices are those of the elements that repeat a key. -/
  mem_indices_iff (index : Nat) : index ∈ indices ↔ RepeatsKey key elements index
  /-- They are in written order, and no element is reported twice. -/
  ascending : indices.Pairwise (· < ·)
  /-- Each of them is reported against the first element that has its key. -/
  reported : List.Forall₂
    (fun index diagnostic => ∃ element first, elements[index]? = some element ∧
      elements.find? (fun other => key other = key element) = some first ∧
      diagnostic = report element first)
    indices reports
  /-- There is one report for each element, less one for each key. -/
  counted : reports.length + (elements.map key).dedup.length = elements.length

/-- A longer list repeats one key more if its last element has the key of an earlier one. -/
theorem repeatsAfter_concat (key : α → κ) (firsts elements : List α) (last : α) :
    repeatsAfter key firsts (elements ++ [last]) =
      repeatsAfter key firsts elements ++
        (((firsts ++ elements).find? fun first => key first = key last).map
          fun first => (last, first)).toList := by
  induction elements generalizing firsts with
  | nil =>
      rw [List.append_nil]
      cases found : firsts.find? fun first => key first = key last <;> simp [repeatsAfter, found]
  | cons element elements inductionHypothesis =>
      rw [List.cons_append, repeatsAfter, repeatsAfter]
      cases found : firsts.find? fun first => key first = key element with
      | none =>
          simp only [inductionHypothesis]
          rw [List.append_assoc, List.singleton_append]
      | some first =>
          -- The element is not the first one of its key, so it is not found where that one is.
          have passed : (firsts ++ element :: elements).find? (fun first => key first = key last) =
              (firsts ++ elements).find? fun first => key first = key last := by
            rw [List.find?_append, List.find?_append, List.find?_cons]
            by_cases wanted : key element = key last
            · have earlier : firsts.find? (fun first => key first = key last) = some first := by
                simpa [wanted] using found
              rw [earlier, Option.some_or, Option.some_or]
            · simp [wanted]
          simp only [inductionHypothesis, passed, List.cons_append]

theorem repeats_concat (key : α → κ) (elements : List α) (last : α) :
    repeats key (elements ++ [last]) =
      repeats key elements ++
        ((elements.find? fun first => key first = key last).map
          fun first => (last, first)).toList :=
  repeatsAfter_concat key [] elements last

omit [DecidableEq κ] in
theorem RepeatsKey.lt_length {key : α → κ} {elements : List α} {index : Nat}
    (repeated : RepeatsKey key elements index) : index < elements.length := by
  obtain ⟨element, found, -⟩ := repeated
  exact (List.getElem?_eq_some_iff.1 found).1

omit [DecidableEq κ] in
/-- The elements before the last one repeat what they repeat without it, and the last one repeats a
key that one of them has. -/
theorem repeatsKey_concat_iff (key : α → κ) (elements : List α) (last : α) (index : Nat) :
    RepeatsKey key (elements ++ [last]) index ↔
      RepeatsKey key elements index ∨
        index = elements.length ∧ ∃ other ∈ elements, key other = key last := by
  constructor
  · rintro ⟨element, found, earlier, before, other, otherFound, same⟩
    have inside := (List.getElem?_eq_some_iff.1 found).1
    rw [List.length_append, List.length_singleton] at inside
    rw [List.getElem?_append_left (by omega)] at otherFound
    by_cases atEnd : index = elements.length
    · rw [atEnd, List.getElem?_concat_length, Option.some.injEq] at found
      rw [← found] at same
      exact .inr ⟨atEnd, other, List.mem_of_getElem? otherFound, same⟩
    · rw [List.getElem?_append_left (by omega)] at found
      exact .inl ⟨element, found, earlier, before, other, otherFound, same⟩
  · rintro (repeated | ⟨rfl, other, member, same⟩)
    · have inside := repeated.lt_length
      obtain ⟨element, found, earlier, before, other, otherFound, same⟩ := repeated
      exact ⟨element, by rwa [List.getElem?_append_left inside], earlier, before, other,
        by rwa [List.getElem?_append_left (by omega)], same⟩
    · obtain ⟨earlier, before, rfl⟩ := List.getElem_of_mem member
      exact ⟨last, List.getElem?_concat_length, earlier, before, _,
        by rw [List.getElem?_append_left before, List.getElem?_eq_getElem], same⟩

theorem length_dedup_concat (keys : List κ) (last : κ) :
    (keys ++ [last]).dedup.length = keys.dedup.length + if last ∈ keys then 0 else 1 := by
  rw [(List.perm_append_singleton last keys).dedup.length_eq, List.dedup_cons]
  split <;> rfl

/-- What is reported about the repeated keys of a list. -/
def redefinitions (key : α → κ) (report : α → α → Diagnostic) (elements : List α) :
    List Diagnostic :=
  (repeats key elements).map fun (element, first) => report element first

/-- Every element is the first one of its key or is reported. -/
theorem length_redefinitions_add (key : α → κ) (report : α → α → Diagnostic) (elements : List α) :
    (redefinitions key report elements).length + (elements.map key).dedup.length =
      elements.length := by
  induction elements using List.reverseRecOn with
  | nil => rfl
  | append_singleton elements last inductionHypothesis =>
      rw [redefinitions, List.length_map] at inductionHypothesis ⊢
      rw [repeats_concat, List.length_append, List.map_append, List.map_singleton,
        length_dedup_concat, List.length_append, List.length_singleton]
      cases found : elements.find? fun first => key first = key last with
      | none =>
          have absent : key last ∉ elements.map key := by simpa using found
          rw [if_neg absent, Option.map_none, Option.toList_none, List.length_nil]
          omega
      | some first =>
          have present : key last ∈ elements.map key :=
            List.mem_map.2 ⟨first, List.mem_of_find?_eq_some found,
              by simpa using List.find?_some found⟩
          rw [if_pos present, Option.map_some, Option.toList_some, List.length_singleton]
          omega

/-- The repeats of a list are reported completely and once. The induction goes from the end of the
list, because a list keeps its reports when it grows. -/
theorem exists_repeatReports (key : α → κ) (report : α → α → Diagnostic) (elements : List α) :
    ∃ indices, RepeatReports key report elements indices (redefinitions key report elements) := by
  induction elements using List.reverseRecOn with
  | nil => exact ⟨[], fun index => by simp [RepeatsKey], .nil, .nil, rfl⟩
  | append_singleton elements last inductionHypothesis =>
      have counted := length_redefinitions_add key report (elements ++ [last])
      obtain ⟨indices, mem_indices_iff, ascending, reported, -⟩ := inductionHypothesis
      have kept : List.Forall₂
          (fun index diagnostic => ∃ element first, (elements ++ [last])[index]? = some element ∧
            (elements ++ [last]).find? (fun other => key other = key element) = some first ∧
            diagnostic = report element first)
          indices (redefinitions key report elements) := by
        refine List.Forall₂.imp ?_ reported
        rintro index diagnostic ⟨element, first, found, isFirst, rfl⟩
        have before := (List.getElem?_eq_some_iff.1 found).1
        exact ⟨element, first, by rwa [List.getElem?_append_left before],
          by rw [List.find?_append, isFirst, Option.some_or], rfl⟩
      rw [redefinitions, repeats_concat, List.map_append] at counted ⊢
      cases isFirst : elements.find? fun first => key first = key last with
      | none =>
          have fresh : ∀ other ∈ elements, key other ≠ key last := by simpa using isFirst
          rw [isFirst, Option.map_none, Option.toList_none, List.map_nil,
            List.append_nil] at counted
          rw [Option.map_none, Option.toList_none, List.map_nil, List.append_nil]
          refine ⟨indices, fun index => ?_, ascending, kept, counted⟩
          rw [repeatsKey_concat_iff, mem_indices_iff, or_iff_left]
          rintro ⟨-, other, member, same⟩
          exact fresh other member same
      | some first =>
          have same : key first = key last := by simpa using List.find?_some isFirst
          have member := List.mem_of_find?_eq_some isFirst
          rw [isFirst] at counted
          refine ⟨indices ++ [elements.length], fun index => ?_, ?_, ?_, counted⟩
          · rw [repeatsKey_concat_iff, List.mem_append, mem_indices_iff, List.mem_singleton,
              and_iff_left ⟨first, member, same⟩]
          · refine List.pairwise_append.2 ⟨ascending, List.pairwise_singleton _ _, ?_⟩
            intro index isIndex bound isBound
            rw [List.mem_singleton.1 isBound]
            exact ((mem_indices_iff index).1 isIndex).lt_length
          · refine List.rel_append kept (.cons ⟨last, first, ?_, ?_, rfl⟩ .nil)
            · exact List.getElem?_concat_length
            · rw [List.find?_append, isFirst, Option.some_or]

end Keys

/-! ## The maps of a value -/

namespace Value

/-- In a value, another one stands at an address: the index of each item and entry on the way. -/
inductive Holds : Value → List Nat → Value → Prop
  | here (value : Value) : value.Holds [] value
  | item {items : List Value} {index : Nat} {item : Value} {address : List Nat} {inner : Value}
      (found : items[index]? = some item) (inside : item.Holds address inner) :
      (Value.list items).Holds (index :: address) inner
  | entry {entries : List (Entry Value)} {index : Nat} {entry : Entry Value} {address : List Nat}
      {inner : Value} (found : entries[index]? = some entry)
      (inside : entry.value.Holds address inner) :
      (Value.map entries).Holds (index :: address) inner

/-- The entries of a map and its address. -/
structure MapPlace where
  address : List Nat
  entries : List (Entry Value)
deriving DecidableEq, Repr

/-- The place of a map, seen from the list or map that has it at an index. -/
def MapPlace.below (index : Nat) (place : MapPlace) : MapPlace :=
  { place with address := index :: place.address }

mutual

/-- The places of all maps in a value, a map before those in its values. -/
def mapPlaces : Value → List MapPlace
  | .scalar _ => []
  | .list items => mapPlacesOfItems 0 items
  | .map entries => { address := [], entries := entries } :: mapPlacesOfEntries 0 entries

/-- The places of all maps in the items of a list, the first of which has the given index. -/
def mapPlacesOfItems (index : Nat) : List Value → List MapPlace
  | [] => []
  | item :: items =>
    item.mapPlaces.map (MapPlace.below index) ++ mapPlacesOfItems (index + 1) items

/-- The places of all maps in the values of a map, the first of which has the given index. -/
def mapPlacesOfEntries (index : Nat) : List (Entry Value) → List MapPlace
  | [] => []
  | ⟨_, value, _⟩ :: entries =>
    value.mapPlaces.map (MapPlace.below index) ++ mapPlacesOfEntries (index + 1) entries

end

/-- The values of a map are its items as far as places go. -/
theorem mapPlacesOfEntries_eq (index : Nat) (entries : List (Entry Value)) :
    mapPlacesOfEntries index entries = mapPlacesOfItems index (entries.map (·.value)) := by
  induction entries generalizing index with
  | nil => rfl
  | cons entry entries inductionHypothesis =>
      rw [mapPlacesOfEntries, inductionHypothesis, List.map_cons, mapPlacesOfItems]

theorem mem_mapPlacesOfItems_iff {first : Nat} {items : List Value} {place : MapPlace} :
    place ∈ mapPlacesOfItems first items ↔
      ∃ (index : Nat) (item : Value) (inner : MapPlace), items[index]? = some item ∧
        inner ∈ item.mapPlaces ∧ place = inner.below (first + index) := by
  induction items generalizing first with
  | nil => simp [mapPlacesOfItems]
  | cons item items inductionHypothesis =>
      rw [mapPlacesOfItems, List.mem_append, inductionHypothesis, List.mem_map]
      constructor
      · rintro (⟨inner, inside, rfl⟩ | ⟨index, other, inner, found, inside, rfl⟩)
        · exact ⟨0, item, inner, rfl, inside, rfl⟩
        · exact ⟨index + 1, other, inner, found, inside, by rw [Nat.add_right_comm]; rfl⟩
      · rintro ⟨index, other, inner, found, inside, rfl⟩
        cases index with
        | zero =>
            cases found
            exact .inl ⟨inner, inside, rfl⟩
        | succ index =>
            exact .inr ⟨index, other, inner, found, inside, by rw [Nat.add_right_comm]; rfl⟩

/-- The places of maps are where maps stand. -/
theorem mem_mapPlaces_iff (value : Value) (place : MapPlace) :
    place ∈ value.mapPlaces ↔ value.Holds place.address (.map place.entries) := by
  induction value using Value.induction generalizing place with
  | scalar scalar =>
      rw [mapPlaces]
      constructor
      · intro member
        cases member
      · obtain ⟨address, entries⟩ := place
        intro holds
        cases holds
  | list items inductionHypothesis =>
      rw [mapPlaces, mem_mapPlacesOfItems_iff]
      constructor
      · rintro ⟨index, item, inner, found, inside, rfl⟩
        have holds := (inductionHypothesis item (List.mem_of_getElem? found) inner).1 inside
        rw [Nat.zero_add]
        exact .item found holds
      · obtain ⟨address, entries⟩ := place
        intro holds
        cases holds with
        | @item _ index item rest _ found inside =>
            have member := (inductionHypothesis item (List.mem_of_getElem? found)
              { address := rest, entries := entries }).2 inside
            exact ⟨index, item, _, found, member, by rw [Nat.zero_add]; rfl⟩
  | map others inductionHypothesis =>
      rw [mapPlaces, mapPlacesOfEntries_eq, List.mem_cons, mem_mapPlacesOfItems_iff]
      constructor
      · rintro (rfl | ⟨index, item, inner, found, inside, rfl⟩)
        · exact .here _
        · rw [List.getElem?_map] at found
          obtain ⟨entry, isEntry, rfl⟩ := Option.map_eq_some_iff.1 found
          have holds := (inductionHypothesis entry (List.mem_of_getElem? isEntry) inner).1 inside
          rw [Nat.zero_add]
          exact .entry isEntry holds
      · obtain ⟨address, entries⟩ := place
        intro holds
        cases holds with
        | here => exact .inl rfl
        | @entry _ index entry rest _ found inside =>
            have member := (inductionHypothesis entry (List.mem_of_getElem? found)
              { address := rest, entries := entries }).2 inside
            refine .inr ⟨index, entry.value, _, ?_, member, by rw [Nat.zero_add]; rfl⟩
            rw [List.getElem?_map, found, Option.map_some]

/-- The maps of values beside each other come in the order of their addresses. -/
theorem pairwise_mapPlacesOfItems {first : Nat} {items : List Value}
    (inside : ∀ item ∈ items, item.mapPlaces.Pairwise (·.address < ·.address)) :
    (mapPlacesOfItems first items).Pairwise (·.address < ·.address) := by
  induction items generalizing first with
  | nil => exact .nil
  | cons item items inductionHypothesis =>
      rw [mapPlacesOfItems]
      refine List.pairwise_append.2 ⟨?_, inductionHypothesis fun other member =>
        inside other (List.mem_cons_of_mem item member), ?_⟩
      · refine List.Pairwise.map _ (fun left right before => ?_) (inside item List.mem_cons_self)
        exact List.cons_lt_cons_iff.2 (.inr ⟨rfl, before⟩)
      · intro left leftMember right rightMember
        obtain ⟨leftInner, -, rfl⟩ := List.mem_map.1 leftMember
        obtain ⟨index, other, rightInner, -, -, rfl⟩ := mem_mapPlacesOfItems_iff.1 rightMember
        exact List.cons_lt_cons_iff.2 (.inl (by omega))

/-- The maps of a value come in the order of their addresses. -/
theorem pairwise_mapPlaces (value : Value) :
    value.mapPlaces.Pairwise (·.address < ·.address) := by
  induction value using Value.induction with
  | scalar scalar => exact .nil
  | list items inductionHypothesis => exact pairwise_mapPlacesOfItems inductionHypothesis
  | map entries inductionHypothesis =>
      rw [mapPlaces, mapPlacesOfEntries_eq]
      refine List.pairwise_cons.2 ⟨fun place member => ?_, pairwise_mapPlacesOfItems ?_⟩
      · obtain ⟨index, item, inner, -, -, rfl⟩ := mem_mapPlacesOfItems_iff.1 member
        exact List.nil_lt_cons _ _
      · simpa using inductionHypothesis

/-- The maps of a value are those at its places. -/
theorem map_entries_mapPlaces (value : Value) :
    value.mapPlaces.map (·.entries) = value.maps := by
  have ofItems (first : Nat) (items : List Value)
      (inside : ∀ item ∈ items, item.mapPlaces.map (·.entries) = item.maps) :
      (mapPlacesOfItems first items).map (·.entries) = mapsOfItems items := by
    induction items generalizing first with
    | nil => rfl
    | cons item items inductionHypothesis =>
        rw [mapPlacesOfItems, mapsOfItems, List.map_append, List.map_map,
          inductionHypothesis _ fun other member => inside other (List.mem_cons_of_mem item member),
          ← inside item List.mem_cons_self]
        rfl
  induction value using Value.induction with
  | scalar scalar => rfl
  | list items inductionHypothesis => exact ofItems 0 items inductionHypothesis
  | map entries inductionHypothesis =>
      rw [mapPlaces, mapPlacesOfEntries_eq, List.map_cons, maps,
        ofItems 0 _ (by simpa using inductionHypothesis), mapsOfItems_eq_flatMap,
        mapsOfEntries_eq_flatMap, List.flatMap_map]

end Value

/-! ## The rules -/

/-- The report that something has been defined before. -/
def redefinition (rule what name : String) (here first : Position) : Diagnostic where
  severity := .error
  rule := rule
  message := "duplicate " ++ what ++ " " ++ backquoted name ++ ", first defined at " ++
    first.lineColumn
  position := here
  related := [first]

/-- The report about an attribute whose key an earlier one has. -/
def Attribute.redefinition (attr first : Attribute) : Diagnostic :=
  ServiceDef.redefinition "duplicate-attribute" "attribute" attr.key attr.position first.position

/-- The report about a map entry whose key an earlier one has. -/
def Entry.redefinition (entry first : Entry Value) : Diagnostic :=
  ServiceDef.redefinition "duplicate-key" "map key" entry.key entry.position first.position

/-- The method and the target of an action. -/
def Action.route (action : Action) : String × String :=
  (action.method, action.target)

/-- The report about an action whose method and target an earlier one has. -/
def Action.redefinition (action first : Action) : Diagnostic :=
  ServiceDef.redefinition "duplicate-action" "action" (action.method ++ " " ++ action.target)
    action.position first.position

/-- Repeated keys are reported at every repeat, against the first element that has the key. The
blocks of a document are taken in the order of their addresses, and so are the maps in the value of
an attribute: each of them once. In each list of attributes, of actions and of map entries exactly
those elements are reported that have the key of an earlier element of the same list. -/
theorem redefinitions_reported (document : Document) :
    (document.places.Pairwise (·.address < ·.address) ∧
      ∀ place, place ∈ document.places ↔
        document.Stands place.address place.around place.block) ∧
    (∀ value : Value, value.mapPlaces.Pairwise (·.address < ·.address) ∧
      ∀ place, place ∈ value.mapPlaces ↔ value.Holds place.address (.map place.entries)) ∧
    (Rule.checkOf .duplicateAttribute document =
        document.places.flatMap (fun place =>
          redefinitions Attribute.key Attribute.redefinition place.block.attributes) ∧
      ∀ attributes, ∃ indices, RepeatReports Attribute.key Attribute.redefinition attributes indices
        (redefinitions Attribute.key Attribute.redefinition attributes)) ∧
    (Rule.checkOf .duplicateAction document =
        document.places.flatMap (fun place =>
          redefinitions Action.route Action.redefinition place.block.actions) ∧
      ∀ actions, ∃ indices, RepeatReports Action.route Action.redefinition actions indices
        (redefinitions Action.route Action.redefinition actions)) ∧
    Rule.checkOf .duplicateKey document =
        document.places.flatMap (fun place => place.block.attributes.flatMap fun attr =>
          attr.value.mapPlaces.flatMap fun map =>
            redefinitions Entry.key Entry.redefinition map.entries) ∧
      ∀ entries, ∃ indices, RepeatReports Entry.key Entry.redefinition entries indices
        (redefinitions Entry.key Entry.redefinition entries) := by
  have perPlace (check : Site → List Diagnostic) :
      Rule.perSite check document =
        document.places.flatMap fun place => check (place.site document) := by
    rw [Rule.perSite, document.sites_eq_map_places, List.flatMap_map]
  refine ⟨⟨Document.pairwise_places, Document.mem_places_iff⟩,
    fun value => ⟨value.pairwise_mapPlaces, value.mem_mapPlaces_iff⟩,
    ⟨perPlace _, exists_repeatReports _ _⟩, ⟨perPlace _, exists_repeatReports _ _⟩,
    (perPlace _).trans ?_, exists_repeatReports _ _⟩
  refine List.flatMap_congr fun place _ => ?_
  rw [Rule.duplicateKey, List.flatMap_assoc]
  refine List.flatMap_congr fun attr _ => ?_
  rw [← Value.map_entries_mapPlaces, List.flatMap_map]
  rfl

end ServiceDef
