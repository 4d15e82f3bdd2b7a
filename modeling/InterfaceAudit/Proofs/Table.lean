import InterfaceAudit.Symbols
import Mathlib.Data.List.Basic
import Mathlib.Data.List.Induction

/-!
Tables of symbols under the changes that the readers of artifacts make.
-/

namespace InterfaceAudit

/-- A fold whose steps keep what is known, and else learn from their items, knows the first
finding. -/
theorem foldl_finds_first {State Item Value : Type} {step : State → Item → State}
    {found : Item → Option Value} (known : State → Option Value)
    (learns : ∀ state item, known (step state item) = (known state).or (found item))
    (state : State) (items : List Item) :
    known (items.foldl step state) = (known state).or (items.findSome? found) := by
  induction items generalizing state with
  | nil => simp
  | cons item items inductionHypothesis =>
    rw [List.foldl_cons, inductionHypothesis, learns, List.findSome?_cons, Option.or_assoc]
    cases found item <;> simp

/-- The finding is the value of the first item that passes a test. -/
theorem findSome?_tested {Item Value : Type} (test : Item → Bool) (value : Item → Value)
    (items : List Item) :
    (items.findSome? fun item => if test item then some (value item) else none) =
      (items.find? test).map value := by
  induction items with
  | nil => rfl
  | cons item items inductionHypothesis =>
    rw [List.findSome?_cons, List.find?_cons, inductionHypothesis]
    cases test item <;> rfl

/-- A fold whose steps put new names behind the listed ones lists the names in the order in which
they come first. -/
theorem foldl_lists_first {State Item : Type} {step : State → Item → State}
    {named : Item → Option String} (listed : State → List String)
    (lists : ∀ state item, listed (step state item) = match named item with
      | some name => if name ∈ listed state then listed state else listed state ++ [name]
      | none => listed state)
    {state : State} (nothing : listed state = []) (items : List Item) :
    listed (items.foldl step state) = (items.filterMap named).eraseDups := by
  induction items using List.reverseRecOn with
  | nil => exact nothing
  | append_singleton items item inductionHypothesis =>
    rw [List.foldl_concat, lists, inductionHypothesis, List.filterMap_append,
      List.eraseDups_append]
    generalize items.filterMap named = names
    cases found : named item with
    | none => simp [found, List.removeAll]
    | some name =>
      by_cases known : name ∈ names <;>
        simp [found, List.removeAll, List.eraseDups_cons, known]

namespace Table

variable {α : Type}

/-- A table contains the names that it has values for. -/
theorem contains_eq_isSome (table : Table α) (name : String) :
    table.contains name = (table.get? name).isSome := by
  rw [Bool.eq_iff_iff]
  simp [contains, names, get?]

/-- An inserted value is found where no other value stands under its name. -/
theorem get?_insertNew (table : Table α) (name other : String) (value : α) :
    (table.insertNew name value).get? other =
      (table.get? other).or (if name = other then some value else none) := by
  unfold insertNew
  split
  · next fresh =>
    simp only [append, get?, List.find?_append, List.find?_singleton, beq_iff_eq, Option.map_or]
    split <;> rfl
  · next known =>
    rw [Bool.not_eq_false, contains_eq_isSome] at known
    split
    · next same =>
      obtain ⟨present, found⟩ := Option.isSome_iff_exists.mp (same ▸ known)
      rw [found, Option.some_or]
    · rw [Option.or_none]

/-- Adjusting a value changes no other one. -/
theorem get?_adjust (table : Table α) (name other : String) (change : α → α) :
    (table.adjust name change).get? other =
      (table.get? other).map fun value => if other = name then change value else value := by
  simp only [adjust, get?, List.find?_map, Option.map_map, Function.comp_def]
  cases found : table.entries.find? fun entry => entry.1 == other with
  | none => rfl
  | some entry =>
    have sameName : entry.1 = other := by simpa using List.find?_some found
    simp only [Option.map_some, sameName, beq_iff_eq]

/-- A value of a table after an insertion was there before or is the inserted one. -/
theorem get?_of_insertNew {table : Table α} {name other : String} {value found : α}
    (isFound : (table.insertNew name value).get? other = some found) :
    table.get? other = some found ∨ found = value := by
  rw [get?_insertNew, Option.or_eq_some_iff] at isFound
  rcases isFound with known | ⟨-, new⟩
  · exact .inl known
  · rw [Option.ite_none_right_eq_some] at new
    exact .inr (Option.some.inj new.2).symm

/-- A value of a table after an adjustment was there before, as it is or unadjusted. -/
theorem get?_of_adjust {table : Table α} {name other : String} {change : α → α} {found : α}
    (isFound : (table.adjust name change).get? other = some found) :
    ∃ value, table.get? other = some value ∧ (found = value ∨ found = change value) := by
  rw [get?_adjust, Option.map_eq_some_iff] at isFound
  obtain ⟨value, known, adjusted⟩ := isFound
  refine ⟨value, known, ?_⟩
  split at adjusted
  · exact .inr adjusted.symm
  · exact .inl adjusted.symm

/-! ### Values in their order of arrival -/

/-- Values are put into an empty table from left to right. -/
def ofEntries (entries : List (String × α)) : Table α :=
  entries.foldl (fun table entry => table.set entry.1 entry.2) .empty

theorem ofEntries_concat (entries : List (String × α)) (entry : String × α) :
    ofEntries (entries ++ [entry]) = (ofEntries entries).set entry.1 entry.2 :=
  List.foldl_concat ..

/-- Setting a value adds its name at the end, if it is new. -/
theorem names_set (table : Table α) (name : String) (value : α) :
    (table.set name value).names =
      if name ∈ table.names then table.names else table.names ++ [name] := by
  by_cases known : name ∈ table.names
  · have contained : table.contains name = true := List.contains_iff_mem.mpr known
    rw [if_pos known]
    simp [set, contained, names, Function.comp_def]
  · have fresh : table.contains name = false := by simpa [contains] using known
    rw [set, dif_pos fresh, if_neg known]
    simp [append, names]

/-- Inserting a value adds its name at the end, if it is new. -/
theorem names_insertNew (table : Table α) (name : String) (value : α) :
    (table.insertNew name value).names =
      if name ∈ table.names then table.names else table.names ++ [name] := by
  by_cases known : name ∈ table.names
  · have contained : table.contains name = true := List.contains_iff_mem.mpr known
    simp [insertNew, contained, known]
  · have fresh : table.contains name = false := by simpa [contains] using known
    rw [insertNew, dif_pos fresh, if_neg known]
    simp [append, names]

/-- The value that is put in is found under its name, and the other values stay. -/
theorem get?_set (table : Table α) (name other : String) (value : α) :
    (table.set name value).get? other = if name = other then some value else table.get? other := by
  unfold set
  split
  · next fresh =>
    have absent : table.get? name = none := by simpa [contains_eq_isSome] using fresh
    simp only [append, get?, List.find?_append, List.find?_singleton, beq_iff_eq, Option.map_or]
    rw [← get?]
    split
    · next same => simp [← same, absent]
    · simp
  · next known =>
    rw [Bool.not_eq_false, contains_eq_isSome] at known
    change (table.adjust name fun _ => value).get? other = _
    rw [get?_adjust]
    by_cases same : name = other
    · obtain ⟨present, found⟩ := Option.isSome_iff_exists.mp (same ▸ known)
      simp [same, found]
    · simp [same, Ne.symm same]

/-- A repeated name keeps its first place. -/
theorem names_ofEntries (entries : List (String × α)) :
    (ofEntries entries).names = (entries.map Prod.fst).eraseDups := by
  rw [← List.filterMap_eq_map]
  exact foldl_lists_first names (fun table entry => names_set table entry.1 entry.2) rfl entries

/-- A repeated name keeps its last value. -/
theorem get?_ofEntries (entries : List (String × α)) (name : String) :
    (ofEntries entries).get? name =
      (entries.reverse.find? fun entry => entry.1 == name).map Prod.snd := by
  induction entries using List.reverseRecOn with
  | nil => rfl
  | append_singleton entries entry inductionHypothesis =>
    rw [ofEntries_concat, get?_set, inductionHypothesis, List.reverse_append,
      List.reverse_singleton, List.singleton_append]
    by_cases same : entry.1 = name
    · rw [if_pos same, List.find?_cons_of_pos (by simpa using same), Option.map_some]
    · rw [if_neg same, List.find?_cons_of_neg (by simpa using same)]

/-! ### First values -/

/-- The entries of a first table stay, and entries of a second one with other names follow. -/
def union (first second : Table α) : Table α where
  entries := first.entries ++ second.entries.filter fun entry => !first.contains entry.1
  distinct := by
    rw [List.map_append]
    refine List.nodup_append.mpr ⟨first.distinct,
      second.distinct.sublist (List.filter_sublist.map Prod.fst), ?_⟩
    intro name known other added same
    obtain ⟨entry, member, rfl⟩ := List.mem_map.mp added
    have fresh : entry.1 ∉ first.entries.map Prod.fst := by
      simpa [contains, names] using (List.mem_filter.mp member).2
    exact fresh (same ▸ known)

/-- Every value of a table is replaced by what is made of it. -/
def map {β : Type} (change : α → β) (table : Table α) : Table β where
  entries := table.entries.map fun entry => (entry.1, change entry.2)
  distinct := by simpa [List.map_map, Function.comp_def] using table.distinct

/-- Changing the values may be done before or after one is set. -/
theorem map_set {β : Type} (change : α → β) (table : Table α) (name : String) (value : α) :
    (table.set name value).map change = (table.map change).set name (change value) := by
  have sameNames : (table.map change).names = table.names := by simp [names, map]
  have sameContains : (table.map change).contains name = table.contains name := by
    rw [contains, contains, sameNames]
  unfold set
  by_cases fresh : table.contains name = false
  · rw [dif_pos fresh, dif_pos (sameContains.trans fresh)]
    simp [map, append]
  · rw [dif_neg fresh, dif_neg (sameContains ▸ fresh)]
    simp only [map, List.map_map, Table.mk.injEq]
    refine List.map_congr_left fun entry _ => ?_
    simp only [Function.comp_apply, apply_ite change]

end Table

end InterfaceAudit
