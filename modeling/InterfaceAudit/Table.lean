/-!
Tables from names to values that remember the order in which their names came.
-/

namespace InterfaceAudit

/-- Every name of a table stands in it once. -/
structure Table (α : Type) where
  entries : List (String × α)
  distinct : (entries.map Prod.fst).Nodup

namespace Table

variable {α : Type}

def empty : Table α := ⟨[], by simp⟩

instance : Inhabited (Table α) := ⟨empty⟩

def names (table : Table α) : List String := table.entries.map Prod.fst

def size (table : Table α) : Nat := table.entries.length

def get? (table : Table α) (name : String) : Option α :=
  (table.entries.find? fun entry => entry.1 == name).map Prod.snd

def contains (table : Table α) (name : String) : Bool :=
  table.names.contains name

/-- A name that is not in the table yet goes to its end. -/
def append (table : Table α) (name : String) (value : α) (fresh : table.contains name = false) :
    Table α where
  entries := table.entries ++ [(name, value)]
  distinct := by
    have absent : name ∉ table.entries.map Prod.fst := by
      simpa [contains, names] using fresh
    simp only [List.map_append, List.map_cons, List.map_nil]
    refine List.nodup_append.2 ⟨table.distinct, by simp, ?_⟩
    intro first firstMem second secondMem equal
    rw [List.mem_singleton] at secondMem
    exact absent (secondMem ▸ equal ▸ firstMem)

/-- The first value of a name stays. -/
def insertNew (table : Table α) (name : String) (value : α) : Table α :=
  if fresh : table.contains name = false then table.append name value fresh else table

/-- The last value of a name counts, at the place of the first. -/
def set (table : Table α) (name : String) (value : α) : Table α :=
  if fresh : table.contains name = false then table.append name value fresh
  else
    { entries := table.entries.map fun entry =>
        (entry.1, if entry.1 == name then value else entry.2)
      distinct := by simpa [List.map_map, Function.comp_def] using table.distinct }

/-- The value of a name is adjusted where it stands. -/
def adjust (table : Table α) (name : String) (change : α → α) : Table α where
  entries := table.entries.map fun entry =>
    (entry.1, if entry.1 == name then change entry.2 else entry.2)
  distinct := by simpa [List.map_map, Function.comp_def] using table.distinct

end Table

end InterfaceAudit
