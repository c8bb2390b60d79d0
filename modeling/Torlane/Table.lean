import Mathlib.Data.List.Nodup

/-!
# Tables

A table gives each of its names a list of values. It is written as entries, one for each value with
the name in front, and read by collecting the values that the entries give to a name. `Agrees` says
of such a reading that it finds the values of the table, and `agrees_flatten` that it does for the
entries of a table whose names are different, whatever other names stand behind them.

The values themselves are written by `display` and read by `read`. What is read back one by one is
read back where there is at most one of them (`readOptional_map`), and where there are several
(`mapM_read_map`). A value may also be written in part: what is left of it is `written`.
-/

namespace Table

variable {κ ν α β : Type*}

/-- The entries of a table. -/
def flatten (table : List (κ × List ν)) : List (κ × ν) :=
  table.flatMap fun (name, values) => values.map fun value => (name, value)

/-- The values that entries give to a name. -/
def valuesOf [DecidableEq κ] (entries : List (κ × ν)) (name : κ) : List ν :=
  (entries.filter (·.1 = name)).map (·.2)

/-- The entries with other names. -/
def withoutNames [DecidableEq κ] (names : List κ) (entries : List (κ × ν)) : List (κ × ν) :=
  entries.filter (·.1 ∉ names)

/-- A reading finds the values of a table. -/
def Agrees (values : κ → List ν) (table : List (κ × List ν)) : Prop :=
  ∀ row ∈ table, values row.1 = row.2

/-! ## Agreement -/

@[simp] theorem agrees_cons {values : κ → List ν} {row : κ × List ν}
    {table : List (κ × List ν)} :
    Agrees values (row :: table) ↔ values row.1 = row.2 ∧ Agrees values table :=
  List.forall_mem_cons

@[simp] theorem agrees_append {values : κ → List ν} {table table' : List (κ × List ν)} :
    Agrees values (table ++ table') ↔ Agrees values table ∧ Agrees values table' :=
  List.forall_mem_append

/-! ## Entries -/

/-- An entry of a table has one of its names. -/
theorem mem_names_of_mem_flatten {table : List (κ × List ν)} {entry : κ × ν}
    (h : entry ∈ flatten table) : entry.1 ∈ table.map (·.1) := by
  obtain ⟨row, hrow, hentry⟩ := List.mem_flatMap.mp h
  obtain ⟨value, -, rfl⟩ := List.mem_map.mp hentry
  exact List.mem_map_of_mem hrow

section

variable [DecidableEq κ]

/-- The values in two lists of entries. -/
theorem valuesOf_append (entries entries' : List (κ × ν)) (name : κ) :
    valuesOf (entries ++ entries') name = valuesOf entries name ++ valuesOf entries' name := by
  rw [valuesOf, List.filter_append, List.map_append, valuesOf, valuesOf]

/-- A name that no entry has is given no value. -/
theorem valuesOf_of_forall_ne {entries : List (κ × ν)} {name : κ}
    (h : ∀ entry ∈ entries, entry.1 ≠ name) : valuesOf entries name = [] := by
  have hnone : entries.filter (·.1 = name) = [] :=
    List.filter_eq_nil_iff.mpr fun entry hentry => by simpa using h entry hentry
  rw [valuesOf, hnone, List.map_nil]

/-- The values of one row. -/
theorem valuesOf_row (name : κ) (values : List ν) :
    valuesOf (values.map fun value => (name, value)) name = values := by
  have hall : (values.map fun value => (name, value)).filter (·.1 = name) =
      values.map fun value => (name, value) := by
    refine List.filter_eq_self.mpr fun entry hentry => ?_
    obtain ⟨value, -, rfl⟩ := List.mem_map.mp hentry
    exact decide_eq_true rfl
  rw [valuesOf, hall, List.map_map]
  exact List.map_id values

/-- The entries of a table with different names give each name its values. -/
theorem valuesOf_flatten {table : List (κ × List ν)} (h : (table.map (·.1)).Nodup) :
    Agrees (valuesOf (flatten table)) table := by
  induction table with
  | nil => exact fun row hrow => absurd hrow List.not_mem_nil
  | cons row table ih =>
    obtain ⟨name, values⟩ := row
    rw [List.map_cons, List.nodup_cons] at h
    obtain ⟨hfresh, hnodup⟩ := h
    have hentries : flatten ((name, values) :: table) =
        (values.map fun value => (name, value)) ++ flatten table := List.flatMap_cons ..
    rintro ⟨name', values'⟩ hrow
    rw [hentries, valuesOf_append]
    rcases List.mem_cons.mp hrow with heq | hmem
    · -- The name of the first row is not in the rest of the table.
      obtain ⟨rfl, rfl⟩ := Prod.mk.inj heq
      have hrest : valuesOf (flatten table) name' = [] := by
        refine valuesOf_of_forall_ne fun entry hentry heq => hfresh ?_
        rw [← heq]
        exact mem_names_of_mem_flatten hentry
      rw [hrest, List.append_nil, valuesOf_row]
    · -- The name of another row is not that of the first one.
      have hother : valuesOf (values.map fun value => (name, value)) name' = [] := by
        refine valuesOf_of_forall_ne fun entry hentry heq => hfresh ?_
        obtain ⟨value, -, rfl⟩ := List.mem_map.mp hentry
        have hname : name = name' := heq
        rw [hname]
        exact List.mem_map.mpr ⟨(name', values'), hmem, rfl⟩
      rw [hother, List.nil_append]
      exact ih hnodup (name', values') hmem

/-- Other names that stand behind a table leave its values as they are. -/
theorem agrees_flatten {table : List (κ × List ν)} {others : List (κ × ν)}
    (h : (table.map (·.1)).Nodup) (hothers : ∀ entry ∈ others, entry.1 ∉ table.map (·.1)) :
    Agrees (valuesOf (flatten table ++ others)) table := by
  intro row hrow
  have hnone : valuesOf others row.1 = [] := by
    refine valuesOf_of_forall_ne fun entry hentry heq => hothers entry hentry ?_
    rw [heq]
    exact List.mem_map_of_mem hrow
  rw [valuesOf_append, hnone, List.append_nil]
  exact valuesOf_flatten h row hrow

/-- The entries behind those of a table are the ones with other names. -/
theorem withoutNames_flatten {names : List κ} {table : List (κ × List ν)} {others : List (κ × ν)}
    (hnames : table.map (·.1) ⊆ names) (hothers : ∀ entry ∈ others, entry.1 ∉ names) :
    withoutNames names (flatten table ++ others) = others := by
  have hnone : withoutNames names (flatten table) = [] :=
    List.filter_eq_nil_iff.mpr fun entry hentry => by
      simpa using hnames (mem_names_of_mem_flatten hentry)
  have hall : withoutNames names others = others :=
    List.filter_eq_self.mpr fun entry hentry => by simpa using hothers entry hentry
  rw [withoutNames, List.filter_append]
  exact congrArg₂ (· ++ ·) hnone hall

end

/-! ## Values -/

/-- At most one value. -/
def readOptional (read : ν → Option α) : List ν → Option (Option α)
  | [] => some none
  | [value] => (read value).map some
  | _ => none

/-- An optional value is read back as far as it is `written`. -/
theorem readOptional_written {read : ν → Option β} {display : α → ν} {written : α → β}
    {value : Option α} (h : ∀ a ∈ value, read (display a) = some (written a)) :
    readOptional read (value.map display).toList = some (value.map written) := by
  cases value with
  | none => rfl
  | some a =>
    show (read (display a)).map some = some (some (written a))
    rw [h a rfl, Option.map_some]

/-- An optional value is read back. -/
theorem readOptional_map {read : ν → Option α} {display : α → ν} {value : Option α}
    (h : ∀ a ∈ value, read (display a) = some a) :
    readOptional read (value.map display).toList = some value := by
  have hread := @readOptional_written ν α α read display id value h
  rwa [Option.map_id, id] at hread

/-- Several values are read back as far as they are `written`. -/
theorem mapM_read_written {read : ν → Option β} {display : α → ν} {written : α → β}
    {items : List α} (h : ∀ a ∈ items, read (display a) = some (written a)) :
    (items.map display).mapM read = some (items.map written) := by
  induction items with
  | nil => rfl
  | cons a items ih =>
    obtain ⟨ha, hitems⟩ := List.forall_mem_cons.mp h
    rw [List.map_cons, List.mapM_cons, ha, ih hitems]
    rfl

/-- Several values are read back. -/
theorem mapM_read_map {read : ν → Option α} {display : α → ν} {items : List α}
    (h : ∀ a ∈ items, read (display a) = some a) :
    (items.map display).mapM read = some items := by
  have hread := @mapM_read_written ν α α read display id items h
  rwa [List.map_id] at hread

end Table
