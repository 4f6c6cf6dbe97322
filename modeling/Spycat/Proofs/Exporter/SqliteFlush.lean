import Mathlib.Data.List.Perm.Basic
import Spycat.Exporter.Sqlite
import Spycat.Proofs.Exporter.Batching

/-! The local database gets every item of every batch once, in the table of the item's own type. -/

namespace Spycat.Sqlite

open Lib

/-- The items of a batch that belong to a table. -/
def ofTable (table : String) (batch : List Item) : List Item :=
  batch.filter fun val => val.tableName = table

/-- The tables in the order in which a flush goes through them. -/
def tables : List String := ["OFFCPU", "ONCPU", "SYSCALL", "CACHESTAT", "FUTEXSNOOP"]

/-- Where the assertion holds for all rows of a table, none of them is left out. -/
theorem gather_ofTable {ρ : Type} {table : String} {assertion : Item → Option ρ} {item : ρ → Item}
    (holds : ∀ val, val.tableName = table → (assertion val).map item = some val)
    (batch : List Item) : (gather table assertion batch).map item = ofTable table batch := by
  -- The induction follows the batch.
  induction batch with
  | nil => rfl
  | cons val rest ih =>
    by_cases belongs : val.tableName = table
    · obtain ⟨row, asserted, same⟩ := Option.map_eq_some_iff.mp (holds val belongs)
      simp only [gather, ofTable] at ih ⊢
      simp [belongs, asserted, same, ih]
    · simp only [gather, ofTable] at ih ⊢
      simp [belongs, ih]

/-- The rows handed over for a table, unless there are none. -/
def created (table : String) (batch : List Item) : List CreateInBatches :=
  create table id (ofTable table batch)

theorem create_gather {ρ : Type} {table : String} {assertion : Item → Option ρ} {item : ρ → Item}
    (holds : ∀ val, val.tableName = table → (assertion val).map item = some val)
    (batch : List Item) :
    create table item (gather table assertion batch) = created table batch := by
  -- The rows that pass the assertion are those of the table, so there are as many.
  have rows := gather_ofTable holds batch
  have count : (gather table assertion batch).length = (ofTable table batch).length := by
    rw [← rows, List.length_map]
  simp only [created, create, rows, count, List.map_id]

/-- A flush hands over the items of each table. -/
theorem flush_eq (batch : List Item) :
    flush batch = tables.flatMap fun table => created table batch := by
  -- The name of a row's table decides the assertion that holds for it.
  have offcpu : ∀ val : Item, val.tableName = "OFFCPU" →
      val.asOFFCPU.map .offcpu = some val := by
    intro val name
    cases val <;> simp [Item.tableName, Item.asOFFCPU] at name ⊢
  have oncpu : ∀ val : Item, val.tableName = "ONCPU" → val.asONCPU.map .oncpu = some val := by
    intro val name
    cases val <;> simp [Item.tableName, Item.asONCPU] at name ⊢
  have syscall : ∀ val : Item, val.tableName = "SYSCALL" →
      val.asSYSCALL.map .syscall = some val := by
    intro val name
    cases val <;> simp [Item.tableName, Item.asSYSCALL] at name ⊢
  have cachestat : ∀ val : Item, val.tableName = "CACHESTAT" →
      val.asCACHESTAT.map .cachestat = some val := by
    intro val name
    cases val <;> simp [Item.tableName, Item.asCACHESTAT] at name ⊢
  have futexsnoop : ∀ val : Item, val.tableName = "FUTEXSNOOP" →
      val.asFUTEXSNOOP.map .futexsnoop = some val := by
    intro val name
    cases val <;> simp [Item.tableName, Item.asFUTEXSNOOP] at name ⊢
  simp only [flush, create_gather offcpu, create_gather oncpu, create_gather syscall,
    create_gather cachestat, create_gather futexsnoop, tables, List.flatMap_cons, List.flatMap_nil,
    List.append_nil, List.append_assoc]

/-- Every row belongs to one of the tables that a flush goes through. -/
theorem tableName_mem (val : Item) : val.tableName ∈ tables := by
  -- There is a table for every kind of row.
  cases val <;> simp [Item.tableName, tables]

theorem rows_created (table : String) (batch : List Item) :
    (created table batch).flatMap (·.rows) = ofTable table batch := by
  -- One call takes all rows of the table, and without rows there is no call.
  simp only [created, create]
  split
  · simp
  · rename_i none
    simpa using (List.length_eq_zero_iff.mp (by omega : (ofTable table batch).length = 0)).symm

/-- What is created for one table is found under the name of that table alone. -/
theorem filter_created (table other : String) (batch : List Item) :
    (created other batch).filter (·.table = table) =
      if other = table then created other batch else [] := by
  -- All calls are for the same table.
  simp only [created, create]
  split
  · by_cases same : other = table <;> simp [same]
  · simp

/-- The rows that a flush hands over for a table are the items of the table, in their order. -/
theorem flush_table (batch : List Item) (table : String) :
    ((flush batch).filter (·.table = table)).flatMap (·.rows) = ofTable table batch := by
  rw [flush_eq, List.filter_flatMap]
  simp only [filter_created, List.flatMap_assoc]
  -- At most one of the tables has the name that is asked for.
  by_cases known : table ∈ tables
  · simp only [tables, List.mem_cons, List.not_mem_nil, or_false] at known
    rcases known with rfl | rfl | rfl | rfl | rfl <;> simp [tables, rows_created]
  · have none : ofTable table batch = [] := by
      refine List.filter_eq_nil_iff.mpr fun val _ => ?_
      intro same
      exact known (of_decide_eq_true same ▸ tableName_mem val)
    rw [none]
    refine List.flatMap_eq_nil_iff.mpr fun other member => ?_
    have differs : other ≠ table := by
      rintro rfl
      exact known member
    simp [differs]

/-- A flush hands every item over exactly once. -/
theorem flush_perm (batch : List Item) : ((flush batch).flatMap (·.rows)).Perm batch := by
  rw [flush_eq, List.flatMap_assoc]
  simp only [rows_created]
  -- The induction follows the batch, whose first item goes to its own table.
  induction batch with
  | nil => simp [ofTable]
  | cons val rest ih =>
    have split : ∀ table, ofTable table (val :: rest) =
        (if val.tableName = table then [val] else []) ++ ofTable table rest := by
      intro table
      by_cases same : val.tableName = table <;> simp [ofTable, same]
    have one : (tables.flatMap fun table => if val.tableName = table then [val] else []) =
        [val] := by
      cases val <;> simp [tables, Item.tableName]
    simp only [split]
    refine (List.flatMap_append_perm tables _ _).symm.trans ?_
    rw [one]
    exact ih.cons val

/-- The rows that a flush hands over belong to the table they are handed over for. -/
theorem flush_own (batch : List Item) {call : CreateInBatches} (member : call ∈ flush batch)
    {row : Item} (inside : row ∈ call.rows) : row.tableName = call.table := by
  -- A call is made of the rows that were picked by their table.
  rw [flush_eq] at member
  obtain ⟨table, _, made⟩ := List.mem_flatMap.mp member
  simp only [created, create] at made
  split at made
  · simp only [List.map_id, List.mem_singleton] at made
    subst made
    exact of_decide_eq_true (List.mem_filter.mp inside).2
  · simp at made

/--
At every iteration of the loop the counter, the batch and the batches flushed so far agree.

A batch that is flushed into the local database reaches its tables item by item, each once and in
the order of the batch.
-/
theorem batches_conserve (limit : Int) (nonneg : 0 ≤ limit) :
    (∀ (ι : Type) (kind : BatchingKind) (actions : List (BatchingAction ι))
        (s : BatchingExporter ι),
      run (BatchingExporter.step kind) (BatchingExporter.new limit) actions = some s →
      (s.quit = false → s.running = true) ∧
      (s.running = true → s.size = s.batch.length ∧ s.size ≤ limit ∧ [] ∉ s.flushed ∧
        s.flushed.flatten ++ s.batch = s.received ∧
        s.received ++ s.datas = queuedItems actions)) ∧
    ∀ batch : List Item,
      ((flush batch).flatMap (·.rows)).Perm batch ∧
      (∀ call ∈ flush batch, ∀ row ∈ call.rows, row.tableName = call.table) ∧
      ∀ table, ((flush batch).filter (·.table = table)).flatMap (·.rows) =
        batch.filter (·.tableName = table) := by
  -- The loop keeps its items, and a flush sends each to its own table.
  constructor
  · intro ι kind actions s ran
    have holds := BatchingExporter.batched_run ran
    constructor
    · intro quiet
      cases running : s.running with
      | true => rfl
      | false => exact absurd (holds.asked running) (by simp [quiet])
    · intro running
      have whole := holds.whole
      rw [running, if_pos rfl] at whole
      exact ⟨holds.counted, holds.small nonneg, holds.filled, whole, holds.queued⟩
  · intro batch
    exact ⟨flush_perm batch, fun call member row inside => flush_own batch member inside,
      flush_table batch⟩

/-- A batch of two is flushed by the second item where one item is the bound. -/
theorem batches_conserve_two_items :
    ∃ s, run (BatchingExporter.step .sqlite) (BatchingExporter.new 1)
        [.consume 'a', .consume 'b', .newItem, .newItem] = some s ∧ s.flushed = [['a', 'b']] ∧
      s.flushed.flatten ++ s.batch = s.received :=
  -- The second item makes the batch too large, so both are flushed.
  ⟨_, rfl, rfl, (((batches_conserve 1 (by decide)).1 Char .sqlite
    [.consume 'a', .consume 'b', .newItem, .newItem] _ rfl).2 rfl).2.2.2.1⟩

end Spycat.Sqlite
