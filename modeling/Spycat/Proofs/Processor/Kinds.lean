import Mathlib.Algebra.Ring.Int.Defs
import Mathlib.Data.List.Induction
import Mathlib.Data.List.Infix
import Spycat.Proofs.Processor.Conservation

/-! What a dump reports for each kind of aggregation is its value over what was recorded. -/

namespace Spycat

open Lib

/-- The value of a kind over a sequence of integers, where the kind is about integers. -/
def reference (kind : AggregatorKind) (values : List Int) : Option Int :=
  match kind with
  | .sum => some values.sum
  | .max => values.max?
  | .avg => some (values.sum.tdiv values.length)
  | .last => values.getLast?
  | .count => some values.length
  | .histogram | .other => none

/-- The sums over a sequence, of the values and of ones, are 64-bit integers. -/
structure WithinInt64 (values : List Int64) : Prop where
  low : -2 ^ 63 ≤ (values.map Int64.toInt).sum
  high : (values.map Int64.toInt).sum < 2 ^ 63
  number : values.length < 2 ^ 63

/-- A sum is the sum of the integers modulo 2^64. -/
theorem toInt_sum (values : List Int64) :
    values.sum.toInt = (values.map Int64.toInt).sum.bmod (2 ^ 64) := by
  -- Each sum is brought back into range, and that can be put off to the end.
  induction values with
  | nil => rfl
  | cons value rest ih =>
    rw [List.sum_cons, List.map_cons, List.sum_cons, Int64.toInt_add, ih, Int.add_bmod_bmod]

theorem WithinInt64.sum {values : List Int64} (within : WithinInt64 values) :
    values.sum.toInt = (values.map Int64.toInt).sum := by
  -- In range there is nothing to bring back.
  have low := within.low
  have high := within.high
  rw [toInt_sum, Int.bmod_eq_of_le (by omega) (by omega)]

theorem WithinInt64.count {values : List Int64} (within : WithinInt64 values) :
    (Int64.ofNat values.length).toInt = values.length :=
  -- The number of values is one that an int64 holds.
  Int64.toInt_ofNat_of_lt within.number

namespace AggregatedValue

/-- Take integers in one after the other. -/
def calculateAll (v : AggregatedValue) (values : List Int64) : AggregatedValue :=
  values.foldl calculate v

section Kinds

variable (values : List Int64)

theorem calculateAll_sum (held : Int64) :
    calculateAll (.sum held) values = .sum (held + values.sum) := by
  -- The induction is on the values, with whatever is held so far.
  induction values generalizing held with
  | nil => simp [calculateAll]
  | cons value rest ih =>
    rw [calculateAll, List.foldl_cons]
    exact (ih (held + value)).trans (by rw [List.sum_cons, add_assoc])

theorem calculateAll_count (held : Int64) :
    calculateAll (.count held) values = .count (held + Int64.ofNat values.length) := by
  -- Every value adds one, whatever it is.
  induction values generalizing held with
  | nil => simp [calculateAll]
  | cons value rest ih =>
    rw [calculateAll, List.foldl_cons]
    refine (ih (held + 1)).trans ?_
    rw [List.length_cons, Int64.ofNat_add, add_comm (Int64.ofNat _), ← add_assoc]
    rfl

theorem calculateAll_avg (held number : Int64) :
    calculateAll (.avg held number) values =
      .avg (held + values.sum) (number + Int64.ofNat values.length) := by
  -- The sum and the number are held apart, and divided only when they are asked for.
  induction values generalizing held number with
  | nil => simp [calculateAll]
  | cons value rest ih =>
    rw [calculateAll, List.foldl_cons]
    refine (ih (held + value) (number + 1)).trans ?_
    rw [List.sum_cons, add_assoc, List.length_cons, Int64.ofNat_add,
      add_comm (Int64.ofNat _), ← add_assoc number]
    rfl

theorem calculateAll_last (held : Int64) :
    calculateAll (.last held) values = .last (values.getLast?.getD held) := by
  -- Each value takes the place of the one before it.
  induction values generalizing held with
  | nil => rfl
  | cons value rest ih =>
    rw [calculateAll, List.foldl_cons]
    exact (ih value).trans (by rw [List.getLast?_cons]; simp)

/-- A maximum is the largest of the values and of what it started with. -/
theorem calculateAll_max (held : Int64) :
    ∃ top, calculateAll (.max held) values = .max top ∧
      ((held :: values).map Int64.toInt).max? = some top.toInt := by
  induction values generalizing held with
  | nil => exact ⟨held, rfl, rfl⟩
  | cons value rest ih =>
    obtain ⟨top, taken, largest⟩ := ih (if held < value then value else held)
    refine ⟨top, taken, ?_⟩
    -- The larger one of the two is what the others are compared with.
    have larger : (if held < value then value else held).toInt =
        Max.max held.toInt value.toInt := by
      split
      · rename_i less
        exact (max_eq_right (Int64.lt_iff_toInt_lt.mp less).le).symm
      · rename_i notLess
        exact (max_eq_left (not_lt.mp fun less => notLess (Int64.lt_iff_toInt_lt.mpr less))).symm
    rw [List.map_cons, List.max?_cons', larger] at largest
    rw [← largest, List.map_cons, List.map_cons, List.max?_cons', List.foldl_cons]

end Kinds

/-- The kinds that report integers, and a maximum that was not below zero, report their values. -/
theorem get_calculateAll {cfg : KindConfig} {values : List Int64} (within : WithinInt64 values)
    (some_ : values ≠ []) {value : Int}
    (refers : reference cfg.kind (values.map Int64.toInt) = some value) :
    ∃ v, ((AggregatedValue.new cfg).calculateAll values).get = some (.int v) ∧
      (v.toInt = value ↔ (cfg.kind = .max → ∃ one ∈ values, 0 ≤ one)) := by
  -- Only the maximum depends on the value that the aggregation starts with.
  have number := within.number
  have positive : 0 < values.length := List.length_pos_of_ne_nil some_
  have right : ∀ {kind : AggregatorKind} {v : Int64}, kind ≠ .max → v.toInt = value →
      (v.toInt = value ↔ (kind = .max → ∃ one ∈ values, 0 ≤ one)) :=
    fun other same => iff_of_true same fun max => absurd max other
  cases kind : cfg.kind with
  | sum =>
    rw [kind, reference, Option.some.injEq] at refers
    have made : AggregatedValue.new cfg = .sum 0 := by rw [AggregatedValue.new, kind]
    refine ⟨values.sum, ?_, right (by decide) (within.sum.trans refers)⟩
    rw [made, calculateAll_sum, zero_add, get]
  | count =>
    rw [kind, reference, Option.some.injEq, List.length_map] at refers
    have made : AggregatedValue.new cfg = .count 0 := by rw [AggregatedValue.new, kind]
    refine ⟨Int64.ofNat values.length, ?_, right (by decide) (within.count.trans refers)⟩
    rw [made, calculateAll_count, zero_add, get]
  | last =>
    rw [kind, reference, List.getLast?_map, Option.map_eq_some_iff] at refers
    obtain ⟨v, last, rfl⟩ := refers
    have made : AggregatedValue.new cfg = .last 0 := by rw [AggregatedValue.new, kind]
    refine ⟨v, ?_, right (by decide) rfl⟩
    rw [made, calculateAll_last, last, Option.getD_some, get]
  | avg =>
    rw [kind, reference, Option.some.injEq, List.length_map] at refers
    have made : AggregatedValue.new cfg = .avg 0 0 := by rw [AggregatedValue.new, kind]
    have nonzero : Int64.ofNat values.length ≠ 0 := by
      intro zero
      have same := within.count
      rw [zero] at same
      simp only [Int64.toInt_zero] at same
      omega
    refine ⟨values.sum / Int64.ofNat values.length, ?_, right (by decide) ?_⟩
    · rw [made, calculateAll_avg, zero_add, zero_add, get, if_neg nonzero]
    · -- Only a division by minus one could leave the range.
      have divides : Int64.ofNat values.length ≠ -1 := by
        intro minus
        have same := within.count
        rw [minus] at same
        have one : (-1 : Int64).toInt = -1 := rfl
        omega
      rw [Int64.toInt_div_of_ne_right _ _ divides, within.sum, within.count]
      exact refers
  | max =>
    rw [kind, reference] at refers
    have made : AggregatedValue.new cfg = .max 0 := by rw [AggregatedValue.new, kind]
    obtain ⟨top, taken, largest⟩ := calculateAll_max values 0
    refine ⟨top, by rw [made, taken, get], ?_⟩
    rw [List.map_cons, List.max?_cons, refers, Option.elim_some, Option.some.injEq] at largest
    have zero : (0 : Int64).toInt = 0 := rfl
    obtain ⟨member, above⟩ := List.max?_eq_some_iff.mp refers
    obtain ⟨found, listed, rfl⟩ := List.mem_map.mp member
    -- The maximum is not below zero exactly where one of the values is not.
    constructor
    · intro same _
      exact ⟨found, listed, Int64.le_iff_toInt_le.mpr (by omega)⟩
    · intro some_
      obtain ⟨one, inside, nonneg⟩ := some_ rfl
      have below := above one.toInt (List.mem_map_of_mem inside)
      have atLeast := Int64.le_iff_toInt_le.mp nonneg
      omega
  | histogram => simp [kind, reference] at refers
  | other => simp [kind, reference] at refers

end AggregatedValue

/-- The integers that a record's metrics of one name carry. -/
def intsOf (name : String) (metrics : List Metric) : List Int64 :=
  metrics.filterMap fun metric =>
    if metric.name = name then
      match metric.data with
      | .int value => some value
      | _ => none
    else none

/-- All metrics of a name carry integers. -/
def OnlyInts (name : String) (metrics : List Metric) : Prop :=
  ∀ metric ∈ metrics, metric.name = name → ∃ value, metric.data = .int value

/-- The aggregations of a metric after integers were taken in. -/
def feedSlice (values : List Int64) (slice : List (String × AggregatedValue)) :
    List (String × AggregatedValue) :=
  slice.map fun v => (v.1, v.2.calculateAll values)

@[simp] theorem feedSlice_nil : feedSlice [] = id := by
  -- No value leaves every aggregation as it is.
  funext slice
  simp [feedSlice, AggregatedValue.calculateAll]

/-- Integers are taken in one list after the other. -/
theorem feedSlice_append (first second : List Int64) (slice : List (String × AggregatedValue)) :
    feedSlice (first ++ second) slice = feedSlice second (feedSlice first slice) := by
  -- An aggregation takes the values one after the other.
  simp [feedSlice, AggregatedValue.calculateAll]

section Entry

variable {m m' : DefaultValuesMap} {name : String} {timestamp : UInt64}

/-- Taking an integer in feeds it to all aggregations of its metric. -/
theorem calculate_int {metric : Metric} {value : Int64} (int : metric.data = .int value)
    (m : DefaultValuesMap) (timestamp : UInt64) :
    ∃ m', m.calculate metric timestamp = some m' ∧ ∀ name, m'.values.lookup name =
      (m.values.lookup name).map (feedSlice (intsOf name [metric])) := by
  -- Only the aggregations under the name of the metric are fed.
  cases stored : m.values.lookup metric.name with
  | none =>
    refine ⟨m, calculate_absent stored timestamp, fun name => ?_⟩
    by_cases same : metric.name = name
    · rw [← same, stored]
      rfl
    · simp [intsOf, same]
  | some slice =>
    have fed : (slice.mapM fun v : String × AggregatedValue =>
        (v.2.take metric.data).map fun value => (v.1, value)) = some (feedSlice [value] slice) := by
      rw [int]
      exact List.mapM_pure
    rw [calculate_present stored, fed]
    refine ⟨_, rfl, fun name => ?_⟩
    by_cases same : metric.name = name
    · subst same
      simp [stored, intsOf, int]
    · simp [intsOf, same, AList.lookup_insert_ne (Ne.symm same)]

/-- Where all metrics of a name carry integers, taking a record in feeds them. -/
theorem lookup_calculateAll {metrics : List Metric} (ints : OnlyInts name metrics)
    (calculated : m.calculateAll metrics timestamp = some m') :
    m'.values.lookup name = (m.values.lookup name).map (feedSlice (intsOf name metrics)) := by
  -- The metrics are taken in one by one, and each either feeds the name or leaves it.
  induction metrics generalizing m with
  | nil =>
    obtain rfl : m = m' := by simpa [DefaultValuesMap.calculateAll] using calculated
    simp [intsOf]
  | cons metric rest ih =>
    simp only [DefaultValuesMap.calculateAll, List.foldlM_cons] at calculated
    obtain ⟨next, first, others⟩ := Option.bind_eq_some_iff.mp calculated
    have one : next.values.lookup name =
        (m.values.lookup name).map (feedSlice (intsOf name [metric])) := by
      by_cases same : metric.name = name
      · obtain ⟨value, int⟩ := ints metric (by simp) same
        obtain ⟨fed, taken, lookups⟩ := calculate_int int m timestamp
        obtain rfl := Option.some.inj (taken.symm.trans first)
        exact lookups name
      · rw [calculate_other same first]
        simp [intsOf, same]
    have split : intsOf name (metric :: rest) = intsOf name [metric] ++ intsOf name rest := by
      simp [intsOf, ← List.filterMap_append]
    rw [ih (fun other member => ints other (by simp [member])) others, one, Option.map_map, split]
    congr 1
    funext slice
    exact (feedSlice_append _ _ slice).symm

/-- A record that carries nothing but integers is taken in. -/
theorem calculateAll_goes {metrics : List Metric}
    (ints : ∀ metric ∈ metrics, ∃ value, metric.data = .int value) (m : DefaultValuesMap)
    (timestamp : UInt64) : ∃ m', m.calculateAll metrics timestamp = some m' := by
  -- An integer is taken in by every kind of aggregation.
  induction metrics generalizing m with
  | nil => exact ⟨m, rfl⟩
  | cons metric rest ih =>
    obtain ⟨value, int⟩ := ints metric (by simp)
    obtain ⟨next, taken, _⟩ := calculate_int int m timestamp
    obtain ⟨m', others⟩ := ih (fun other member => ints other (by simp [member])) next
    refine ⟨m', ?_⟩
    simp only [DefaultValuesMap.calculateAll, List.foldlM_cons, taken]
    exact others

/-- A new entry has no aggregations for a metric that is not configured. -/
theorem lookup_new_unconfigured {kindMap : KindMap} (unconfigured : kindMap.lookup name = none)
    (metrics : List Metric) :
    (DefaultValuesMap.new metrics kindMap).values.lookup name = none := by
  -- Every metric of the record adds aggregations under its own name, if at all.
  refine List.foldlRecOn (motive := fun values : Assoc String (List (String × AggregatedValue)) =>
    values.lookup name = none) metrics _ rfl ?_
  intro values absent metric _
  cases found : kindMap.lookup metric.name with
  | none => exact absent
  | some kinds =>
    have other : name ≠ metric.name := by
      rintro rfl
      simp [unconfigured] at found
    exact (AList.lookup_insert_ne other).trans absent

end Entry

/-- What the records of an entry, from the first one on, make of it. -/
inductive EntryOf (kindMap : KindMap) : List DataBlock → Option DefaultValuesMap → Prop
  | nothing : EntryOf kindMap [] none
  | gathered {first : DataBlock} {rest : List DataBlock} {entry : DefaultValuesMap}
      (made : (first :: rest).foldlM (fun (m : DefaultValuesMap) (data : DataBlock) =>
        m.calculateAll data.metrics data.timestamp) (DefaultValuesMap.new first.metrics kindMap) =
          some entry) : EntryOf kindMap (first :: rest) (some entry)

/-- The integers that records carry for a metric. -/
def valuesOf (name : String) (records : List DataBlock) : List Int64 :=
  records.flatMap fun data => intsOf name data.metrics

/-- An entry has the aggregations that its first record asks for, fed with all its integers. -/
theorem EntryOf.lookup {kindMap : KindMap} {first : DataBlock} {rest : List DataBlock}
    {entry : DefaultValuesMap} (entryOf : EntryOf kindMap (first :: rest) (some entry))
    {name : String} (ints : ∀ data ∈ first :: rest, OnlyInts name data.metrics) :
    entry.values.lookup name =
      ((DefaultValuesMap.new first.metrics kindMap).values.lookup name).map
        (feedSlice (valuesOf name (first :: rest))) := by
  cases entryOf with
  | gathered made =>
    -- The records are taken in one after the other, whatever the entry starts with.
    have general : ∀ (records : List DataBlock) (m : DefaultValuesMap),
        (∀ data ∈ records, OnlyInts name data.metrics) →
        records.foldlM (fun (m : DefaultValuesMap) (data : DataBlock) =>
          m.calculateAll data.metrics data.timestamp) m = some entry →
        entry.values.lookup name =
          (m.values.lookup name).map (feedSlice (valuesOf name records)) := by
      intro records
      induction records with
      | nil =>
        intro m _ done
        obtain rfl : m = entry := by simpa using done
        simp [valuesOf]
      | cons data records ih =>
        intro m ints done
        rw [List.foldlM_cons] at done
        obtain ⟨next, taken, done⟩ := Option.bind_eq_some_iff.mp done
        rw [ih next (fun data member => ints data (by simp [member])) done,
          lookup_calculateAll (ints data (by simp)) taken, Option.map_map]
        congr 1
        funext slice
        exact (feedSlice_append _ _ slice).symm
    exact general _ _ ints made

/-- The records under a name and a label key that were aggregated since the last dump. -/
def recordsSince (block : String) (key : LabelKeys) (actions : List AggAction) : List DataBlock :=
  actions.foldl (fun records action =>
    match action with
    | .aggregate data selectors =>
      if data.name = block ∧ getLabelKeys selectors data.labels = key then records ++ [data]
      else records
    | .dump _ => []) []

/-- The entries of an aggregator are what the records since the last dump make of them. -/
structure Gathered (kindMap : KindMap) (past : List AggAction) (s : AggState) : Prop where
  kinds : s.aggregator.kindMap = kindMap
  recorders : ∀ other r, s.aggregator.aggregatorMap.lookup other = some r →
    r.name = other ∧ r.aggKindMap = kindMap
  entries : ∀ block key, EntryOf kindMap (recordsSince block key past)
    (s.aggregator.entry block key)

/-- An aggregator before the first call. -/
def AggState.start (kindMap : KindMap) : AggState where
  aggregator := DefaultAggregator.new kindMap
  dumped := []

section Runs

variable {kindMap : KindMap} {past : List AggAction} {s s' : AggState}

theorem gathered_start : Gathered kindMap [] (AggState.start kindMap) where
  -- Nothing was recorded yet.
  kinds := rfl
  recorders := fun other r found => by simp [AggState.start, DefaultAggregator.new] at found
  entries := fun _ _ => .nothing

/-- One more record is gathered by the one entry it belongs to. -/
theorem EntryOf.snoc {records : List DataBlock} {entry : Option DefaultValuesMap}
    (entryOf : EntryOf kindMap records entry) {data : DataBlock} {after : DefaultValuesMap}
    (taken : (entry.getD (DefaultValuesMap.new data.metrics kindMap)).calculateAll data.metrics
      data.timestamp = some after) : EntryOf kindMap (records ++ [data]) (some after) := by
  -- The record makes the entry, or is the last one of an entry that is there.
  cases entryOf with
  | nothing => exact .gathered (by simpa using taken)
  | @gathered first rest entry made =>
    have further : (first :: rest ++ [data]).foldlM
        (fun (m : DefaultValuesMap) (data : DataBlock) =>
          m.calculateAll data.metrics data.timestamp)
        (DefaultValuesMap.new first.metrics kindMap) = some after := by
      rw [List.foldlM_append, made]
      simpa using taken
    exact .gathered further

/-- Every call keeps the entries what the records make of them. -/
theorem Gathered.step (gathered : Gathered kindMap past s) {action : AggAction}
    (stepped : s.step action = some s') : Gathered kindMap (past ++ [action]) s' := by
  -- A call touches the one entry it is for, and a dump clears all of them.
  cases action with
  | aggregate data selectors =>
    obtain ⟨aggregator, aggregated, rfl⟩ := Option.map_eq_some_iff.mp stepped
    obtain ⟨kinds, recorders, ⟨after, held, taken⟩, others⟩ :=
      aggregate_entry gathered.kinds gathered.recorders aggregated
    refine ⟨kinds, recorders, fun block key => ?_⟩
    by_cases mine : data.name = block ∧ getLabelKeys selectors data.labels = key
    · obtain ⟨rfl, rfl⟩ := mine
      simp only [recordsSince, List.foldl_append, List.foldl_cons, List.foldl_nil, and_self,
        if_true, held]
      exact (gathered.entries data.name _).snoc taken
    · simp only [recordsSince, List.foldl_append, List.foldl_cons, List.foldl_nil, mine, if_false,
        others block key mine]
      exact gathered.entries block key
  | dump order =>
    obtain ⟨⟨aggregator, dumped⟩, reports, rfl⟩ := Option.map_eq_some_iff.mp stepped
    obtain ⟨kinds, kept, cleared⟩ := dump_clears reports
    refine ⟨kinds.trans gathered.kinds, fun other r found => ?_, fun block key => ?_⟩
    · obtain ⟨before, stored, rfl⟩ := kept other r found
      exact gathered.recorders other before stored
    · simp only [recordsSince, List.foldl_append, List.foldl_cons, List.foldl_nil, cleared]
      exact .nothing

theorem run_gathered {actions : List AggAction}
    (ran : run AggState.step (AggState.start kindMap) actions = some s) :
    Gathered kindMap actions s :=
  -- Every step keeps what is gathered.
  run_history (Gathered kindMap) gathered_start
    (fun _ _ _ _ gathered stepped => gathered.step stepped) ran

/-- A dumped record is made of the entry under its name and key, and every entry makes one. -/
theorem dump_entries {d d' : DefaultAggregator} {order : DumpOrder} {dumped : List Dumped}
    (named : ∀ other r, d.aggregatorMap.lookup other = some r → r.name = other)
    (reports : d.dump order = some (d', dumped)) :
    (∀ record ∈ dumped, d.entry record.name record.key = some record.entry) ∧
      ∀ block key entry, d.entry block key = some entry →
        ∃ record ∈ dumped, record.name = block ∧ record.key = key ∧ record.entry = entry := by
  -- A dump goes over all entries, and over nothing else.
  constructor
  · intro record member
    obtain ⟨block, r, key, entry, stored, held, made⟩ := dump_source reports member
    obtain ⟨metrics, _, rfl⟩ := Option.map_eq_some_iff.mp made
    -- A recorder is stored under its own name.
    obtain rfl := named block r stored
    simp only [DefaultAggregator.entry, stored, Option.bind_some, held]
  · intro block key entry found
    obtain ⟨r, record, stored, member, made⟩ := dump_covers reports found
    obtain ⟨metrics, _, rfl⟩ := Option.map_eq_some_iff.mp made
    exact ⟨_, member, named block r stored, rfl, rfl⟩

end Runs

/--
A dump reports, in one record of a name and a key, for every kind its value over a sequence.

The values of a metric stand together in the record, in the order in which they are configured.
-/
def ReportsKinds (s s' : AggState) (block : String) (key : LabelKeys) (name : String)
    (kinds : List KindConfig) (values : List Int64) : Prop :=
  ∃ dumped record slice, s'.dumped = s.dumped ++ dumped ∧ record ∈ dumped ∧ record.name = block ∧
    record.key = key ∧ record.entry.get name = some slice ∧ slice <:+: record.block.metrics ∧
      ∀ (place : Nat) cfg value, kinds[place]? = some cfg →
        reference cfg.kind (values.map Int64.toInt) = some value →
          ∃ v, slice[place]? = some { name := cfg.outputName, data := .int v } ∧ v.toInt = value

/--
The first record carries the metric, unless no kind with a reference value is configured for it;
and where a maximum is, some value is not below zero.
-/
def Foretold (name : String) (kinds : List KindConfig) (first : DataBlock)
    (values : List Int64) : Prop :=
  ∀ cfg ∈ kinds, (cfg.kind ≠ .histogram → cfg.kind ≠ .other →
      ∃ metric ∈ first.metrics, metric.name = name) ∧
    (cfg.kind = .max → ∃ one ∈ values, 0 ≤ one)

section Dump

variable {kindMap : KindMap} {kinds : List KindConfig} {name : String} {first : DataBlock}
  {rest : List DataBlock} {entry : DefaultValuesMap}

/-- Only the kinds that are about integers have a value over a sequence that is not empty. -/
theorem reference_isSome {kind : AggregatorKind} {values : List Int} (some_ : values ≠ []) :
    (∃ value, reference kind values = some value) ↔ kind ≠ .histogram ∧ kind ≠ .other := by
  -- Only a histogram, and a kind that is not known, have no reference value.
  cases kind <;> simp [reference, ← Option.isSome_iff_exists, some_]

/-- What an entry reports for a metric is right exactly where it is foretold. -/
theorem get_right_iff (entryOf : EntryOf kindMap (first :: rest) (some entry))
    (configured : kindMap.lookup name = some kinds)
    (ints : ∀ data ∈ first :: rest, OnlyInts name data.metrics)
    (within : WithinInt64 (valuesOf name (first :: rest)))
    (some_ : valuesOf name (first :: rest) ≠ []) {slice : List Metric}
    (got : entry.get name = some slice) :
    (∀ (place : Nat) cfg value, kinds[place]? = some cfg →
      reference cfg.kind ((valuesOf name (first :: rest)).map Int64.toInt) = some value →
        ∃ v, slice[place]? = some { name := cfg.outputName, data := .int v } ∧ v.toInt = value) ↔
      Foretold name kinds first (valuesOf name (first :: rest)) := by
  -- The aggregations were made from the first record, so it decides whether there are any.
  have gathered := entryOf.lookup ints
  rw [lookup_new configured] at gathered
  have ints_ : (valuesOf name (first :: rest)).map Int64.toInt ≠ [] := by simpa using some_
  generalize valuesOf name (first :: rest) = values at gathered within some_ ints_ ⊢
  by_cases carried : ∃ metric ∈ first.metrics, metric.name = name
  · have any : first.metrics.any (·.name = name) = true := by simpa using carried
    rw [if_pos any, Option.map_some] at gathered
    rw [DefaultValuesMap.get, gathered, Option.getD_some] at got
    -- Every place reports what its aggregation makes of the values.
    have placed : ∀ (place : Nat) cfg value, kinds[place]? = some cfg →
        reference cfg.kind (values.map Int64.toInt) = some value →
          ((∃ v, slice[place]? = some { name := cfg.outputName, data := .int v } ∧
              v.toInt = value) ↔ (cfg.kind = .max → ∃ one ∈ values, 0 ≤ one)) := by
      intro place cfg value located refers
      obtain ⟨v, reported, right⟩ := AggregatedValue.get_calculateAll within some_ refers
      have there := mapM_getElem? got place
      simp only [feedSlice, List.getElem?_map, located, Option.map_some, Option.bind_some,
        reported] at there
      rw [there, ← right]
      simp
    constructor
    · intro right cfg member
      refine ⟨fun _ _ => carried, fun max => ?_⟩
      obtain ⟨place, located⟩ := List.getElem?_of_mem member
      obtain ⟨value, refers⟩ := (reference_isSome ints_).mpr
        (show cfg.kind ≠ .histogram ∧ cfg.kind ≠ .other by simp [max])
      exact (placed place cfg value located refers).mp (right place cfg value located refers) max
    · intro foretold place cfg value located refers
      exact (placed place cfg value located refers).mpr
        (foretold cfg (List.mem_of_getElem? located)).2
  · -- The entry has no aggregations for the metric, so nothing is reported for it.
    have none_ : ¬ first.metrics.any (·.name = name) = true := by simpa using carried
    rw [if_neg none_, Option.map_none] at gathered
    obtain rfl : slice = [] := by
      rw [DefaultValuesMap.get, gathered] at got
      simpa using got.symm
    constructor
    · intro right cfg member
      have absent : ¬ (cfg.kind ≠ .histogram ∧ cfg.kind ≠ .other) := by
        intro both
        obtain ⟨place, located⟩ := List.getElem?_of_mem member
        obtain ⟨value, refers⟩ := (reference_isSome ints_).mpr both
        obtain ⟨v, reported, _⟩ := right place cfg value located refers
        simp at reported
      refine ⟨fun one other => absurd ⟨one, other⟩ absent, fun max => ?_⟩
      exact absurd (by simp [max]) absent
    · intro foretold place cfg value located refers
      obtain ⟨one, other⟩ := (reference_isSome ints_).mp ⟨value, refers⟩
      exact absurd ((foretold cfg (List.mem_of_getElem? located)).1 one other) carried

/-- What an entry reports for a metric stands together in its record. -/
theorem got_infix {record : Dumped} (complete : record.Complete) (name : String) :
    ∃ slice, record.entry.get name = some slice ∧ slice <:+: record.block.metrics := by
  -- The metrics of a record are those of its names, one name after the other.
  obtain ⟨_, _, names, lists, visited, mapped, flat⟩ := complete
  by_cases has : name ∈ names
  · obtain ⟨slice, member, got⟩ := mapM_mem mapped has
    exact ⟨slice, got, flat ▸ List.infix_of_mem_flatten member⟩
  · -- An entry without aggregations for the metric reports nothing for it.
    have absent : record.entry.values.lookup name = none := by
      rw [AList.lookup_eq_none, AList.mem_keys]
      exact fun member => has (visited.mem_iff.mpr member)
    exact ⟨[], by simp [DefaultValuesMap.get, absent], List.nil_infix⟩

end Dump

/--
The next dump reports, for every kind, its value over the integers that were recorded since the
last one, exactly where these values are foretold.
-/
theorem dump_reports_iff {kindMap : KindMap} {kinds : List KindConfig} {name : String}
    (configured : kindMap.lookup name = some kinds) (block : String) (key : LabelKeys)
    {actions : List AggAction} {first : DataBlock} {rest : List DataBlock}
    (recorded : recordsSince block key actions = first :: rest)
    (ints : ∀ data ∈ first :: rest, OnlyInts name data.metrics)
    (within : WithinInt64 (valuesOf name (first :: rest)))
    (some_ : valuesOf name (first :: rest) ≠ []) {order : DumpOrder} {s s' : AggState}
    (ran : run AggState.step (AggState.start kindMap) actions = some s)
    (dumped : s.step (.dump order) = some s') :
    ReportsKinds s s' block key name kinds (valuesOf name (first :: rest)) ↔
      Foretold name kinds first (valuesOf name (first :: rest)) := by
  -- The entry under the name and the key makes exactly one record.
  have gathered := run_gathered ran
  obtain ⟨⟨aggregator, made⟩, reports, rfl⟩ := Option.map_eq_some_iff.mp dumped
  obtain ⟨sources, records⟩ := dump_entries
    (fun other r found => (gathered.recorders other r found).1) reports
  have entryOf := gathered.entries block key
  rw [recorded] at entryOf
  cases held : s.aggregator.entry block key with
  | none =>
    rw [held] at entryOf
    cases entryOf
  | some entry =>
    rw [held] at entryOf
    constructor
    · rintro ⟨dumped, record, slice, appended, member, rfl, rfl, got, _, right⟩
      obtain rfl : made = dumped := List.append_cancel_left appended
      -- The record is made of the one entry under the name and the key.
      obtain rfl := Option.some.inj (held.symm.trans (sources record member))
      exact (get_right_iff entryOf configured ints within some_ got).mp right
    · intro foretold
      obtain ⟨record, member, named, keyed, rfl⟩ := records block key entry held
      obtain ⟨slice, got, inside⟩ := got_infix (dump_complete reports record member) name
      exact ⟨made, record, slice, rfl, member, named, keyed, got, inside,
        (get_right_iff entryOf configured ints within some_ got).mpr foretold⟩

/-- The calls carry nothing but integers. -/
def CarriesInts (actions : List AggAction) : Prop :=
  ∀ data selectors, .aggregate data selectors ∈ actions →
    ∀ metric ∈ data.metrics, ∃ value, metric.data = .int value

/-- How many metrics the calls carry. -/
def carriedMetrics (actions : List AggAction) : Nat :=
  (actions.map fun
    | .aggregate data _ => data.metrics.length
    | .dump _ => 0).sum

section Progress

variable {kindMap : KindMap} {block : String} {key : LabelKeys}

/-- What was recorded since the last dump was aggregated. -/
theorem aggregated_of_recorded {actions : List AggAction} {data : DataBlock}
    (recorded : data ∈ recordsSince block key actions) :
    ∃ selectors, .aggregate data selectors ∈ actions := by
  -- A dump empties the list, and a call adds at most its own record.
  induction actions using List.reverseRecOn with
  | nil => simp [recordsSince] at recorded
  | append_singleton past action ih =>
    simp only [recordsSince, List.foldl_append, List.foldl_cons, List.foldl_nil] at recorded
    cases action with
    | dump order => simp at recorded
    | aggregate other selectors =>
      -- The record is the last one, or it was there before.
      have split : data ∈ recordsSince block key past ∨ data = other := by
        simp only at recorded
        split at recorded
        · exact (List.mem_append.mp recorded).imp_right List.mem_singleton.mp
        · exact .inl recorded
      rcases split with old | rfl
      · obtain ⟨selectors, member⟩ := ih old
        exact ⟨selectors, List.mem_append_left _ member⟩
      · exact ⟨selectors, by simp⟩

/-- No more integers are recorded for a metric than metrics were carried. -/
theorem valuesOf_few (name : String) (actions : List AggAction) :
    (valuesOf name (recordsSince block key actions)).length ≤ carriedMetrics actions := by
  -- A call carries at least the metrics that it adds values for.
  induction actions using List.reverseRecOn with
  | nil => simp [recordsSince, valuesOf]
  | append_singleton past action ih =>
    simp only [recordsSince, List.foldl_append, List.foldl_cons, List.foldl_nil, carriedMetrics,
      List.map_append, List.sum_append] at ih ⊢
    cases action with
    | dump order => simp [valuesOf]
    | aggregate data selectors =>
      have few : (intsOf name data.metrics).length ≤ data.metrics.length :=
        List.length_filterMap_le _ _
      simp only [List.map_cons, List.map_nil, List.sum_cons, List.sum_nil]
      split
      · simp only [valuesOf, List.flatMap_append, List.length_append, List.flatMap_cons,
          List.flatMap_nil, List.append_nil] at ih ⊢
        omega
      · omega

/-- What an aggregation makes of integers is reported, unless it is an average over too many. -/
theorem AggregatedValue.get_goes (cfg : KindConfig) {values : List Int64} (some_ : values ≠ [])
    (few : values.length < 2 ^ 63) :
    ∃ data, ((AggregatedValue.new cfg).calculateAll values).get = some data := by
  have positive : 0 < values.length := List.length_pos_of_ne_nil some_
  -- Only an average can fail, and it fails for no values.
  have nonzero : Int64.ofNat values.length ≠ 0 := by
    intro zero
    have same := Int64.toInt_ofNat_of_lt few
    rw [zero] at same
    simp only [Int64.toInt_zero] at same
    omega
  have histogram : ∀ (values : List Int64) (held : HistogramValue),
      ∃ data, (calculateAll (.histogram held) values).get = some data := by
    intro values
    induction values with
    | nil => exact fun held => ⟨_, rfl⟩
    | cons value rest ih => exact fun held => ih (held.calculate value)
  unfold AggregatedValue.new
  cases cfg.kind with
  | sum =>
    simp only [calculateAll_sum, get]
    exact ⟨_, rfl⟩
  | count =>
    simp only [calculateAll_count, get]
    exact ⟨_, rfl⟩
  | last | other =>
    simp only [calculateAll_last, get]
    exact ⟨_, rfl⟩
  | avg =>
    simp only [calculateAll_avg, get, zero_add, if_neg nonzero]
    exact ⟨_, rfl⟩
  | max =>
    obtain ⟨top, taken, _⟩ := calculateAll_max values 0
    simp only [taken, get]
    exact ⟨_, rfl⟩
  | histogram => exact histogram values _

/-- An entry that was made of fewer than 2^63 integers reports all of its metrics. -/
theorem EntryOf.getAll_goes {records : List DataBlock} {entry : DefaultValuesMap}
    (entryOf : EntryOf kindMap records (some entry))
    (ints : ∀ data ∈ records, ∀ metric ∈ data.metrics, ∃ value, metric.data = .int value)
    (few : ∀ name, (valuesOf name records).length < 2 ^ 63) (order : RangeOrder String) :
    ∃ metrics, entry.getAll order = some metrics := by
  -- Every metric with aggregations was carried by the first record.
  obtain ⟨first, rest, rfl⟩ : ∃ first rest, records = first :: rest := by
    cases entryOf
    exact ⟨_, _, rfl⟩
  have each : ∀ name ∈ order.arrange entry.values.keys, ∃ list, entry.get name = some list := by
    intro name _
    have only : ∀ data ∈ first :: rest, OnlyInts name data.metrics :=
      fun data member metric inside _ => ints data member metric inside
    have gathered := entryOf.lookup only
    refine mapM_goes fun v member => ?_
    cases configured : kindMap.lookup name with
    | none =>
      rw [lookup_new_unconfigured configured] at gathered
      simp [gathered] at member
    | some kinds =>
      rw [lookup_new configured] at gathered
      split at gathered
      · rename_i any
        rw [gathered, Option.map_some, Option.getD_some] at member
        simp only [feedSlice, List.map_map, List.mem_map, Function.comp_apply] at member
        obtain ⟨cfg, _, rfl⟩ := member
        -- The first record carries the metric, so there is an integer to be reported.
        have some_ : valuesOf name (first :: rest) ≠ [] := by
          obtain ⟨metric, inside, named⟩ := List.any_eq_true.mp any
          obtain ⟨value, int⟩ := ints first (by simp) metric inside
          have named : metric.name = name := by simpa using named
          have listed : value ∈ valuesOf name (first :: rest) :=
            List.mem_flatMap.mpr ⟨first, by simp, List.mem_filterMap.mpr
              ⟨metric, inside, by simp [named, int]⟩⟩
          exact List.ne_nil_of_mem listed
        obtain ⟨data, reported⟩ := AggregatedValue.get_goes cfg some_ (few name)
        exact ⟨_, by rw [reported]; rfl⟩
      · simp [gathered] at member
  obtain ⟨lists, mapped⟩ := mapM_goes each
  exact ⟨lists.flatten, by rw [DefaultValuesMap.getAll, mapped]; rfl⟩

/-- A dump over fewer than 2^63 integers goes through. -/
theorem Gathered.dump_goes {actions : List AggAction} {s : AggState}
    (gathered : Gathered kindMap actions s) (ints : CarriesInts actions)
    (few : carriedMetrics actions < 2 ^ 63) (order : DumpOrder) :
    ∃ s', s.step (.dump order) = some s' := by
  -- Every recorder dumps each of its entries, and an entry can always be reported.
  have recorders : ∀ visited ∈ s.aggregator.aggregatorMap.range order.recorders,
      ∃ dumped, visited.2.dump order = some dumped := by
    rintro ⟨block, r⟩ visited
    refine mapM_goes ?_
    rintro ⟨key, entry⟩ held
    have found : s.aggregator.entry block key = some entry := by
      rw [DefaultAggregator.entry, Assoc.mem_range.mp visited]
      exact Assoc.mem_range.mp held
    have entryOf := gathered.entries block key
    rw [found] at entryOf
    obtain ⟨metrics, gotten⟩ := entryOf.getAll_goes (fun data member => by
      obtain ⟨selectors, inside⟩ := aggregated_of_recorded member
      exact ints data selectors inside)
      (fun name => Nat.lt_of_le_of_lt (valuesOf_few name actions) few)
      (order.metrics r.name key)
    exact ⟨_, by rw [ValueRecorder.dumpEntry, gotten]; rfl⟩
  obtain ⟨lists, mapped⟩ := mapM_goes recorders
  exact ⟨_, by simp only [AggState.step, DefaultAggregator.dump, mapped]; rfl⟩

/-- Calls that carry fewer than 2^63 metrics, all of them integers, go through. -/
theorem run_goes (kindMap : KindMap) {actions : List AggAction} (ints : CarriesInts actions)
    (few : carriedMetrics actions < 2 ^ 63) :
    ∃ s, run AggState.step (AggState.start kindMap) actions = some s := by
  -- The calls go through one after the other, as long as all dumps so far did.
  induction actions using List.reverseRecOn with
  | nil => exact ⟨_, rfl⟩
  | append_singleton past action ih =>
    have before : CarriesInts past := fun data selectors member =>
      ints data selectors (List.mem_append_left _ member)
    have fewer : carriedMetrics past < 2 ^ 63 := by
      simp only [carriedMetrics, List.map_append, List.sum_append] at few ⊢
      omega
    obtain ⟨s, ran⟩ := ih before fewer
    have last : ∃ s', s.step action = some s' := by
      cases action with
      | aggregate data selectors =>
        choose after calculated using fun entry : DefaultValuesMap =>
          calculateAll_goes (ints data selectors (by simp)) entry data.timestamp
        simp only [AggState.step, DefaultAggregator.aggregate, ValueRecorder.record, calculated,
          Option.map_some]
        exact ⟨_, rfl⟩
      | dump order => exact (run_gathered ran).dump_goes before fewer order
    obtain ⟨s', stepped⟩ := last
    exact ⟨s', by simp [run_append, ran, stepped]⟩

end Progress

/--
The next dump reports, for every kind, its value over the integers that were recorded since the
last one, exactly where these values are foretold; and it is reached where all metrics are integers.
-/
theorem AggState.dump_reports (kindMap : KindMap) (block : String) (key : LabelKeys)
    (name : String) (kinds : List KindConfig) (configured : kindMap.lookup name = some kinds)
    (actions : List AggAction) (order : DumpOrder) :
    (∀ first rest s s', recordsSince block key actions = first :: rest →
      (∀ data ∈ first :: rest, OnlyInts name data.metrics) →
      WithinInt64 (valuesOf name (first :: rest)) → valuesOf name (first :: rest) ≠ [] →
      run AggState.step (AggState.start kindMap) actions = some s →
      s.step (.dump order) = some s' →
        (ReportsKinds s s' block key name kinds (valuesOf name (first :: rest)) ↔
          Foretold name kinds first (valuesOf name (first :: rest)))) ∧
      (CarriesInts actions → carriedMetrics actions < 2 ^ 63 →
        ∃ s s', run AggState.step (AggState.start kindMap) actions = some s ∧
          s.step (.dump order) = some s') := by
  -- What is reported, and that there is a report, are shown apart.
  constructor
  · intro first rest s s' recorded ints within some_ ran dumped
    exact dump_reports_iff configured block key recorded ints within some_ ran dumped
  · intro ints few
    obtain ⟨s, ran⟩ := run_goes kindMap ints few
    obtain ⟨s', dumped⟩ := (run_gathered ran).dump_goes ints few order
    exact ⟨s, s', ran, dumped⟩

/-- One metric with every kind that is about integers. -/
def fiveKinds : List KindConfig :=
  [⟨"a_max", .max, []⟩, ⟨"a_avg", .avg, []⟩, ⟨"a_last", .last, []⟩, ⟨"a_sum", .sum, []⟩,
    ⟨"a_count", .count, []⟩]

/-- An aggregator that keeps the five kinds. -/
def fiveStart : AggState := AggState.start ((∅ : KindMap).insert "a" fiveKinds)

/-- A record with one integer. -/
def oneInt (name : String) (value : Int64) : DataBlock :=
  newDataBlock "cpu" ∅ 1 [⟨name, .int value⟩]

theorem oneInt_ints (name other : String) (value : Int64) :
    OnlyInts name (oneInt other value).metrics := by
  -- The record has one metric, and that is an int.
  intro metric inside _
  simp [oneInt, newDataBlock] at inside
  simp [inside]

/-- Two records, aggregated by no label. -/
def twoRecords (first second : DataBlock) : List AggAction :=
  [.aggregate first [], .aggregate second []]

theorem twoRecords_ints (first second : String) (value other : Int64) :
    CarriesInts (twoRecords (oneInt first value) (oneInt second other)) := by
  -- Each of the two records has its one integer.
  intro data selectors member metric inside
  simp only [twoRecords, List.mem_cons, List.not_mem_nil, or_false,
    AggAction.aggregate.injEq] at member
  rcases member with ⟨rfl, -⟩ | ⟨rfl, -⟩
  · exact oneInt_ints metric.name first value metric inside rfl
  · exact oneInt_ints metric.name second other metric inside rfl

/-- The first value is not below zero, so all five kinds are reported right. -/
theorem AggState.dump_reports_five :
    ∃ s s', run AggState.step fiveStart (twoRecords (oneInt "a" 3) (oneInt "a" (-8))) = some s ∧
      s.step (.dump listedDump) = some s' ∧
        ReportsKinds s s' "cpu" (.fill []) "a" fiveKinds [3, -8] := by
  -- Both records are there, and the first of them carries the metric.
  obtain ⟨reports, goes⟩ := AggState.dump_reports ((∅ : KindMap).insert "a" fiveKinds) "cpu"
    (.fill []) "a" fiveKinds rfl (twoRecords (oneInt "a" 3) (oneInt "a" (-8))) listedDump
  obtain ⟨s, s', ran, dumped⟩ := goes (twoRecords_ints "a" "a" 3 (-8)) (by decide)
  refine ⟨s, s', ran, dumped, (reports (oneInt "a" 3) [oneInt "a" (-8)] s s' rfl
    (by simp [oneInt_ints]) ⟨by decide, by decide, by decide⟩ (by decide) ran dumped).mpr ?_⟩
  intro cfg _
  exact ⟨fun _ _ => ⟨⟨"a", .int 3⟩, by simp [oneInt, newDataBlock], rfl⟩, fun _ => ⟨3, by decide⟩⟩

/-- A maximum over negative values is reported as zero, and a late metric is not reported. -/
theorem AggState.dump_reports_wrong :
    (∃ s s', run AggState.step fiveStart (twoRecords (oneInt "a" (-3)) (oneInt "a" (-8))) =
        some s ∧ s.step (.dump listedDump) = some s' ∧
          ¬ReportsKinds s s' "cpu" (.fill []) "a" fiveKinds [-3, -8]) ∧
      ∃ s s', run AggState.step fiveStart (twoRecords (oneInt "b" 1) (oneInt "a" 3)) = some s ∧
        s.step (.dump listedDump) = some s' ∧
          ¬ReportsKinds s s' "cpu" (.fill []) "a" fiveKinds [3] := by
  have configured : ((∅ : KindMap).insert "a" fiveKinds).lookup "a" = some fiveKinds := rfl
  have max : (⟨"a_max", .max, []⟩ : KindConfig) ∈ fiveKinds := by simp [fiveKinds]
  -- Both runs go through, so it is the values that are not foretold.
  have goes : ∀ first second value other, ∃ s s', run AggState.step fiveStart
      (twoRecords (oneInt first value) (oneInt second other)) = some s ∧
        s.step (.dump listedDump) = some s' := by
    intro first second value other
    have few : carriedMetrics (twoRecords (oneInt first value) (oneInt second other)) < 2 ^ 63 := by
      simp [carriedMetrics, twoRecords, oneInt, newDataBlock]
    have ints := twoRecords_ints first second value other
    obtain ⟨s, ran⟩ := run_goes ((∅ : KindMap).insert "a" fiveKinds) ints few
    obtain ⟨s', dumped⟩ := (run_gathered ran).dump_goes ints few listedDump
    exact ⟨s, s', ran, dumped⟩
  constructor
  · obtain ⟨s, s', ran, dumped⟩ := goes "a" "a" (-3) (-8)
    refine ⟨s, s', ran, dumped, fun reports => ?_⟩
    have recorded : recordsSince "cpu" (.fill [])
        (twoRecords (oneInt "a" (-3)) (oneInt "a" (-8))) =
          [oneInt "a" (-3), oneInt "a" (-8)] := rfl
    have foretold := (dump_reports_iff configured "cpu" (.fill []) recorded
      (by simp [oneInt_ints]) ⟨by decide, by decide, by decide⟩ (by decide) ran dumped).mp reports
    obtain ⟨one, member, nonneg⟩ := (foretold _ max).2 rfl
    have values : one = -3 ∨ one = -8 := by
      simpa [valuesOf, intsOf, oneInt, newDataBlock] using member
    rcases values with rfl | rfl <;> exact absurd nonneg (by decide)
  · obtain ⟨s, s', ran, dumped⟩ := goes "b" "a" 1 3
    refine ⟨s, s', ran, dumped, fun reports => ?_⟩
    have recorded : recordsSince "cpu" (.fill []) (twoRecords (oneInt "b" 1) (oneInt "a" 3)) =
        [oneInt "b" 1, oneInt "a" 3] := rfl
    have foretold := (dump_reports_iff configured "cpu" (.fill []) recorded
      (by simp [oneInt_ints]) ⟨by decide, by decide, by decide⟩ (by decide) ran dumped).mp reports
    obtain ⟨metric, member, named⟩ := (foretold _ max).1 (by decide) (by decide)
    obtain rfl : metric = ⟨"b", .int 1⟩ := by simpa [oneInt, newDataBlock] using member
    exact absurd named (by decide)

end Spycat
