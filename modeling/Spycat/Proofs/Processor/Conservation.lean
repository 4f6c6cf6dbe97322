import Spycat.Lib.Partial
import Spycat.Processor.Aggregator

/-! What is passed to the aggregator comes out of its dumps, as long as no metric is dropped. -/

namespace Spycat

open Lib

/-- What a metric adds to a sum or to a count of integers. -/
def contribution (kind : AggregatorKind) (data : MetricData) : Int64 :=
  match kind, data with
  | .sum, .int value => value
  | .count, .int _ => 1
  | _, _ => 0

/-- What a record's metrics of one name add up to. -/
def contributions (kind : AggregatorKind) (name : String) (metrics : List Metric) : Int64 :=
  ((metrics.filter (·.name = name)).map fun metric => contribution kind metric.data).sum

/-- The value holds a sum or a count, as its kind asks for. -/
inductive Holding : AggregatorKind → AggregatedValue → Int64 → Prop
  | sum (value : Int64) : Holding .sum (.sum value) value
  | count (value : Int64) : Holding .count (.count value) value

/-- A fresh sum or count holds nothing. -/
theorem holding_new {cfg : KindConfig} (kind : cfg.kind = .sum ∨ cfg.kind = .count) :
    Holding cfg.kind (AggregatedValue.new cfg) 0 := by
  -- Both kinds start with nothing.
  rcases kind with same | same <;> rw [AggregatedValue.new, same] <;> constructor

/-- A sum or a count is reported as it is. -/
theorem Holding.get {kind : AggregatorKind} {v : AggregatedValue} {held : Int64}
    (holding : Holding kind v held) : v.get = some (.int held) := by
  -- Both kinds report what they hold.
  cases holding <;> rfl

/-- A metric that is no histogram adds its contribution. -/
theorem Holding.take {kind : AggregatorKind} {v v' : AggregatedValue} {held : Int64}
    {data : MetricData} (holding : Holding kind v held) (taken : v.take data = some v')
    (plain : ∀ h, data ≠ .histogram h) : Holding kind v' (held + contribution kind data) := by
  -- An integer is added or counted, and an empty metric changes nothing.
  cases data with
  | int value =>
    obtain rfl : v.calculate value = v' := by simpa [AggregatedValue.take] using taken
    cases holding <;> constructor
  | histogram h => exact absurd rfl (plain h)
  | none =>
    obtain rfl : v = v' := by simpa [AggregatedValue.take] using taken
    cases holding <;> simp only [contribution, add_zero] <;> constructor

/-- An entry keeps a sum or a count for a metric, at a place among its aggregations. -/
def Slot (m : DefaultValuesMap) (name : String) (place : Nat) (kind : AggregatorKind)
    (held : Int64) : Prop :=
  ∃ slice output v, m.values.lookup name = some slice ∧ slice[place]? = some (output, v) ∧
    Holding kind v held

section Entry

variable {m m' : DefaultValuesMap} {name : String} {place : Nat} {kind : AggregatorKind}
  {held : Int64} {timestamp : UInt64}

/-- A metric without aggregations changes nothing. -/
theorem calculate_absent {metric : Metric} (absent : m.values.lookup metric.name = none)
    (timestamp : UInt64) : m.calculate metric timestamp = some m := by
  -- The source returns without a word.
  simp only [DefaultValuesMap.calculate, absent]

/-- A metric with aggregations is taken in by each of them. -/
theorem calculate_present {metric : Metric} {slice : List (String × AggregatedValue)}
    (stored : m.values.lookup metric.name = some slice) (timestamp : UInt64) :
    m.calculate metric timestamp =
      (slice.mapM fun (v : String × AggregatedValue) =>
        (v.2.take metric.data).map fun value => (v.1, value)).map fun after =>
          { values := m.values.insert metric.name after, timestamp := timestamp } := by
  -- All values of the metric take the same data.
  simp only [DefaultValuesMap.calculate, stored]

/-- Taking a metric in changes no other metric. -/
theorem calculate_other {metric : Metric} (other : metric.name ≠ name)
    (calculated : m.calculate metric timestamp = some m') :
    m'.values.lookup name = m.values.lookup name := by
  -- Only the aggregations under the name of the metric are replaced.
  cases stored : m.values.lookup metric.name with
  | none =>
    rw [calculate_absent stored] at calculated
    rw [Option.some.inj calculated]
  | some slice =>
    rw [calculate_present stored] at calculated
    obtain ⟨after, _, rfl⟩ := Option.map_eq_some_iff.mp calculated
    exact AList.lookup_insert_ne (Ne.symm other)

/-- Taking a metric in adds its contribution where it has the name, and nothing elsewhere. -/
theorem Slot.calculate (slot : Slot m name place kind held) {metric : Metric}
    (plain : metric.name = name → ∀ h, metric.data ≠ .histogram h)
    (calculated : m.calculate metric timestamp = some m') :
    Slot m' name place kind (held + contributions kind name [metric]) := by
  -- The metric is another one, or its value goes into every place of the slice.
  obtain ⟨slice, output, v, stored, located, holding⟩ := slot
  by_cases same : metric.name = name
  · subst same
    rw [calculate_present stored] at calculated
    obtain ⟨after, mapped, rfl⟩ := Option.map_eq_some_iff.mp calculated
    have moved := mapM_getElem? mapped place
    rw [located, Option.bind_some] at moved
    cases taken : v.take metric.data with
    | none =>
      obtain ⟨_, _, went⟩ := mapM_mem mapped (List.mem_of_getElem? located)
      simp [taken] at went
    | some v' =>
      simp only [taken, Option.map_some] at moved
      refine ⟨after, output, v', by simp, moved, ?_⟩
      simpa [contributions] using holding.take taken (plain rfl)
  · refine ⟨slice, output, v, (calculate_other same calculated).trans stored, located, ?_⟩
    simpa [contributions, same] using holding

/-- The contributions of a record add up metric by metric. -/
theorem contributions_cons (metric : Metric) (rest : List Metric) :
    contributions kind name (metric :: rest) =
      contributions kind name [metric] + contributions kind name rest := by
  -- The first metric counts where it has the name.
  by_cases same : metric.name = name <;> simp [contributions, same]

/-- Taking a record's metrics in adds their contributions. -/
theorem Slot.calculateAll {metrics : List Metric} (slot : Slot m name place kind held)
    (plain : ∀ metric ∈ metrics, metric.name = name → ∀ h, metric.data ≠ .histogram h)
    (calculated : m.calculateAll metrics timestamp = some m') :
    Slot m' name place kind (held + contributions kind name metrics) := by
  -- The induction follows the metrics of the record.
  induction metrics generalizing m held with
  | nil =>
    obtain rfl : m = m' := by simpa [DefaultValuesMap.calculateAll] using calculated
    simpa [contributions] using slot
  | cons metric rest ih =>
    simp only [DefaultValuesMap.calculateAll, List.foldlM_cons] at calculated
    obtain ⟨next, first, others⟩ := Option.bind_eq_some_iff.mp calculated
    have moved := slot.calculate (plain metric (by simp)) first
    have reached := ih moved (fun other member => plain other (by simp [member])) others
    rwa [add_assoc, ← contributions_cons] at reached

/-- Taking metrics in never adds a metric that an entry does not have. -/
theorem absent_calculateAll {metrics : List Metric} (absent : m.values.lookup name = none)
    (calculated : m.calculateAll metrics timestamp = some m') : m'.values.lookup name = none := by
  induction metrics generalizing m with
  | nil =>
    obtain rfl : m = m' := by simpa [DefaultValuesMap.calculateAll] using calculated
    exact absent
  | cons metric rest ih =>
    simp only [DefaultValuesMap.calculateAll, List.foldlM_cons] at calculated
    obtain ⟨next, first, others⟩ := Option.bind_eq_some_iff.mp calculated
    refine ih ?_ others
    -- A metric of the same name is dropped, and another one stays among its own.
    by_cases same : metric.name = name
    · subst same
      rw [calculate_absent absent] at first
      obtain rfl := Option.some.inj first
      exact absent
    · exact (calculate_other same first).trans absent

/-- The fold that makes a new entry, from the aggregations gathered so far. -/
theorem lookup_gather {kindMap : KindMap} {kinds : List KindConfig}
    (configured : kindMap.lookup name = some kinds) (metrics : List Metric)
    (values : Assoc String (List (String × AggregatedValue))) :
    (metrics.foldl (fun values metric =>
      match kindMap.lookup metric.name with
      | none => values
      | some kindSlice =>
        values.insert metric.name
          (kindSlice.map fun cfg => (cfg.outputName, AggregatedValue.new cfg))) values).lookup
            name =
      if metrics.any (·.name = name) then
        some (kinds.map fun cfg => (cfg.outputName, AggregatedValue.new cfg))
      else values.lookup name := by
  -- The induction follows the metrics of the record.
  induction metrics generalizing values with
  | nil => simp
  | cons metric rest ih =>
    rw [List.foldl_cons, ih]
    by_cases later : rest.any (·.name = name)
    -- A later metric of the name writes the same fresh aggregations again.
    · simp [later]
    · by_cases same : metric.name = name
      · subst same
        simp [later, configured]
      · cases kindMap.lookup metric.name with
        | none => simp [later, same]
        | some kindSlice => simp [later, same, AList.lookup_insert_ne (Ne.symm same)]

/-- A new entry has aggregations just for the configured metrics of its record. -/
theorem lookup_new {kindMap : KindMap} {kinds : List KindConfig}
    (configured : kindMap.lookup name = some kinds) (metrics : List Metric) :
    (DefaultValuesMap.new metrics kindMap).values.lookup name =
      if metrics.any (·.name = name) then
        some (kinds.map fun cfg => (cfg.outputName, AggregatedValue.new cfg))
      else none := by
  -- A new entry is gathered from nothing.
  have gathered := lookup_gather configured metrics ∅
  rw [AList.lookup_empty] at gathered
  exact gathered

end Entry

/-- What an entry reports for one aggregation of a metric. -/
def DefaultValuesMap.output (m : DefaultValuesMap) (name : String) (place : Nat) : Int64 :=
  match (m.get name).bind (·[place]?) with
  | some ⟨_, .int value⟩ => value
  | _ => 0

/-- A dumped record carries what its entry reports for each metric, in some order, and no more. -/
def Dumped.Complete (d : Dumped) : Prop :=
  d.block.name = d.name ∧ d.block.labels = d.key.getLabels ∧
    ∃ (names : List String) (lists : List (List Metric)), names.Perm d.entry.values.keys ∧
      names.mapM d.entry.get = some lists ∧ d.block.metrics = lists.flatten

/-- The entry under a record name and a label key. -/
def DefaultAggregator.entry (d : DefaultAggregator) (name : String) (key : LabelKeys) :
    Option DefaultValuesMap :=
  (d.aggregatorMap.lookup name).bind fun r => r.labelValues.lookup key

section Totals

variable (block : String) (key : LabelKeys) (name : String) (place : Nat) (kind : AggregatorKind)

/-- What one call passes in under a record name, a label key, and a metric name. -/
def AggAction.passed : AggAction → Int64
  | .aggregate data selectors =>
    if data.name = block ∧ getLabelKeys selectors data.labels = key then
      contributions kind name data.metrics
    else 0
  | .dump _ => 0

/-- What a sequence of calls passes in. -/
def passed (actions : List AggAction) : Int64 :=
  (actions.map (AggAction.passed block key name kind)).sum

/-- What the dumps so far have reported. -/
def reported (dumped : List Dumped) : Int64 :=
  (dumped.map fun d => if d.name = block ∧ d.key = key then d.entry.output name place else 0).sum

/--
A call drops nothing of a metric.

An entry that exists has the metric when a record carries an integer for it, and no record of the
entry carries a histogram for it.
-/
def DropsNothing (s : AggState) (action : AggAction) : Prop :=
  ∀ data selectors, action = .aggregate data selectors → data.name = block →
    getLabelKeys selectors data.labels = key →
    (∀ metric ∈ data.metrics, metric.name = name → ∀ h, metric.data ≠ .histogram h) ∧
    ∀ entry, s.aggregator.entry block key = some entry →
      (∃ metric ∈ data.metrics, metric.name = name ∧ ∃ value, metric.data = .int value) →
      (entry.values.lookup name).isSome

/-- What an entry holds for the metric, if there is an entry and it has the metric. -/
inductive Current : Option DefaultValuesMap → Int64 → Prop
  | missing : Current none 0
  | without {entry : DefaultValuesMap} (absent : entry.values.lookup name = none) :
      Current (some entry) 0
  | kept {entry : DefaultValuesMap} {held : Int64} (slot : Slot entry name place kind held) :
      Current (some entry) held

/-- What was passed in is what was reported and what is held. -/
structure Accounts (kindMap : KindMap) (past : List AggAction) (s : AggState) : Prop where
  kinds : s.aggregator.kindMap = kindMap
  recorders : ∀ other r, s.aggregator.aggregatorMap.lookup other = some r →
    r.name = other ∧ r.aggKindMap = kindMap
  balanced : ∃ held, Current name place kind (s.aggregator.entry block key) held ∧
    reported block key name place s.dumped + held = passed block key name kind past

end Totals

/-- The entries of a record name are those of its recorder, and a new recorder has none. -/
theorem recorder_entry (d : DefaultAggregator) (name : String) (key : LabelKeys) :
    ((d.aggregatorMap.lookup name).getD
      (ValueRecorder.new name d.kindMap)).labelValues.lookup key = d.entry name key := by
  -- A recorder is there, or it is made without entries.
  cases stored : d.aggregatorMap.lookup name <;>
    simp [DefaultAggregator.entry, stored, ValueRecorder.new]

/-- Aggregating leaves every entry as it is that is not the one of the record. -/
theorem aggregate_other {d d' : DefaultAggregator} {data : DataBlock}
    {selectors : List LabelSelector} (aggregated : d.aggregate data selectors = some d')
    {block : String} {key : LabelKeys}
    (apart : ¬ (data.name = block ∧ getLabelKeys selectors data.labels = key)) :
    d'.entry block key = d.entry block key := by
  obtain ⟨result, recorded, rfl⟩ := Option.map_eq_some_iff.mp aggregated
  obtain ⟨after, calculated, rfl⟩ := Option.map_eq_some_iff.mp recorded
  -- The entry is in another recorder, or under another key of the same one.
  by_cases same : data.name = block
  · subst same
    have other : key ≠ getLabelKeys selectors data.labels := fun alike => apart ⟨rfl, alike.symm⟩
    rw [← recorder_entry d]
    simp [DefaultAggregator.entry, AList.lookup_insert_ne other]
  · simp [DefaultAggregator.entry, AList.lookup_insert_ne (Ne.symm same)]

/-- Aggregating changes the one entry of the record, which it makes when there is none. -/
theorem aggregate_entry {d d' : DefaultAggregator} {kindMap : KindMap}
    (kinds : d.kindMap = kindMap)
    (recorders : ∀ other r, d.aggregatorMap.lookup other = some r →
      r.name = other ∧ r.aggKindMap = kindMap)
    {data : DataBlock} {selectors : List LabelSelector}
    (aggregated : d.aggregate data selectors = some d') :
    d'.kindMap = kindMap ∧
      (∀ other r, d'.aggregatorMap.lookup other = some r →
        r.name = other ∧ r.aggKindMap = kindMap) ∧
      (∃ after, d'.entry data.name (getLabelKeys selectors data.labels) = some after ∧
        ((d.entry data.name (getLabelKeys selectors data.labels)).getD
          (DefaultValuesMap.new data.metrics kindMap)).calculateAll data.metrics data.timestamp =
            some after) ∧
      ∀ block key, ¬ (data.name = block ∧ getLabelKeys selectors data.labels = key) →
        d'.entry block key = d.entry block key := by
  obtain ⟨result, recorded, rfl⟩ := Option.map_eq_some_iff.mp aggregated
  obtain ⟨after, calculated, rfl⟩ := Option.map_eq_some_iff.mp recorded
  -- The recorder is the one of the record's name, whether it is there or made now.
  have maker : ((d.aggregatorMap.lookup data.name).getD
      (ValueRecorder.new data.name d.kindMap)).name = data.name ∧
      ((d.aggregatorMap.lookup data.name).getD
        (ValueRecorder.new data.name d.kindMap)).aggKindMap = kindMap := by
    cases stored : d.aggregatorMap.lookup data.name with
    | none => exact ⟨rfl, kinds⟩
    | some r => exact recorders data.name r stored
  refine ⟨kinds, ?_, ⟨after, ?_, ?_⟩, ?_⟩
  · intro other r found
    by_cases same : other = data.name
    · subst same
      rw [AList.lookup_insert, Option.some.injEq] at found
      exact found ▸ maker
    · exact recorders other r ((AList.lookup_insert_ne same).symm.trans found)
  · simp [DefaultAggregator.entry]
  · rw [← recorder_entry, ← maker.2]
    exact calculated
  · exact fun block key apart => aggregate_other aggregated apart

section Steps

variable {block : String} {key : LabelKeys} {name : String} {place : Nat} {kind : AggregatorKind}
  {kindMap : KindMap} {past : List AggAction} {s s' : AggState}

theorem passed_append (action : AggAction) :
    passed block key name kind (past ++ [action]) =
      passed block key name kind past + action.passed block key name kind := by
  -- The actions are summed up one by one.
  simp [passed]

/-- A metric that no integer is carried for gets no contribution. -/
theorem contributions_none {metrics : List Metric}
    (plain : ∀ metric ∈ metrics, metric.name = name → ∀ h, metric.data ≠ .histogram h)
    (without : ¬ ∃ metric ∈ metrics, metric.name = name ∧ ∃ value, metric.data = .int value) :
    contributions kind name metrics = 0 := by
  -- Each metric of the name is neither an integer nor a histogram.
  refine List.sum_eq_zero fun summand member => ?_
  obtain ⟨metric, kept, rfl⟩ := List.mem_map.mp member
  obtain ⟨inside, named⟩ := List.mem_filter.mp kept
  have named : metric.name = name := by simpa using named
  cases data : metric.data with
  | int value => exact absurd ⟨metric, inside, named, value, data⟩ without
  | histogram h => exact absurd data (plain metric inside named h)
  | none => cases kind <;> rfl

/-- Taking a record that drops nothing into its entry adds what the record contributes. -/
theorem Current.aggregate {kinds : List KindConfig} {cfg : KindConfig}
    (configured : kindMap.lookup name = some kinds) (located : kinds[place]? = some cfg)
    (counts : cfg.kind = .sum ∨ cfg.kind = .count) {current : Option DefaultValuesMap}
    {held : Int64} (holds : Current name place cfg.kind current held) {metrics : List Metric}
    (plain : ∀ metric ∈ metrics, metric.name = name → ∀ h, metric.data ≠ .histogram h)
    (kept : ∀ entry, current = some entry →
      (∃ metric ∈ metrics, metric.name = name ∧ ∃ value, metric.data = .int value) →
      (entry.values.lookup name).isSome)
    {timestamp : UInt64} {after : DefaultValuesMap}
    (calculated : (current.getD (DefaultValuesMap.new metrics kindMap)).calculateAll metrics
      timestamp = some after) :
    Current name place cfg.kind (some after) (held + contributions cfg.kind name metrics) := by
  cases holds with
  | missing =>
    rw [Option.getD_none] at calculated
    have made := lookup_new configured metrics
    by_cases carried : metrics.any (·.name = name)
    · -- The new entry has a fresh aggregation for the metric.
      rw [if_pos carried] at made
      have fresh : Slot (DefaultValuesMap.new metrics kindMap) name place cfg.kind 0 :=
        ⟨_, cfg.outputName, AggregatedValue.new cfg, made, by simp [located], holding_new counts⟩
      exact .kept (fresh.calculateAll plain calculated)
    · rw [if_neg carried] at made
      -- A record without the metric contributes nothing to it.
      have nothing : contributions cfg.kind name metrics = 0 := by
        refine contributions_none plain fun ⟨metric, inside, named, _⟩ => carried ?_
        exact List.any_eq_true.mpr ⟨metric, inside, by simpa using named⟩
      rw [nothing, add_zero]
      exact .without (absent_calculateAll made calculated)
  | @without entry absent =>
    have nothing : contributions cfg.kind name metrics = 0 := by
      refine contributions_none plain fun carried => ?_
      have stored := kept entry rfl carried
      simp [absent] at stored
    rw [nothing, add_zero]
    exact .without (absent_calculateAll absent calculated)
  | @kept entry held slot => exact .kept (slot.calculateAll plain calculated)

/-- Aggregating a record that drops nothing adds what it passes in to what is held. -/
theorem Accounts.aggregate {kinds : List KindConfig} {cfg : KindConfig}
    (configured : kindMap.lookup name = some kinds) (located : kinds[place]? = some cfg)
    (counts : cfg.kind = .sum ∨ cfg.kind = .count)
    (accounts : Accounts block key name place cfg.kind kindMap past s) {data : DataBlock}
    {selectors : List LabelSelector}
    (keeps : DropsNothing block key name s (.aggregate data selectors))
    (stepped : s.step (.aggregate data selectors) = some s') :
    Accounts block key name place cfg.kind kindMap (past ++ [.aggregate data selectors]) s' := by
  -- Either the record is one of the entry, or the entry stays as it is.
  obtain ⟨aggregator, aggregated, rfl⟩ := Option.map_eq_some_iff.mp stepped
  obtain ⟨sameKinds, sameRecorders, ⟨after, changed, calculated⟩, unchanged⟩ :=
    aggregate_entry accounts.kinds accounts.recorders aggregated
  obtain ⟨held, current, balance⟩ := accounts.balanced
  refine ⟨sameKinds, sameRecorders, ?_⟩
  by_cases mine : data.name = block ∧ getLabelKeys selectors data.labels = key
  · obtain ⟨rfl, rfl⟩ := mine
    obtain ⟨plain, kept⟩ := keeps data selectors rfl rfl rfl
    refine ⟨held + contributions cfg.kind name data.metrics, ?_, ?_⟩
    · rw [changed]
      exact current.aggregate configured located counts plain
        (fun entry found => kept entry found) calculated
    · rw [passed_append, ← balance, AggAction.passed, if_pos ⟨rfl, rfl⟩, add_assoc]
  · refine ⟨held, (unchanged block key mine).symm ▸ current, ?_⟩
    rw [passed_append, AggAction.passed, if_neg mine, add_zero]
    exact balance

/-- An entry that is reported gives what it holds. -/
theorem Current.output {entry : DefaultValuesMap} {held : Int64}
    (current : Current name place kind (some entry) held) {order : RangeOrder String}
    {metrics : List Metric} (reports : entry.getAll order = some metrics) :
    entry.output name place = held := by
  cases current with
  | without absent => simp [DefaultValuesMap.output, DefaultValuesMap.get, absent]
  | kept slot =>
    obtain ⟨slice, output, v, stored, located, holding⟩ := slot
    -- All metrics of the entry are reported, so this one is.
    obtain ⟨lists, mapped, _⟩ := Option.map_eq_some_iff.mp reports
    have listed : name ∈ order.arrange entry.values.keys := by
      rw [(order.perm _).mem_iff, ← AList.mem_keys, ← AList.lookup_isSome, stored]
      rfl
    obtain ⟨gotten, _, got⟩ := mapM_mem mapped listed
    have moved := got
    rw [DefaultValuesMap.get, stored, Option.getD_some] at moved
    have there := mapM_getElem? moved place
    rw [located, Option.bind_some, holding.get, Option.map_some] at there
    simp [DefaultValuesMap.output, got, there]

/-- A recorder reports for a key what the entry of the key reports. -/
theorem dump_recorder {r : ValueRecorder} {order : DumpOrder} {dumped : List Dumped}
    (reports : r.dump order = some dumped) :
    reported block key name place dumped =
      if r.name = block then ((r.labelValues.lookup key).map (·.output name place)).getD 0
      else 0 := by
  -- The entries that are visited are the stored ones, and one of them has the key.
  have agree : reported block key name place dumped =
      ((r.labelValues.range (order.entries r.name)).map fun entry =>
        if r.name = block ∧ entry.1 = key then entry.2.output name place else 0).sum := by
    refine mapM_sum _ _ (fun entry _ d went => ?_) reports
    obtain ⟨metrics, _, rfl⟩ := Option.map_eq_some_iff.mp went
    rfl
  rw [agree]
  by_cases mine : r.name = block
  · simp only [mine, true_and, if_true]
    exact (Assoc.sum_range (fun (other : LabelKeys) (entry : DefaultValuesMap) =>
      if other = key then entry.output name place else 0) _ _).trans (Assoc.total_single _ _ _)
  · simp [mine]

/-- A dump clears every entry, and keeps the names and kinds of the recorders. -/
theorem dump_clears {d d' : DefaultAggregator} {order : DumpOrder} {dumped : List Dumped}
    (reports : d.dump order = some (d', dumped)) :
    d'.kindMap = d.kindMap ∧
      (∀ other r, d'.aggregatorMap.lookup other = some r →
        ∃ before, d.aggregatorMap.lookup other = some before ∧ r = before.reset) ∧
      ∀ block key, d'.entry block key = none := by
  -- Every recorder is reset, which leaves its name and its kinds.
  obtain ⟨lists, _, same⟩ := Option.map_eq_some_iff.mp reports
  obtain ⟨rfl, -⟩ := Prod.mk.inj same
  refine ⟨rfl, fun other r found => ?_, fun block key => ?_⟩
  · obtain ⟨before, stored, rfl⟩ : ∃ before, d.aggregatorMap.lookup other = some before ∧
        before.reset = r := by simpa using found
    exact ⟨before, stored, rfl⟩
  · cases stored : d.aggregatorMap.lookup block <;>
      simp [DefaultAggregator.entry, ValueRecorder.reset, stored]

/-- A dump reports for a record name and a key what the entry there reports. -/
theorem dump_entry {d d' : DefaultAggregator} {order : DumpOrder} {dumped : List Dumped}
    (named : ∀ other r, d.aggregatorMap.lookup other = some r → r.name = other)
    (reports : d.dump order = some (d', dumped)) :
    reported block key name place dumped =
      ((d.entry block key).map (·.output name place)).getD 0 := by
  -- The recorders that are visited are the stored ones, and one of them has the name.
  obtain ⟨lists, mapped, same⟩ := Option.map_eq_some_iff.mp reports
  obtain ⟨-, rfl⟩ := Prod.mk.inj same
  have flat : reported block key name place lists.flatten =
      (lists.map (reported block key name place)).sum := by
    simp only [reported, List.map_flatten, List.sum_flatten, List.map_map, Function.comp_def]
    rfl
  have agree : (lists.map (reported block key name place)).sum =
      ((d.aggregatorMap.range order.recorders).map fun entry =>
        if entry.1 = block then
          ((entry.2.labelValues.lookup key).map (·.output name place)).getD 0
        else 0).sum := by
    refine mapM_sum _ _ (fun entry member list went => ?_) mapped
    rw [dump_recorder went, named entry.1 entry.2 (Assoc.mem_range.mp member)]
  rw [flat, agree]
  refine (Assoc.sum_range (fun (other : String) (r : ValueRecorder) => if other = block then
    ((r.labelValues.lookup key).map (·.output name place)).getD 0 else 0) _ _).trans ?_
  rw [Assoc.total_single]
  cases stored : d.aggregatorMap.lookup block <;> simp [DefaultAggregator.entry, stored]

/-- Every dumped record is made of an entry that a stored recorder holds. -/
theorem dump_source {d d' : DefaultAggregator} {order : DumpOrder} {dumped : List Dumped}
    (reports : d.dump order = some (d', dumped)) {record : Dumped} (member : record ∈ dumped) :
    ∃ block r key entry, d.aggregatorMap.lookup block = some r ∧
      r.labelValues.lookup key = some entry ∧ r.dumpEntry order key entry = some record := by
  -- The record is traced back to the list it is in, and to the entry that was visited for it.
  obtain ⟨lists, mapped, same⟩ := Option.map_eq_some_iff.mp reports
  obtain ⟨-, rfl⟩ := Prod.mk.inj same
  obtain ⟨list, listed, inside⟩ := List.mem_flatten.mp member
  obtain ⟨⟨block, r⟩, visited, went⟩ := mapM_mem_output mapped listed
  obtain ⟨⟨key, entry⟩, held, made⟩ := mapM_mem_output went inside
  exact ⟨block, r, key, entry, Assoc.mem_range.mp visited, Assoc.mem_range.mp held, made⟩

/-- Every entry that is there when a dump goes through makes a record. -/
theorem dump_covers {d d' : DefaultAggregator} {order : DumpOrder} {dumped : List Dumped}
    (reports : d.dump order = some (d', dumped)) {block : String} {key : LabelKeys}
    {entry : DefaultValuesMap} (found : d.entry block key = some entry) :
    ∃ r record, d.aggregatorMap.lookup block = some r ∧ record ∈ dumped ∧
      r.dumpEntry order key entry = some record := by
  -- Had reporting the entry failed, the whole dump would have.
  obtain ⟨lists, mapped, same⟩ := Option.map_eq_some_iff.mp reports
  obtain ⟨-, rfl⟩ := Prod.mk.inj same
  obtain ⟨r, stored, held⟩ := Option.bind_eq_some_iff.mp found
  obtain ⟨list, listed, went⟩ := mapM_mem mapped (Assoc.mem_range.mpr stored : (block, r) ∈ _)
  obtain ⟨record, inside, made⟩ := mapM_mem went (Assoc.mem_range.mpr held : (key, entry) ∈ _)
  exact ⟨r, record, stored, List.mem_flatten.mpr ⟨list, listed, inside⟩, made⟩

/-- The records of a dump are complete. -/
theorem dump_complete {d d' : DefaultAggregator} {order : DumpOrder} {dumped : List Dumped}
    (reports : d.dump order = some (d', dumped)) : ∀ record ∈ dumped, record.Complete := by
  -- A record is traced back to its entry, and that one to its metrics.
  intro record member
  obtain ⟨_, r, key, entry, _, _, made⟩ := dump_source reports member
  obtain ⟨metrics, gotten, rfl⟩ := Option.map_eq_some_iff.mp made
  obtain ⟨gathered, each, rfl⟩ := Option.map_eq_some_iff.mp gotten
  exact ⟨rfl, rfl, _, gathered, (order.metrics r.name key).perm _, each, rfl⟩

/-- A dump moves what is held to what is reported. -/
theorem Accounts.dump (accounts : Accounts block key name place kind kindMap past s)
    {order : DumpOrder} (stepped : s.step (.dump order) = some s') :
    Accounts block key name place kind kindMap (past ++ [.dump order]) s' ∧
      s'.aggregator.entry block key = none := by
  -- The one entry is reported with what it holds, and afterwards there is no entry.
  obtain ⟨⟨aggregator, dumped⟩, reports, rfl⟩ := Option.map_eq_some_iff.mp stepped
  have told : reported block key name place dumped =
      ((s.aggregator.entry block key).map (·.output name place)).getD 0 :=
    dump_entry (fun other r found => (accounts.recorders other r found).1) reports
  obtain ⟨kinds, kept, cleared⟩ := dump_clears reports
  obtain ⟨held, current, balance⟩ := accounts.balanced
  have moved : reported block key name place dumped = held := by
    rw [told]
    cases found : s.aggregator.entry block key with
    | none =>
      rw [found] at current
      cases current
      rfl
    | some entry =>
      rw [found] at current
      obtain ⟨_, _, _, _, made⟩ := dump_covers reports found
      obtain ⟨_, gotten, _⟩ := Option.map_eq_some_iff.mp made
      exact current.output gotten
  have gone : aggregator.entry block key = none := cleared block key
  refine ⟨⟨kinds.trans accounts.kinds, ?_, 0, gone ▸ .missing, ?_⟩, gone⟩
  · intro other r found
    -- A recorder that was reset keeps its name and its aggregations.
    obtain ⟨before, stored, rfl⟩ := kept other r found
    exact accounts.recorders other before stored
  · rw [passed_append, AggAction.passed, ← balance, ← moved]
    simp [reported]

/-- Nothing was passed in, reported or held before the first call. -/
theorem accounts_start : Accounts block key name place kind kindMap []
    { aggregator := DefaultAggregator.new kindMap, dumped := [] } where
  -- Nothing was recorded, passed in or reported.
  kinds := rfl
  recorders := fun other r found => by simp [DefaultAggregator.new] at found
  balanced := ⟨0, .missing, by simp [reported, passed]⟩

end Steps

/--
In every run that drops nothing of a metric, and with a final dump, a sum or a count of the metric
reports exactly what was passed in.

The configured aggregation is the one at a place in the list of the metric's aggregations, and each
dumped record carries what its entry reports.
-/
theorem AggState.dumps_conserve (kindMap : KindMap) (block : String) (key : LabelKeys)
    (name : String) (place : Nat) (kinds : List KindConfig) (cfg : KindConfig)
    (configured : kindMap.lookup name = some kinds) (located : kinds[place]? = some cfg)
    (counts : cfg.kind = .sum ∨ cfg.kind = .count) (actions : List AggAction) (order : DumpOrder)
    (keeps : Allowed AggState.step (DropsNothing block key name)
      { aggregator := DefaultAggregator.new kindMap, dumped := [] } actions) (s : AggState)
    (ran : run AggState.step { aggregator := DefaultAggregator.new kindMap, dumped := [] }
      (actions ++ [.dump order]) = some s) :
    reported block key name place s.dumped = passed block key name cfg.kind actions ∧
      ∀ record ∈ s.dumped, record.Complete := by
  constructor
  · rw [run_append] at ran
    obtain ⟨before, ran, last⟩ := Option.bind_eq_some_iff.mp ran
    have accounts : Accounts block key name place cfg.kind kindMap actions before := by
      refine run_history_allowed _ accounts_start ?_ keeps ran
      intro past state action next accounts keeps stepped
      cases action with
      | aggregate data selectors =>
        exact accounts.aggregate configured located counts keeps stepped
      | dump order => exact (accounts.dump stepped).1
    -- After the final dump nothing is held any more.
    obtain ⟨next, dumped, done⟩ := Option.bind_eq_some_iff.mp last
    obtain rfl : next = s := by simpa using done
    obtain ⟨⟨-, -, held, current, balance⟩, cleared⟩ := accounts.dump dumped
    rw [cleared] at current
    cases current
    simpa [passed_append, AggAction.passed] using balance
  · refine run_invariant (fun state => ∀ record ∈ state.dumped, record.Complete) (by simp) ?_ ran
    intro state action next complete stepped
    cases action with
    | aggregate data selectors =>
      obtain ⟨_, _, rfl⟩ := Option.map_eq_some_iff.mp stepped
      exact complete
    | dump order =>
      obtain ⟨⟨aggregator, dumped⟩, reports, rfl⟩ := Option.map_eq_some_iff.mp stepped
      intro record member
      rcases List.mem_append.mp member with old | new
      · exact complete record old
      · exact dump_complete reports record new

/-- Two metrics, each of which is summed. -/
def summed : KindMap :=
  ((∅ : KindMap).insert "a" [⟨"a_total", .sum, []⟩]).insert "b" [⟨"b_total", .sum, []⟩]

/-- A record without labels, aggregated by no label. -/
def carrying (metrics : List Metric) : AggAction := .aggregate (newDataBlock "cpu" ∅ 1 metrics) []

/-- A dump that visits everything as listed. -/
def listedDump : DumpOrder where
  recorders := .listed
  entries := fun _ => .listed
  metrics := fun _ _ => .listed

/-- A run that carries the metric from the first record on. -/
def steadyRun : List AggAction :=
  [carrying [⟨"a", .int 3⟩, ⟨"b", .int 5⟩], carrying [⟨"b", .int 7⟩]]

/-- The sum over the two records of the steady run is reported. -/
theorem AggState.dumps_conserve_steady :
    ∃ s, run AggState.step { aggregator := DefaultAggregator.new summed, dumped := [] }
        (steadyRun ++ [.dump listedDump]) = some s ∧
      reported "cpu" (.fill []) "b" 0 s.dumped = passed "cpu" (.fill []) "b" .sum steadyRun := by
  have runs : (run AggState.step { aggregator := DefaultAggregator.new summed, dumped := [] }
      (steadyRun ++ [.dump listedDump])).isSome := by decide +kernel
  obtain ⟨s, ran⟩ := Option.isSome_iff_exists.mp runs
  refine ⟨s, ran, (AggState.dumps_conserve summed "cpu" (.fill []) "b" 0 _ ⟨"b_total", .sum, []⟩ rfl
    rfl (.inl rfl) steadyRun listedDump ⟨?_, ?_⟩ s ran).1⟩
  · -- There is no entry yet.
    rintro data selectors same - -
    obtain ⟨rfl, rfl⟩ := AggAction.aggregate.inj same
    exact ⟨by simp [newDataBlock], fun entry found => by cases found⟩
  · intro next taken
    refine ⟨?_, fun _ _ => trivial⟩
    rintro data selectors same - -
    obtain ⟨rfl, rfl⟩ := AggAction.aggregate.inj same
    refine ⟨by simp [newDataBlock], fun entry found _ => ?_⟩
    -- The entry is the one of the first record, which has the metric.
    obtain rfl := Option.some.inj taken
    obtain rfl := Option.some.inj found
    decide +kernel

/-- A metric that the first record of an entry does not carry is lost. -/
theorem AggState.dumps_lose_late_metric :
    ∃ s, run AggState.step { aggregator := DefaultAggregator.new summed, dumped := [] }
        ([carrying [⟨"a", .int 3⟩], carrying [⟨"b", .int 5⟩]] ++ [.dump listedDump]) = some s ∧
      summed.lookup "b" = some [⟨"b_total", .sum, []⟩] ∧
      reported "cpu" (.fill []) "b" 0 s.dumped = 0 ∧
      passed "cpu" (.fill []) "b" .sum
        [carrying [⟨"a", .int 3⟩], carrying [⟨"b", .int 5⟩]] = 5 := by
  -- The run is evaluated: the second metric comes behind an entry without it.
  have runs : ∃ s ∈ run AggState.step { aggregator := DefaultAggregator.new summed, dumped := [] }
      ([carrying [⟨"a", .int 3⟩], carrying [⟨"b", .int 5⟩]] ++ [.dump listedDump]),
      reported "cpu" (.fill []) "b" 0 s.dumped = 0 := by decide +kernel
  obtain ⟨s, ran, told⟩ := runs
  exact ⟨s, ran, rfl, told, by decide +kernel⟩

end Spycat
